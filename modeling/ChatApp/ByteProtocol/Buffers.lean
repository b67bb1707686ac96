import ChatApp.ByteProtocol.System

set_option autoImplicit false

/-! # Writing into the transmit buffers

Neither end compares what it is about to write with the size of `tx_buffer_`, and neither has
a way to refuse: a packet that does not fit is written past the end. How large a packet gets
is a fact about the request and, for a response with records, about the database
(`responseSize`), so the two theorems `contained_iff` and `encodeRequest_isOk_iff` say for
which of them the writes stay inside.
-/

namespace ChatApp

open Lib

namespace MccServer

variable (P : Platform)

/-! ## The size of a response -/

/-- The bytes a response takes: a header and a response value, and for a positive one the id
or the count, and the records. A message is cut to the length its record can express. -/
def responseSize (db : Database) : Request → Nat
  | .register _ => 10
  | .users id =>
      if !db.userExists id then 6
      else 10 + ((otherUsers P db id).map (fun it => 8 + it.2.username.length)).sum
  | .send _ _ _ => 6
  | .recv id =>
      if !db.userExists id then 6
      else 10 + ((db.queueOf id).map (fun m => 8 + m.msg.length % 2 ^ 32)).sum

/-- A response has a response value behind its header. -/
theorem responseSize_gt (db : Database) (r : Request) : sizeofHeader < responseSize P db r := by
  have hheader : sizeofHeader = 5 := rfl
  cases r with
  | register username => exact Nat.lt_of_sub_eq_succ rfl
  | users id =>
      rw [responseSize]
      split_ifs <;> omega
  | send sourceId targetId msg => exact Nat.lt_of_sub_eq_succ rfl
  | recv id =>
      rw [responseSize]
      split_ifs <;> omega

theorem userRecord_length (it : UserId × UserMetadata) :
    (userRecord P it).length = 8 + it.2.username.length := by
  unfold userRecord
  rw [List.length_append, List.length_append, ByteOrder.toBytes_length, ByteOrder.toBytes_length]
  omega

theorem usersReply_length (db : Database) (id : UserId) :
    (usersReply P db id).bytes.length = responseSize P db (.users id) := by
  by_cases hex : db.userExists id = true
  · rcases exists_usersReply_bytes P hex with ⟨len, hbytes⟩
    have hrecords : ((otherUsers P db id).flatMap (userRecord P)).length
        = ((otherUsers P db id).map (fun it => 8 + it.2.username.length)).sum := by
      rw [List.length_flatMap]
      exact congrArg List.sum (List.map_congr_left fun it _ => userRecord_length P it)
    have hsize : responseSize P db (.users id)
        = 10 + ((otherUsers P db id).map (fun it => 8 + it.2.username.length)).sum := by
      simp only [responseSize, hex, Bool.not_true, Bool.false_eq_true, if_false]
    calc (usersReply P db id).bytes.length
        = 5 + (1 + (4 + ((otherUsers P db id).flatMap (userRecord P)).length)) := by
          rw [hbytes, usersPayload, List.length_append, List.length_append, List.length_append,
            Header.bytes_length, ByteOrder.toBytes_length]
          rfl
      _ = responseSize P db (.users id) := by
          rw [hrecords, hsize]
          omega
  · simp only [Bool.not_eq_true] at hex
    simp [usersReply, responseSize, hex, negativeReply, sizeofHeader]

theorem recvReply_length (db : Database) (id : UserId) :
    (recvReply P db id).bytes.length = responseSize P db (.recv id) := by
  by_cases hex : db.userExists id = true
  · have hrecords : ((db.queueOf id).flatMap (msgRecord P)).length
        = ((db.queueOf id).map (fun m => 8 + m.msg.length % 2 ^ 32)).sum := by
      rw [List.length_flatMap]
      refine congrArg List.sum (List.map_congr_left fun m _ => ?_)
      rw [msgRecord_length, UInt32.toNat_ofNat']
    calc (recvReply P db id).bytes.length
        = 5 + (1 + (4 + ((db.queueOf id).flatMap (msgRecord P)).length)) := by
          simp only [recvReply, hex, Bool.not_true, Bool.false_eq_true, if_false, recvPayload,
            List.length_append, Header.bytes_length, ByteOrder.toBytes_length]
          rfl
      _ = responseSize P db (.recv id) := by
          simp only [responseSize, hex, Bool.not_true, Bool.false_eq_true, if_false, hrecords]
          omega
  · simp only [Bool.not_eq_true] at hex
    simp [recvReply, responseSize, hex, negativeReply, sizeofHeader]

/-- **The bytes written for a request** are as many as `responseSize` says. -/
theorem reply_length (db : Database) (r : Request) :
    (reply P db r).bytes.length = responseSize P db r := by
  cases r with
  | register username => simp [reply, registerReply, responseSize, sizeofHeader]
  | users id => exact usersReply_length P db id
  | send sourceId targetId msg => simp [reply, sendReply, responseSize, sizeofHeader]
  | recv id => exact recvReply_length P db id

/-! ## The server -/

/-- `parse` writes inside `tx_buffer_`, and a response larger than that is refused: the
database stays as it is. -/
def Contained (s : MccServer) (data : Bytes) (r : Request) : Prop :=
  ∃ n s', s.parse P data = .ok (n, s') ∧
    (s.txBuffer.length < responseSize P s.db r → s'.db = s.db)

theorem contained_iff {s : MccServer} {data : Bytes} {r : Request}
    (hin : requestIn P data = .ok r) :
    Contained P s data r ↔ responseSize P s.db r ≤ s.txBuffer.length := by
  have hparse : s.parse P data = s.respond (reply P s.db r) := by
    rw [parse_eq, hin, ok_bind]
  have hlen := reply_length P s.db r
  constructor
  · rintro ⟨n, s', hok, -⟩
    by_contra hlt
    -- There is no branch that refuses: the write that leaves the buffer is made.
    have hfault : s.parse P data = .error .outOfBounds := by
      rw [hparse]
      apply respond_of_lt
      omega
    rw [hfault] at hok
    cases hok
  · intro hle
    have hfits : (reply P s.db r).bytes.length ≤ s.txBuffer.length := by omega
    have hok := respond_of_le hfits
    refine ⟨_, _, hparse.trans hok, ?_⟩
    intro hlt
    omega

end MccServer

/-! ## The client -/

namespace MccClient

theorem put_isOk_iff (c : MccClient) (request : Bytes) :
    (∃ out, c.put request = .ok out) ↔ request.length ≤ c.txBuffer.length := by
  constructor
  · rintro ⟨out, hout⟩
    by_contra hlt
    rw [put, writeFront_of_lt (Nat.not_le.mp hlt), error_bind] at hout
    cases hout
  · intro hle
    exact ⟨_, put_of_le hle⟩

theorem encodeRequestRegister_isOk_iff (bo : ByteOrder) (c : MccClient) (username : Bytes) :
    (∃ out, c.encodeRequestRegister bo username = .ok out) ↔
      5 + username.length ≤ c.txBuffer.length := by
  rw [encodeRequestRegister_eq, put_isOk_iff, registerBytes, List.length_append,
    Header.bytes_length]
  rfl

theorem encodeRequestSend_isOk_iff (bo : ByteOrder) (c : MccClient) (srcId targetId : UserId)
    (msg : Bytes) :
    (∃ out, c.encodeRequestSend bo srcId targetId msg = .ok out) ↔
      13 + msg.length ≤ c.txBuffer.length := by
  have hlen : (sendBytes bo srcId targetId msg).length = 13 + msg.length := by
    simp only [sendBytes, List.length_append, Header.bytes_length, ByteOrder.toBytes_length,
      sizeofHeader]
    omega
  rw [encodeRequestSend_eq, put_isOk_iff, hlen]

end MccClient

/-! ## Both ends -/

/-- **The writes stay inside `tx_buffer_`, and a response that does not fit is refused, exactly
when the packet fits**: for every request the server accepts, and for the two requests of the
client that carry a text. -/
theorem writesContained_iff (P : Platform) :
    (∀ (s : MccServer) (data : Bytes) (r : Request), MccServer.requestIn P data = .ok r →
      (MccServer.Contained P s data r ↔
        MccServer.responseSize P s.db r ≤ s.txBuffer.length)) ∧
    (∀ (c : MccClient) (username : Bytes),
      (∃ out, c.encodeRequestRegister P.byteOrder username = .ok out) ↔
        5 + username.length ≤ c.txBuffer.length) ∧
    (∀ (c : MccClient) (srcId targetId : UserId) (msg : Bytes),
      (∃ out, c.encodeRequestSend P.byteOrder srcId targetId msg = .ok out) ↔
        13 + msg.length ≤ c.txBuffer.length) := by
  refine ⟨?_, ?_, ?_⟩
  · intro s data r hin
    exact MccServer.contained_iff P hin
  · intro c username
    exact MccClient.encodeRequestRegister_isOk_iff P.byteOrder c username
  · intro c srcId targetId msg
    exact MccClient.encodeRequestSend_isOk_iff P.byteOrder c srcId targetId msg

/-- A buffer of 13 bytes holds the refusal of a Recv request, a username of eight bytes, and a
message of none. -/
theorem writesContained_thirteen :
    MccServer.Contained .littleEndian ⟨.empty, List.replicate 13 0⟩ [3, 4, 0, 0, 0, 0, 0, 0, 0]
        (.recv 0) ∧
      (∃ out, (MccClient.mk (List.replicate 13 0) []).encodeRequestRegister .little
        (List.replicate 8 65) = .ok out) ∧
      ∃ out, (MccClient.mk (List.replicate 13 0) []).encodeRequestSend .little 0 1 [] = .ok out :=
  ⟨((writesContained_iff .littleEndian).1 _ _ (.recv 0) (by decide)).mpr (by decide),
    ((writesContained_iff .littleEndian).2.1 _ _).mpr (by decide),
    ((writesContained_iff .littleEndian).2.2 _ 0 1 []).mpr (by decide)⟩

/-- A server with a buffer of 16 bytes and one user, for whom two bytes are waiting. -/
def crowded : MccServer where
  db := [Database.Op.register [], .queue 0 ⟨0, [104, 105]⟩].foldl Database.Op.apply .empty
  txBuffer := List.replicate 16 0

/-- A Recv request, to a server whose response does not fit. -/
theorem not_contained_recv :
    crowded.db.Reachable ∧
      MccServer.requestIn .littleEndian [3, 4, 0, 0, 0, 0, 0, 0, 0] = .ok (.recv 0) ∧
      ¬MccServer.Contained .littleEndian crowded [3, 4, 0, 0, 0, 0, 0, 0, 0] (.recv 0) := by
  refine ⟨⟨_, rfl⟩, by decide, ?_⟩
  rintro ⟨n, s', hok, -⟩
  have hfault : crowded.parse .littleEndian [3, 4, 0, 0, 0, 0, 0, 0, 0]
      = .error .outOfBounds := by decide +kernel
  rw [hfault] at hok
  cases hok

end ChatApp
