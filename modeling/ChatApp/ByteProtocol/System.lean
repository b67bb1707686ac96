import ChatApp.ByteProtocol.Requests
import ChatApp.Lib.Run

set_option autoImplicit false

/-! # One server and its clients

The system the byte protocol makes up: a server, and any number of clients, each with its two
buffers. In a step one client encodes a request, the server parses the bytes sent, the first
bytes of `tx_buffer_` (as many as `parse` returned) arrive at the front of the client's
`rx_buffer_`, and the client decodes them.

`Net.step_eq` says what a step does when the buffers hold the packets: the database is the
reply's, and the client decodes the reply with, behind it, what its buffer held. For all
requests but one the decoder finds what the server put into the reply (`handleResp_reply`).
The exception is a Recv request under an id nobody holds: there the decoder goes on to read
a count and messages behind the six bytes of the negative response
(`handleResp_recv_unknown`).
-/

namespace ChatApp

open Lib MccServer

/-! ## Client -/

/-- What a decoder reported, and the value it left in its output parameter. -/
inductive Outcome
  | register (ok : Bool) (id : UserId)
  | users (ok : Bool) (nameToId : UnorderedMap Bytes UserId)
  | send (ok : Bool) (stat : SendStatus)
  | recv (ok : Bool) (msgs : List Msg)
  deriving DecidableEq

namespace MccClient

/-- The encoder of a request. -/
def encodeRequest (bo : ByteOrder) (c : MccClient) : Request → Except Fault (Nat × MccClient)
  | .register username => c.encodeRequestRegister bo username
  | .users id => c.encodeRequestUsers bo id
  | .send sourceId targetId msg => c.encodeRequestSend bo sourceId targetId msg
  | .recv id => c.encodeRequestRecv bo id

/-- The decoder of the response to a request. -/
def handleResp (bo : ByteOrder) (c : MccClient) : Request → Except Fault Outcome
  | .register _ => do
      let (ok, id) ← c.handleRespRegister bo 0
      return .register ok id
  | .users _ => do
      let (ok, nameToId) ← c.handleRespUsers bo ∅
      return .users ok nameToId
  | .send _ _ _ => do
      let (ok, stat) ← c.handleRespSend bo .kSuccess
      return .send ok stat
  | .recv _ => do
      let (ok, msgs) ← c.handleRespRecv bo []
      return .recv ok msgs

/-- The bytes of a request. -/
def requestBytes (bo : ByteOrder) : Request → Bytes
  | .register username => registerBytes bo username
  | .users id => usersBytes bo id
  | .send sourceId targetId msg => sendBytes bo sourceId targetId msg
  | .recv id => recvBytes bo id

theorem encodeRequest_eq (bo : ByteOrder) (c : MccClient) (r : Request) :
    c.encodeRequest bo r = c.put (requestBytes bo r) := by
  cases r with
  | register username => exact encodeRequestRegister_eq bo c username
  | users id => exact encodeRequestUsers_eq bo c id
  | send sourceId targetId msg => exact encodeRequestSend_eq bo c sourceId targetId msg
  | recv id => exact encodeRequestRecv_eq bo c id

end MccClient

/-! ## The system -/

structure Net (ι : Type) where
  server : MccServer
  clients : ι → MccClient

namespace Net

variable {ι : Type} [DecidableEq ι]

/-- Client `cmd.1` issues the request `cmd.2`. -/
def step (P : Platform) (net : Net ι) (cmd : ι × Request) :
    Except Fault (Net ι × Outcome) := do
  let (n, c) ← (net.clients cmd.1).encodeRequest P.byteOrder cmd.2
  let data ← readBytes c.txBuffer n
  let (m, server) ← net.server.parse P data
  let resp ← readBytes server.txBuffer m
  let rxBuffer ← writeFront c.rxBuffer resp
  let c : MccClient := { c with rxBuffer := rxBuffer }
  let outcome ← c.handleResp P.byteOrder cmd.2
  return (⟨server, Function.update net.clients cmd.1 c⟩, outcome)

/-- A request the protocol can express: a payload below `2 ^ 32` bytes, and a message that
is not empty. -/
def Sendable (bo : ByteOrder) (r : Request) : Prop :=
  (MccClient.requestBytes bo r).length < sizeofHeader + 2 ^ 32 ∧
    ∀ msg ∈ r.msg?, msg ≠ []

instance (bo : ByteOrder) (r : Request) : Decidable (Sendable bo r) :=
  inferInstanceAs (Decidable (_ ∧ _))

/-- The request is one the protocol can express, the response is below `2 ^ 32` bytes, and
the buffers hold the packets. -/
structure Fits (P : Platform) (net : Net ι) (cmd : ι × Request) : Prop where
  sendable : Sendable P.byteOrder cmd.2
  request_le : (MccClient.requestBytes P.byteOrder cmd.2).length
    ≤ (net.clients cmd.1).txBuffer.length
  response_lt : (reply P net.server.db cmd.2).bytes.length < 2 ^ 32
  response_le_tx : (reply P net.server.db cmd.2).ret ≤ net.server.txBuffer.length
  response_le_rx : (reply P net.server.db cmd.2).ret ≤ (net.clients cmd.1).rxBuffer.length

instance (P : Platform) (net : Net ι) (cmd : ι × Request) : Decidable (Fits P net cmd) :=
  decidable_of_iff
    (Sendable P.byteOrder cmd.2 ∧
      (MccClient.requestBytes P.byteOrder cmd.2).length
        ≤ (net.clients cmd.1).txBuffer.length ∧
      (reply P net.server.db cmd.2).bytes.length < 2 ^ 32 ∧
      (reply P net.server.db cmd.2).ret ≤ net.server.txBuffer.length ∧
      (reply P net.server.db cmd.2).ret ≤ (net.clients cmd.1).rxBuffer.length)
    ⟨fun ⟨h₁, h₂, h₃, h₄, h₅⟩ => ⟨h₁, h₂, h₃, h₄, h₅⟩,
      fun ⟨h₁, h₂, h₃, h₄, h₅⟩ => ⟨h₁, h₂, h₃, h₄, h₅⟩⟩

omit [DecidableEq ι] in
/-- The server finds the request a client has sent. -/
theorem requestIn_requestBytes (P : Platform) {r : Request} (h : Sendable P.byteOrder r) :
    requestIn P (MccClient.requestBytes P.byteOrder r) = .ok r := by
  rw [← List.append_nil (MccClient.requestBytes P.byteOrder r)]
  obtain ⟨hlen, hne⟩ := h
  cases r with
  | register username =>
      refine requestIn_registerBytes P ?_ []
      simpa [MccClient.requestBytes, MccClient.registerBytes] using hlen
  | users id => exact requestIn_usersBytes P id []
  | send sourceId targetId msg =>
      refine requestIn_sendBytes P sourceId targetId (hne msg rfl) ?_ []
      simp [MccClient.requestBytes, MccClient.sendBytes] at hlen
      omega
  | recv id => exact requestIn_recvBytes P id []

end Net

/-! ## The reply at the client -/

namespace MccServer

variable (P : Platform)

/-- The count returned for a reply is at least the number of its bytes. -/
theorem reply_length_le_ret {db : Database} {r : Request}
    (h : (reply P db r).bytes.length < 2 ^ 32) :
    (reply P db r).bytes.length ≤ (reply P db r).ret := by
  -- Users and Recv put the length of the whole packet into the header and return a header
  -- more: the count is over by the header's five bytes.
  have hover {len : Length} {payload : Bytes}
      (hlen : len = UInt32.ofNat (sizeofHeader + payload.length))
      (hlt : (Header.bytes P.byteOrder ⟨.kRespUsers, len⟩ ++ payload).length < 2 ^ 32) :
      (Header.bytes P.byteOrder ⟨.kRespUsers, len⟩ ++ payload).length
        ≤ sizeofHeader + len.toNat := by
    subst hlen
    rw [List.length_append, Header.bytes_length] at hlt ⊢
    rw [UInt32.toNat_ofNat', Nat.mod_eq_of_lt hlt]
    omega
  have hneg (type : PacketType) :
      (negativeReply P db type).bytes.length ≤ (negativeReply P db type).ret := by
    simp [negativeReply]
  cases r with
  | register username => simp [reply, registerReply]
  | send sourceId targetId msg => simp [reply, sendReply]
  | users id =>
      simp only [reply, usersReply] at h ⊢
      split_ifs at h ⊢ with hex hone
      · exact hneg _
      · simp
      · exact hover rfl h
  | recv id =>
      simp only [reply, recvReply] at h ⊢
      split_ifs at h ⊢ with hex
      · exact hneg _
      · simpa using hover rfl (by simpa using h)

/-- What the client is to learn from the reply to a request. -/
def answer (db : Database) : Request → Outcome
  | .register _ => .register true db.nextId
  | .users id =>
      if db.userExists id then
        .users true ((otherUsers P db id).foldl (fun m it => m.insert it.2.username it.1) ∅)
      else .users false ∅
  | .send sourceId targetId msg => .send true (.ofByte (sendEffect db sourceId targetId msg).1)
  | .recv id => .recv true (db.queueOf id)

/-- The messages in a database are shorter than a length field can express. -/
def ShortMsgs (db : Database) : Prop := ∀ id, ∀ m ∈ db.queueOf id, m.msg.length < 2 ^ 32

/-- Fewer records than bytes. -/
theorem length_le_flatMap_recordBytes (rs : List (UserId × Bytes)) :
    rs.length ≤ (rs.flatMap (recordBytes P.byteOrder)).length := by
  induction rs with
  | nil => simp
  | cons r rs ih =>
      rw [List.flatMap_cons, List.length_append, List.length_cons, recordBytes_length]
      omega

/-- No record's text is longer than all records. -/
theorem text_length_le_flatMap_recordBytes {rs : List (UserId × Bytes)} {r : UserId × Bytes}
    (hr : r ∈ rs) : r.2.length ≤ (rs.flatMap (recordBytes P.byteOrder)).length := by
  obtain ⟨l, l', rfl⟩ := List.append_of_mem hr
  rw [List.flatMap_append, List.flatMap_cons, List.length_append, List.length_append,
    recordBytes_length]
  omega

theorem flatMap_userRecord (its : List (UserId × UserMetadata)) :
    its.flatMap (userRecord P)
      = (its.map (fun it => (it.1, it.2.username))).flatMap (recordBytes P.byteOrder) := by
  rw [List.flatMap_map]
  rfl

/-- A message as its record has it: the text is cut to the length the record can express. -/
def cutMsg (m : Msg) : Msg := { m with msg := m.msg.take (UInt32.ofNat m.msg.length).toNat }

theorem cutMsg_length (m : Msg) :
    (cutMsg m).msg.length = (UInt32.ofNat m.msg.length).toNat := by
  refine List.length_take_of_le ?_
  rw [UInt32.toNat_ofNat']
  exact Nat.mod_le _ _

theorem cutMsg_of_lt {m : Msg} (h : m.msg.length < 2 ^ 32) : cutMsg m = m := by
  rw [cutMsg, UInt32.toNat_ofNat', Nat.mod_eq_of_lt h, List.take_length]

theorem flatMap_msgRecord_cut (q : List Msg) :
    q.flatMap (msgRecord P)
      = (q.map (fun m => (m.senderId, (cutMsg m).msg))).flatMap (recordBytes P.byteOrder) := by
  rw [List.flatMap_map]
  refine List.flatMap_congr fun m _ => ?_
  rw [msgRecord, recordBytes, cutMsg_length, UInt32.ofNat_toNat]
  rfl

theorem flatMap_msgRecord {q : List Msg} (hq : ∀ m ∈ q, m.msg.length < 2 ^ 32) :
    q.flatMap (msgRecord P)
      = (q.map (fun m => (m.senderId, m.msg))).flatMap (recordBytes P.byteOrder) := by
  rw [flatMap_msgRecord_cut]
  refine congrArg (List.flatMap _) (List.map_congr_left fun m hm => ?_)
  rw [cutMsg_of_lt (hq m hm)]

theorem text_length_of_queue {q : List Msg} (hq : ∀ m ∈ q, m.msg.length < 2 ^ 32) :
    ∀ r ∈ q.map (fun m => (m.senderId, m.msg)), r.2.length < 2 ^ 32 := by
  intro r hr
  obtain ⟨m, hm, rfl⟩ := List.mem_map.mp hr
  exact hq m hm

/-- The records of a response, handed on one by one, make up the list of them. -/
theorem foldl_append_map {α β : Type} (f : α → β) (l : List α) (acc : List β) :
    l.foldl (fun out a => out ++ [f a]) acc = acc ++ l.map f := by
  rw [List.foldl_append_eq_append, ← List.flatMap_def, ← List.map_eq_flatMap]

/-- There is one user more than there are others. -/
theorem otherUsers_length {db : Database} {id : UserId} (hex : db.userExists id = true) :
    (otherUsers P db id).length + 1 = db.userMap.size := by
  obtain ⟨u, hu⟩ := (db.userExists_iff id).mp hex
  exact P.iter.order_filter_ne_length db.userMap
    ((UnorderedMap.mem_iff_getElem? _ _).mpr ⟨u, hu⟩)

/-- The count in a Users response is the number of its records. -/
theorem getNumUsers_sub_one_toNat {db : Database} {id : UserId} (hex : db.userExists id = true) :
    (db.getNumUsers - 1).toNat = (otherUsers P db id).length := by
  have hlen := otherUsers_length P hex
  have hsize := UnorderedMap.size_le db.userMap
  have hone : UInt32.ofNat 1 = 1 := rfl
  rw [Database.getNumUsers, ← hlen, UInt32.ofNat_add, hone, UInt32.add_sub_cancel,
    UInt32.toNat_ofNat', Nat.mod_eq_of_lt (by omega)]

/-- On both positive paths the Users response is a header and the whole payload. -/
theorem exists_usersReply_bytes {db : Database} {id : UserId} (hex : db.userExists id = true) :
    ∃ len, (usersReply P db id).bytes
      = Header.bytes P.byteOrder ⟨.kRespUsers, len⟩ ++ usersPayload P db id := by
  by_cases hone : db.getNumUsers - 1 = 0
  · have hnone : otherUsers P db id = [] := by
      have hlen := getNumUsers_sub_one_toNat P hex
      rw [hone] at hlen
      exact List.length_eq_zero_iff.mp hlen.symm
    exact ⟨5, by simp [usersReply, hex, hone, usersPayload, hnone]⟩
  · exact ⟨_, by
      simp only [usersReply, hex, Bool.not_true, Bool.false_eq_true, if_false, if_neg hone]; rfl⟩

variable {P} {c : MccClient} {db : Database} {rest : Bytes}

/-- The ids and names in the records of a Users response. -/
def listedUsers (P : Platform) (db : Database) (id : UserId) : List (UserId × Bytes) :=
  (otherUsers P db id).map (fun it => (it.1, it.2.username))

/-- The count in a Users response is the number of the ids and names behind it. -/
theorem listedUsers_length {id : UserId} (hex : db.userExists id = true) :
    (db.getNumUsers - 1).toNat = (listedUsers P db id).length := by
  rw [getNumUsers_sub_one_toNat P hex, listedUsers, List.length_map]

/-- The records of a Users response are those of the ids and names. -/
theorem flatMap_otherUsers (P : Platform) (db : Database) (id : UserId) :
    (otherUsers P db id).flatMap (userRecord P)
      = (listedUsers P db id).flatMap (recordBytes P.byteOrder) := flatMap_userRecord P _

/-- A positive Users response is read back if every name fits its length field. -/
theorem handleRespUsers_usersReply {id : UserId} (hex : db.userExists id = true)
    (hnames : ∀ r ∈ listedUsers P db id, r.2.length < 2 ^ 32)
    (hrx : c.rxBuffer = (usersReply P db id).bytes ++ rest)
    (nameToId : UnorderedMap Bytes UserId) :
    c.handleRespUsers P.byteOrder nameToId
      = .ok (true, (listedUsers P db id).foldl (fun m r => m.insert r.2 r.1) ∅) := by
  rcases exists_usersReply_bytes P hex with ⟨len, hbytes⟩
  have hrecs := flatMap_otherUsers P db id
  have hn := listedUsers_length (P := P) hex
  rw [hbytes, usersPayload, hrecs] at hrx
  simp only [List.append_assoc] at hrx
  rw [MccClient.handleRespUsers_of_positive hrx, ← bind_assoc,
    MccClient.readRecords_flatMap P.byteOrder _ hn hnames rest]
  rfl

/-- A negative one leaves the map as it is. -/
theorem handleRespUsers_usersReply_unknown {id : UserId} (hex : db.userExists id = false)
    (hrx : c.rxBuffer = (usersReply P db id).bytes ++ rest)
    (nameToId : UnorderedMap Bytes UserId) :
    c.handleRespUsers P.byteOrder nameToId = .ok (false, nameToId) := by
  rw [usersReply, if_pos (by simpa using hex), negativeReply, List.append_assoc] at hrx
  exact MccClient.handleRespUsers_of_negative (by decide) hrx nameToId

theorem handleResp_users {id : UserId} (hlt : (usersReply P db id).bytes.length < 2 ^ 32)
    (hrx : c.rxBuffer = (usersReply P db id).bytes ++ rest) :
    c.handleResp P.byteOrder (.users id) = .ok (answer P db (.users id)) := by
  simp only [answer, MccClient.handleResp]
  by_cases hex : db.userExists id = true
  · have hnames : ∀ r ∈ listedUsers P db id, r.2.length < 2 ^ 32 := by
      intro r hr
      have hle := text_length_le_flatMap_recordBytes P hr
      rcases exists_usersReply_bytes P hex with ⟨len, hbytes⟩
      rw [hbytes, usersPayload, flatMap_userRecord] at hlt
      simp only [List.length_append] at hlt
      unfold listedUsers at hle
      omega
    rw [if_pos hex, handleRespUsers_usersReply hex hnames hrx, listedUsers, List.foldl_map]
    rfl
  · simp only [Bool.not_eq_true] at hex
    rw [if_neg (by simp [hex]), handleRespUsers_usersReply_unknown hex hrx]
    rfl

/-- A positive Recv response is read back, its texts as the records have them. -/
theorem handleResp_recv_cut {id : UserId} (hex : db.userExists id = true)
    (hlt : (recvReply P db id).bytes.length < 2 ^ 32)
    (hrx : c.rxBuffer = (recvReply P db id).bytes ++ rest) :
    c.handleResp P.byteOrder (.recv id) = .ok (.recv true ((db.queueOf id).map cutMsg)) := by
  have hrecs := flatMap_msgRecord_cut P (db.queueOf id)
  -- The count of messages does not wrap round, since every record has bytes of its own.
  have hn : (UInt32.ofNat (db.queueOf id).length).toNat
      = ((db.queueOf id).map (fun m => (m.senderId, (cutMsg m).msg))).length := by
    have hle := length_le_flatMap_recordBytes P
      ((db.queueOf id).map (fun m => (m.senderId, (cutMsg m).msg)))
    simp only [recvReply, hex, Bool.not_true, Bool.false_eq_true, if_false, recvPayload, hrecs,
      List.length_append] at hlt
    rw [List.length_map] at hle
    rw [UInt32.toNat_ofNat', List.length_map, Nat.mod_eq_of_lt (by omega)]
  have htexts : ∀ r ∈ (db.queueOf id).map (fun m => (m.senderId, (cutMsg m).msg)),
      r.2.length < 2 ^ 32 := by
    intro r hr
    obtain ⟨m, -, rfl⟩ := List.mem_map.mp hr
    rw [cutMsg_length]
    exact (UInt32.ofNat m.msg.length).toNat_lt
  simp only [recvReply, hex, Bool.not_true, Bool.false_eq_true, if_false, recvPayload, hrecs,
    List.append_assoc] at hrx
  rw [MccClient.handleResp, MccClient.handleRespRecv_of_eq hrx, ← bind_assoc,
    MccClient.readRecords_flatMap P.byteOrder _ hn htexts rest, List.foldl_map,
    foldl_append_map (fun m : Msg => (⟨m.senderId, (cutMsg m).msg⟩ : Msg))]
  rfl

theorem handleResp_recv {id : UserId} (hex : db.userExists id = true) (hmsgs : ShortMsgs db)
    (hlt : (recvReply P db id).bytes.length < 2 ^ 32)
    (hrx : c.rxBuffer = (recvReply P db id).bytes ++ rest) :
    c.handleResp P.byteOrder (.recv id) = .ok (answer P db (.recv id)) := by
  have hcut : (db.queueOf id).map cutMsg = db.queueOf id :=
    (List.map_congr_left fun m hm => cutMsg_of_lt (hmsgs id m hm)).trans (List.map_id' _)
  rw [handleResp_recv_cut hex hlt hrx, hcut, answer]

/-- **The reply is understood**: behind the reply the buffer may hold anything. -/
theorem handleResp_reply {r : Request} (hmsgs : ShortMsgs db)
    (hlt : (reply P db r).bytes.length < 2 ^ 32) (hrx : c.rxBuffer = (reply P db r).bytes ++ rest)
    (hknown : ∀ id, r = .recv id → db.userExists id = true) :
    c.handleResp P.byteOrder r = .ok (answer P db r) := by
  cases r with
  | register username =>
      simp only [reply, registerReply, List.append_assoc] at hrx
      rw [MccClient.handleResp, MccClient.handleRespRegister_of_eq hrx]
      rfl
  | users id => exact handleResp_users hlt hrx
  | send sourceId targetId msg =>
      simp only [reply, sendReply, List.append_assoc] at hrx
      rw [MccClient.handleResp, MccClient.handleRespSend_of_eq hrx]
      rfl
  | recv id => exact handleResp_recv (hknown id rfl) hmsgs hlt hrx

/-- The negative response to a Recv request: the decoder reads a count and messages behind
it. -/
theorem handleResp_recv_unknown {id : UserId} (hex : db.userExists id = false)
    (hrx : c.rxBuffer = (recvReply P db id).bytes ++ rest) :
    c.handleResp P.byteOrder (.recv id)
      = (read32 P.byteOrder rest >>= fun numMessages =>
          MccClient.readRecords P.byteOrder (fun msgs id msg => msgs ++ [⟨id, msg⟩])
            numMessages.toNat (rest.drop 4) [] >>= fun msgs => .ok (.recv true msgs)) := by
  rw [recvReply, if_pos (by simpa using hex), negativeReply, List.append_assoc] at hrx
  rw [MccClient.handleResp, MccClient.handleRespRecv_of_eq hrx, bind_assoc]
  congr 1
  funext n
  rw [bind_assoc]
  rfl

end MccServer

/-! ## One step of the system -/

namespace Net

variable {ι : Type} [DecidableEq ι]

/-- The client that issued the request, once the response has arrived. -/
def received (P : Platform) (net : Net ι) (cmd : ι × Request) : MccClient :=
  let c := net.clients cmd.1
  let request := MccClient.requestBytes P.byteOrder cmd.2
  let r := reply P net.server.db cmd.2
  { txBuffer := request ++ c.txBuffer.drop request.length
    rxBuffer := (r.bytes ++ net.server.txBuffer.drop r.bytes.length).take r.ret
      ++ c.rxBuffer.drop r.ret }

/-- The system once the response has arrived. -/
def after (P : Platform) (net : Net ι) (cmd : ι × Request) : Net ι :=
  let r := reply P net.server.db cmd.2
  { server := ⟨r.db, r.bytes ++ net.server.txBuffer.drop r.bytes.length⟩
    clients := Function.update net.clients cmd.1 (received P net cmd) }

variable {P : Platform} {net : Net ι} {cmd : ι × Request}

/-- **What a step does**: the server replies, and the client decodes what it received. -/
theorem step_eq (h : Fits P net cmd) :
    net.step P cmd = (received P net cmd).handleResp P.byteOrder cmd.2 >>= fun outcome =>
      .ok (after P net cmd, outcome) := by
  have hle := reply_length_le_ret P h.response_lt
  have htx : (reply P net.server.db cmd.2).bytes.length ≤ net.server.txBuffer.length :=
    hle.trans h.response_le_tx
  have hresp : (reply P net.server.db cmd.2).ret
      ≤ ((reply P net.server.db cmd.2).bytes ++ net.server.txBuffer.drop
          (reply P net.server.db cmd.2).bytes.length).length := by
    have hret := h.response_le_tx
    rw [List.length_append, List.length_drop]
    omega
  have hrx : (((reply P net.server.db cmd.2).bytes ++ net.server.txBuffer.drop
      (reply P net.server.db cmd.2).bytes.length).take (reply P net.server.db cmd.2).ret).length
      = (reply P net.server.db cmd.2).ret := List.length_take_of_le hresp
  -- Request, parser, response, receive buffer: each copy fits, so none of them faults.
  rw [step, MccClient.encodeRequest_eq, MccClient.put_of_le h.request_le, ok_bind]
  simp only [readBytes_append rfl, ok_bind, parse_eq, requestIn_requestBytes P h.sendable,
    respond_of_le htx, readBytes_of_le hresp]
  rw [writeFront_of_le (by rw [hrx]; exact h.response_le_rx), ok_bind, hrx]
  rfl

omit [DecidableEq ι] in
/-- The response stands at the front of the client's receive buffer. -/
theorem exists_received_rxBuffer (h : Fits P net cmd) :
    ∃ rest, (received P net cmd).rxBuffer = (reply P net.server.db cmd.2).bytes ++ rest := by
  rw [received]
  simp only [List.take_append, List.take_of_length_le (reply_length_le_ret P h.response_lt),
    List.append_assoc]
  exact ⟨_, rfl⟩

omit [DecidableEq ι] in
/-- A response whose length was counted right has behind it what the client's buffer held. -/
theorem received_rxBuffer (P : Platform) (net : Net ι) (cmd : ι × Request)
    (h : (reply P net.server.db cmd.2).ret
      = (reply P net.server.db cmd.2).bytes.length) :
    (received P net cmd).rxBuffer = (reply P net.server.db cmd.2).bytes
      ++ (net.clients cmd.1).rxBuffer.drop (reply P net.server.db cmd.2).bytes.length := by
  simp only [received, h, List.take_left]

end Net

end ChatApp
