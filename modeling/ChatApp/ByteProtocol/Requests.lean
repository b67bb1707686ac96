import ChatApp.Client.MccClient
import ChatApp.Server.MccServer

set_option autoImplicit false

/-! # Requests between the two ends of the byte protocol

The server reads back the request the client encoded, whatever follows it in the received
bytes (`requestIn_registerBytes` and its siblings); conversely a packet in which the server
finds a Users or Recv request starts with the client's encoding of it.
-/

namespace ChatApp

open Lib

/-- The header read at the front of a block is what the block starts with. -/
theorem Header.bytes_prefix {bo : ByteOrder} {data : Bytes} {h : Header}
    (hread : Header.read bo data = .ok h) : h.bytes bo <+: data := by
  have hle : sizeofHeader ≤ data.length := by
    by_contra hlt
    rw [Header.read_of_lt (Nat.not_le.mp hlt)] at hread
    cases hread
  rw [Header.read_of_le hle, Except.ok.injEq] at hread
  subst hread
  cases data with
  | nil => simp [sizeofHeader] at hle
  | cons b t =>
      have ht : (t.take 4).length = 4 :=
        List.length_take_of_le (by simp [sizeofHeader] at hle; omega)
      simp only [Header.bytes, List.headD_cons, PacketType.toByte_ofByte, List.drop_one,
        List.tail_cons, bo.toBytes_ofBytes ht, List.prefix_cons_inj]
      exact List.take_prefix 4 t

namespace MccServer

open MccClient

variable (P : Platform)

/-- What `requestIn` does on a packet that starts with a header of an enumerated type. -/
theorem requestIn_header (type : PacketType) (len : Length) (payload : Bytes)
    (htype : PacketType.ofByte type.toByte = type) :
    Header.read P.byteOrder (Header.bytes P.byteOrder ⟨type, len⟩ ++ payload) = .ok ⟨type, len⟩ ∧
      (Header.bytes P.byteOrder ⟨type, len⟩ ++ payload).drop sizeofHeader = payload := by
  refine ⟨?_, List.drop_left' (Header.bytes_length _ _)⟩
  rw [Header.read_bytes, htype]

/-! ## What the client encodes is read back -/

theorem requestIn_registerBytes {username : Bytes} (h : username.length < 2 ^ 32)
    (rest : Bytes) :
    requestIn P (registerBytes P.byteOrder username ++ rest) = .ok (.register username) := by
  obtain ⟨hhdr, hdrop⟩ := requestIn_header P .kRequestRegister (UInt32.ofNat username.length)
    (username ++ rest) rfl
  have hlen : (UInt32.ofNat username.length).toNat = username.length := by
    rw [UInt32.toNat_ofNat', Nat.mod_eq_of_lt h]
  rw [registerBytes, List.append_assoc]
  simp only [requestIn, hhdr, ok_bind, hdrop, hlen, readBytes_append rfl, pure_eq_ok]

theorem requestIn_usersBytes (id : UserId) (rest : Bytes) :
    requestIn P (usersBytes P.byteOrder id ++ rest) = .ok (.users id) := by
  obtain ⟨hhdr, hdrop⟩ := requestIn_header P .kRequestUsers 4
    (P.byteOrder.toBytes id ++ rest) rfl
  rw [usersBytes, List.append_assoc]
  simp only [requestIn, hhdr, ok_bind, hdrop, read32_toBytes, beq_self_eq_true,
    assertThat_true, pure_eq_ok]

theorem requestIn_recvBytes (id : UserId) (rest : Bytes) :
    requestIn P (recvBytes P.byteOrder id ++ rest) = .ok (.recv id) := by
  obtain ⟨hhdr, hdrop⟩ := requestIn_header P .kRequestRecv 4
    (P.byteOrder.toBytes id ++ rest) rfl
  rw [recvBytes, List.append_assoc]
  simp only [requestIn, hhdr, ok_bind, hdrop, read32_toBytes, beq_self_eq_true,
    assertThat_true, pure_eq_ok]

theorem requestIn_sendBytes (srcId targetId : UserId) {msg : Bytes} (hne : msg ≠ [])
    (h : 8 + msg.length < 2 ^ 32) (rest : Bytes) :
    requestIn P (sendBytes P.byteOrder srcId targetId msg ++ rest)
      = .ok (.send srcId targetId msg) := by
  obtain ⟨hhdr, hdrop⟩ := requestIn_header P .kRequestSend (UInt32.ofNat (8 + msg.length))
    (P.byteOrder.toBytes srcId ++ (P.byteOrder.toBytes targetId ++ (msg ++ rest))) rfl
  have hlen : (UInt32.ofNat (8 + msg.length)).toNat = 8 + msg.length := by
    rw [UInt32.toNat_ofNat', Nat.mod_eq_of_lt h]
  have hpos : 8 < 8 + msg.length := by
    have hmsg := List.length_pos_of_ne_nil hne
    omega
  have hdrop4 (w : UInt32) (tail : Bytes) : (P.byteOrder.toBytes w ++ tail).drop 4 = tail :=
    List.drop_left' (P.byteOrder.toBytes_length w)
  have hdrop8 (w w' : UInt32) (tail : Bytes) :
      (P.byteOrder.toBytes w ++ (P.byteOrder.toBytes w' ++ tail)).drop 8 = tail := by
    rw [show (8 : Nat) = 4 + 4 from rfl, ← List.drop_drop, hdrop4, hdrop4]
  rw [sendBytes, List.append_assoc, List.append_assoc, List.append_assoc]
  simp only [requestIn, hhdr, ok_bind, hdrop, hlen, decide_eq_true hpos, assertThat_true,
    read32_toBytes, hdrop4, hdrop8, Nat.add_sub_cancel_left, readBytes_append rfl, pure_eq_ok]

/-! ## What the server finds was encoded -/

/-- The packet behind a header of a given type, as `requestIn` splits it. -/
theorem exists_header {data : Bytes} {r : Request} (h : requestIn P data = .ok r) :
    ∃ hdr payload, Header.read P.byteOrder data = .ok hdr ∧ payload = data.drop sizeofHeader ∧
      data = hdr.bytes P.byteOrder ++ payload := by
  obtain ⟨hdr, hread, -⟩ := bind_eq_ok.mp h
  obtain ⟨payload, rfl⟩ := Header.bytes_prefix hread
  exact ⟨hdr, payload, hread, (List.drop_left' (hdr.bytes_length _)).symm, rfl⟩

/-- A request that is an id alone: the length is that of an id, and the payload starts with
it. -/
theorem id_prefix {f : UserId → Request} (hf : Function.Injective f) {len : Length}
    {payload : Bytes} {id : UserId}
    (h : (assertThat (len == 4) >>= fun _ => read32 P.byteOrder payload >>= fun id =>
      (pure (f id) : Except Fault Request)) = .ok (f id)) :
    len = 4 ∧ P.byteOrder.toBytes id <+: payload := by
  obtain ⟨u, hlen, h⟩ := bind_eq_ok.mp h
  obtain ⟨id', hid, h⟩ := bind_eq_ok.mp h
  obtain rfl : id' = id := hf (Except.ok.inj h)
  refine ⟨?_, read32_eq_ok.mp hid⟩
  by_contra hne
  simp [beq_eq_false_iff_ne.mpr hne] at hlen

theorem usersBytes_prefix {data : Bytes} {id : UserId} (h : requestIn P data = .ok (.users id)) :
    usersBytes P.byteOrder id <+: data := by
  obtain ⟨⟨type, len⟩, payload, hread, hpay, rfl⟩ := exists_header P h
  simp only [requestIn, hread, ok_bind, ← hpay] at h
  cases type with
  | kRequestUsers =>
      obtain ⟨rfl, hid⟩ := id_prefix P (fun _ _ => Request.users.inj) h
      rw [usersBytes, List.prefix_append_right_inj]
      exact hid
  | _ => simp [bind_eq_ok] at h

theorem recvBytes_prefix {data : Bytes} {id : UserId} (h : requestIn P data = .ok (.recv id)) :
    recvBytes P.byteOrder id <+: data := by
  obtain ⟨⟨type, len⟩, payload, hread, hpay, rfl⟩ := exists_header P h
  simp only [requestIn, hread, ok_bind, ← hpay] at h
  cases type with
  | kRequestRecv =>
      obtain ⟨rfl, hid⟩ := id_prefix P (fun _ _ => Request.recv.inj) h
      rw [recvBytes, List.prefix_append_right_inj]
      exact hid
  | _ => simp [bind_eq_ok] at h

/-! ## Acceptance -/

/-- `parse` comes back with a response, given a large enough transmit buffer: it neither
reads beyond the packet nor fails an assertion. -/
def Accepts (P : Platform) (db : Database) (data : Bytes) : Prop :=
  ∃ n, ∀ txBuffer : Bytes, n ≤ txBuffer.length → ∃ out, parse P ⟨db, txBuffer⟩ data = .ok out

theorem accepts_iff_requestIn (db : Database) (data : Bytes) :
    Accepts P db data ↔ ∃ r, requestIn P data = .ok r := by
  constructor
  · rintro ⟨n, hn⟩
    obtain ⟨out, hout⟩ := hn (List.replicate n 0) (by simp)
    rw [parse_eq] at hout
    obtain ⟨r, hr, -⟩ := bind_eq_ok.mp hout
    exact ⟨r, hr⟩
  · rintro ⟨r, hr⟩
    refine ⟨(reply P db r).bytes.length, fun txBuffer hle => ?_⟩
    exact ⟨_, by rw [parse_eq, hr, ok_bind, respond_of_le hle]⟩

end MccServer

end ChatApp
