import ChatApp.Common.Common
import ChatApp.Lib.UnorderedMap

set_option autoImplicit false

/-! # The byte-protocol client (`client/client.h`, `client/client.cpp`)

The four encoders, which write a request to `tx_buffer_`, and the four decoders, which read
a response from `rx_buffer_`. A decoder walks a pointer through the buffer and takes every
count and length from the packet; reading beyond the buffer is a fault.

The contracts: an encoder writes `requestBytes` to the front of `tx_buffer_`
(`encodeRequest_eq`), and the loop over the records of a response reads back what was
written as records (`readRecords_flatMap`).
-/

namespace ChatApp

open Lib

structure MccClient where
  txBuffer : Bytes
  rxBuffer : Bytes
  deriving Repr, DecidableEq

namespace MccClient

/-! ## Encoders -/

def encodeRequestRegister (bo : ByteOrder) (c : MccClient) (username : Bytes) :
    Except Fault (Nat × MccClient) := do
  let h : Header := ⟨.kRequestRegister, UInt32.ofNat username.length⟩
  let pDest : Dest := ⟨c.txBuffer, 0⟩
  let pDest ← pDest.memcpy (h.bytes bo)
  let pDest ← pDest.memcpy username
  return (sizeofHeader + username.length, { c with txBuffer := pDest.buf })

def encodeRequestUsers (bo : ByteOrder) (c : MccClient) (id : UserId) :
    Except Fault (Nat × MccClient) := do
  let h : Header := ⟨.kRequestUsers, kReqUsersPayloadLen⟩
  let pDest : Dest := ⟨c.txBuffer, 0⟩
  let pDest ← pDest.memcpy (h.bytes bo)
  let pDest ← pDest.memcpy (bo.toBytes id)
  return (sizeofHeader + kReqUsersPayloadLen.toNat, { c with txBuffer := pDest.buf })

def encodeRequestSend (bo : ByteOrder) (c : MccClient) (srcId targetId : UserId) (msg : Bytes) :
    Except Fault (Nat × MccClient) := do
  let h : Header := ⟨.kRequestSend, UInt32.ofNat (kReqSendMinPayloadLen.toNat + msg.length)⟩
  let pDest : Dest := ⟨c.txBuffer, 0⟩
  let pDest ← pDest.memcpy (h.bytes bo)
  let pDest ← pDest.memcpy (bo.toBytes srcId)
  let pDest ← pDest.memcpy (bo.toBytes targetId)
  let pDest ← pDest.memcpy msg
  return (sizeofHeader + kReqSendMinPayloadLen.toNat + msg.length,
    { c with txBuffer := pDest.buf })

def encodeRequestRecv (bo : ByteOrder) (c : MccClient) (id : UserId) :
    Except Fault (Nat × MccClient) := do
  let h : Header := ⟨.kRequestRecv, kReqRecvPayloadLen⟩
  let pDest : Dest := ⟨c.txBuffer, 0⟩
  let pDest ← pDest.memcpy (h.bytes bo)
  let pDest ← pDest.memcpy (bo.toBytes id)
  return (sizeofHeader + kReqRecvPayloadLen.toNat, { c with txBuffer := pDest.buf })

/-! ## Decoders -/

def validateRespHeader (bo : ByteOrder) (c : MccClient) (expectedType : PacketType) :
    Except Fault Bool := do
  let h ← Header.read bo c.rxBuffer
  return h.type = expectedType

/-- The result is what the decoder returns and the id it leaves in `id`. -/
def handleRespRegister (bo : ByteOrder) (c : MccClient) (id : UserId) :
    Except Fault (Bool × UserId) := do
  if !(← c.validateRespHeader bo .kRespRegister) then return (false, id)
  let data := c.rxBuffer.drop sizeofHeader
  let respValue ← read8 data
  let data := data.drop 1
  if respValue ≠ 0 then return (false, id)
  let id ← read32 bo data
  return (true, id)

/-- The loop over the `n` records a response claims: an id, a length, and that many bytes,
handed to `f`. -/
def readRecords {σ : Type} (bo : ByteOrder) (f : σ → UserId → Bytes → σ) :
    Nat → Bytes → σ → Except Fault σ
  | 0, _, acc => return acc
  | n + 1, payload, acc => do
      let id ← read32 bo payload
      let payload := payload.drop 4
      let len ← read32 bo payload
      let payload := payload.drop 4
      let text ← readBytes payload len.toNat
      let payload := payload.drop len.toNat
      readRecords bo f n payload (f acc id text)

def handleRespUsers (bo : ByteOrder) (c : MccClient) (nameToId : UnorderedMap Bytes UserId) :
    Except Fault (Bool × UnorderedMap Bytes UserId) := do
  if !(← c.validateRespHeader bo .kRespUsers) then return (false, nameToId)
  let payload := c.rxBuffer.drop sizeofHeader
  let respValue ← read8 payload
  let payload := payload.drop 1
  if respValue ≠ 0 then return (false, nameToId)
  let numUsers ← read32 bo payload
  let payload := payload.drop 4
  let nameToId ←
    readRecords bo (fun m currUserId username => m.insert username currUserId)
      numUsers.toNat payload ∅
  return (true, nameToId)

def handleRespSend (bo : ByteOrder) (c : MccClient) (stat : SendStatus) :
    Except Fault (Bool × SendStatus) := do
  if !(← c.validateRespHeader bo .kRespSend) then return (false, stat)
  let payload := c.rxBuffer.drop sizeofHeader
  let b ← read8 payload
  return (true, .ofByte b)

/-- A negative response value is only printed; the decoder reads on. -/
def handleRespRecv (bo : ByteOrder) (c : MccClient) (msgs : List Msg) :
    Except Fault (Bool × List Msg) := do
  if !(← c.validateRespHeader bo .kRespRecv) then return (false, msgs)
  let payload := c.rxBuffer.drop sizeofHeader
  let _respVal ← read8 payload
  let payload := payload.drop 1
  let numMessages ← read32 bo payload
  let payload := payload.drop 4
  let msgs ← readRecords bo (fun msgs id msg => msgs ++ [⟨id, msg⟩]) numMessages.toNat payload msgs
  return (true, msgs)

/-! ## Contracts of the encoders -/

/-- Write a request to the front of `tx_buffer_` and return its size. -/
def put (c : MccClient) (request : Bytes) : Except Fault (Nat × MccClient) := do
  let txBuffer ← writeFront c.txBuffer request
  return (request.length, { c with txBuffer := txBuffer })

theorem put_of_le {c : MccClient} {request : Bytes} (h : request.length ≤ c.txBuffer.length) :
    c.put request = .ok (request.length,
      { c with txBuffer := request ++ c.txBuffer.drop request.length }) := by
  simp only [put, writeFront_of_le h, ok_bind, pure_eq_ok]

theorem put_eq_memcpy (c : MccClient) (request : Bytes) :
    c.put request = (Dest.mk c.txBuffer 0).memcpy request >>= fun d =>
      .ok (request.length, { c with txBuffer := d.buf }) := by
  simp only [put, writeFront, bind_assoc, pure_eq_ok, ok_bind]

def registerBytes (bo : ByteOrder) (username : Bytes) : Bytes :=
  Header.bytes bo ⟨.kRequestRegister, UInt32.ofNat username.length⟩ ++ username

def usersBytes (bo : ByteOrder) (id : UserId) : Bytes :=
  Header.bytes bo ⟨.kRequestUsers, 4⟩ ++ bo.toBytes id

def sendBytes (bo : ByteOrder) (srcId targetId : UserId) (msg : Bytes) : Bytes :=
  Header.bytes bo ⟨.kRequestSend, UInt32.ofNat (8 + msg.length)⟩
    ++ (bo.toBytes srcId ++ (bo.toBytes targetId ++ msg))

def recvBytes (bo : ByteOrder) (id : UserId) : Bytes :=
  Header.bytes bo ⟨.kRequestRecv, 4⟩ ++ bo.toBytes id

section Encoders

variable (bo : ByteOrder) (c : MccClient)

theorem encodeRequestRegister_eq (username : Bytes) :
    c.encodeRequestRegister bo username = c.put (registerBytes bo username) := by
  rw [put_eq_memcpy]
  simp only [registerBytes, Dest.memcpy_append, bind_assoc, List.length_append,
    Header.bytes_length]
  rfl

theorem encodeRequestUsers_eq (id : UserId) :
    c.encodeRequestUsers bo id = c.put (usersBytes bo id) := by
  rw [put_eq_memcpy]
  simp only [usersBytes, Dest.memcpy_append, bind_assoc, List.length_append,
    Header.bytes_length, ByteOrder.toBytes_length]
  rfl

theorem encodeRequestSend_eq (srcId targetId : UserId) (msg : Bytes) :
    c.encodeRequestSend bo srcId targetId msg = c.put (sendBytes bo srcId targetId msg) := by
  have hlen : sizeofHeader + (4 + (4 + msg.length))
      = sizeofHeader + kReqSendMinPayloadLen.toNat + msg.length := by
    have hmin : kReqSendMinPayloadLen.toNat = 8 := rfl
    omega
  rw [put_eq_memcpy]
  simp only [sendBytes, Dest.memcpy_append, bind_assoc, List.length_append,
    Header.bytes_length, ByteOrder.toBytes_length, hlen]
  rfl

theorem encodeRequestRecv_eq (id : UserId) :
    c.encodeRequestRecv bo id = c.put (recvBytes bo id) := by
  rw [put_eq_memcpy]
  simp only [recvBytes, Dest.memcpy_append, bind_assoc, List.length_append,
    Header.bytes_length, ByteOrder.toBytes_length]
  rfl

end Encoders

/-! ## Contracts of the decoders -/

section Decoders

variable {bo : ByteOrder} {c : MccClient}

/-- The header of a response is what its encoder wrote. -/
theorem validateRespHeader_of_eq {type : PacketType} {len : Length} {payload : Bytes}
    (hrx : c.rxBuffer = Header.bytes bo ⟨type, len⟩ ++ payload) (expectedType : PacketType) :
    c.validateRespHeader bo expectedType
      = .ok (decide (PacketType.ofByte type.toByte = expectedType)) := by
  simp only [validateRespHeader, hrx, Header.read_bytes, ok_bind, pure_eq_ok]

/-- The payload lies behind the header. -/
theorem rxBuffer_drop {type : PacketType} {len : Length} {payload : Bytes}
    (hrx : c.rxBuffer = Header.bytes bo ⟨type, len⟩ ++ payload) :
    c.rxBuffer.drop sizeofHeader = payload := by
  rw [hrx, List.drop_left' (Header.bytes_length bo ⟨type, len⟩)]

theorem handleRespRegister_of_eq {len : Length} {id : UserId} {rest : Bytes}
    (hrx : c.rxBuffer = Header.bytes bo ⟨.kRespRegister, len⟩ ++ ([0] ++ (bo.toBytes id ++ rest)))
    (id₀ : UserId) : c.handleRespRegister bo id₀ = .ok (true, id) := by
  have htype : decide (PacketType.ofByte (PacketType.kRespRegister).toByte = .kRespRegister)
      = true := rfl
  simp only [handleRespRegister, validateRespHeader_of_eq hrx, rxBuffer_drop hrx, htype, ok_bind,
    Bool.not_true, Bool.false_eq_true, if_false, List.singleton_append, read8_cons,
    ne_eq, not_true_eq_false, List.drop_one, List.tail_cons, read32_toBytes, pure_eq_ok]

theorem handleRespSend_of_eq {len : Length} {b : UInt8} {rest : Bytes}
    (hrx : c.rxBuffer = Header.bytes bo ⟨.kRespSend, len⟩ ++ ([b] ++ rest)) (stat : SendStatus) :
    c.handleRespSend bo stat = .ok (true, .ofByte b) := by
  have htype : decide (PacketType.ofByte (PacketType.kRespSend).toByte = .kRespSend)
      = true := rfl
  simp only [handleRespSend, validateRespHeader_of_eq hrx, rxBuffer_drop hrx, htype, ok_bind,
    Bool.not_true, Bool.false_eq_true, if_false, List.singleton_append, read8_cons, pure_eq_ok]

/-- A Recv response, positive or negative: the records behind the count. -/
theorem handleRespRecv_of_eq {len : Length} {b : UInt8} {payload : Bytes}
    (hrx : c.rxBuffer = Header.bytes bo ⟨.kRespRecv, len⟩ ++ ([b] ++ payload))
    (msgs : List Msg) :
    c.handleRespRecv bo msgs = (read32 bo payload >>= fun numMessages =>
      readRecords bo (fun msgs id msg => msgs ++ [⟨id, msg⟩]) numMessages.toNat
        (payload.drop 4) msgs >>= fun msgs => .ok (true, msgs)) := by
  have htype : decide (PacketType.ofByte (PacketType.kRespRecv).toByte = .kRespRecv)
      = true := rfl
  simp only [handleRespRecv, validateRespHeader_of_eq hrx, rxBuffer_drop hrx, htype, ok_bind,
    Bool.not_true, Bool.false_eq_true, if_false, List.singleton_append, read8_cons,
    List.drop_one, List.tail_cons, pure_eq_ok]

/-- A negative Users response leaves the map as it is. -/
theorem handleRespUsers_of_negative {len : Length} {b : UInt8} {payload : Bytes} (hb : b ≠ 0)
    (hrx : c.rxBuffer = Header.bytes bo ⟨.kRespUsers, len⟩ ++ ([b] ++ payload))
    (nameToId : UnorderedMap Bytes UserId) :
    c.handleRespUsers bo nameToId = .ok (false, nameToId) := by
  have htype : decide (PacketType.ofByte (PacketType.kRespUsers).toByte = .kRespUsers)
      = true := rfl
  simp only [handleRespUsers, validateRespHeader_of_eq hrx, rxBuffer_drop hrx, htype, ok_bind,
    Bool.not_true, Bool.false_eq_true, if_false, List.singleton_append, read8_cons, ne_eq,
    hb, not_false_eq_true, if_true, pure_eq_ok]

/-- A positive Users response: the records behind the count make up the new map. -/
theorem handleRespUsers_of_positive {len : Length} {payload : Bytes}
    (hrx : c.rxBuffer = Header.bytes bo ⟨.kRespUsers, len⟩ ++ ([0] ++ payload))
    (nameToId : UnorderedMap Bytes UserId) :
    c.handleRespUsers bo nameToId = (read32 bo payload >>= fun numUsers =>
      readRecords bo (fun m currUserId username => m.insert username currUserId) numUsers.toNat
        (payload.drop 4) ∅ >>= fun nameToId => .ok (true, nameToId)) := by
  have htype : decide (PacketType.ofByte (PacketType.kRespUsers).toByte = .kRespUsers)
      = true := rfl
  simp only [handleRespUsers, validateRespHeader_of_eq hrx, rxBuffer_drop hrx, htype, ok_bind,
    Bool.not_true, Bool.false_eq_true, if_false, List.singleton_append, read8_cons, ne_eq,
    not_true_eq_false, List.drop_one, List.tail_cons, pure_eq_ok]

end Decoders

/-! ## The loop over the records -/

/-- `rs` is what the payload holds if it holds `n` records. -/
def RecordsIn (bo : ByteOrder) (n : Nat) (payload : Bytes) (rs : List (UserId × Bytes)) : Prop :=
  rs.length = n ∧ (∀ r ∈ rs, r.2.length < 2 ^ 32) ∧ rs.flatMap (recordBytes bo) <+: payload

/-- One round of the loop takes one record off the payload. -/
theorem readRecords_succ {σ : Type} (bo : ByteOrder) (f : σ → UserId → Bytes → σ) (n : Nat)
    {r : UserId × Bytes} (hr : r.2.length < 2 ^ 32) (rest : Bytes) (acc : σ) :
    readRecords bo f (n + 1) (recordBytes bo r ++ rest) acc
      = readRecords bo f n rest (f acc r.1 r.2) := by
  have hlen : (UInt32.ofNat r.2.length).toNat = r.2.length := by
    rw [UInt32.toNat_ofNat', Nat.mod_eq_of_lt hr]
  have hdrop (w : UInt32) (tail : Bytes) : (bo.toBytes w ++ tail).drop 4 = tail :=
    List.drop_left' (bo.toBytes_length w)
  simp only [readRecords, recordBytes, List.append_assoc, read32_toBytes, ok_bind, hdrop, hlen,
    readBytes_append rfl, List.drop_left]

/-- **The loop returns exactly on a payload that holds the records**, and has then handed
each of them to `f`. -/
theorem readRecords_eq_ok {σ : Type} (bo : ByteOrder) (f : σ → UserId → Bytes → σ) {n : Nat}
    {payload : Bytes} {acc out : σ} :
    readRecords bo f n payload acc = .ok out ↔
      ∃ rs, RecordsIn bo n payload rs ∧ rs.foldl (fun s r => f s r.1 r.2) acc = out := by
  induction n generalizing payload acc with
  | zero =>
      constructor
      · intro h
        exact ⟨[], ⟨rfl, by simp, List.nil_prefix⟩, Except.ok.inj h⟩
      · rintro ⟨rs, ⟨hlen, -, -⟩, hout⟩
        rw [List.length_eq_zero_iff.mp hlen] at hout
        exact congrArg Except.ok hout
  | succ n ih =>
      constructor
      · intro h
        obtain ⟨id, hid, h⟩ := bind_eq_ok.mp h
        obtain ⟨len, hlen, h⟩ := bind_eq_ok.mp h
        obtain ⟨text, htext, h⟩ := bind_eq_ok.mp h
        obtain ⟨p1, rfl⟩ := read32_eq_ok.mp hid
        rw [List.drop_left' (bo.toBytes_length id)] at hlen htext h
        obtain ⟨p2, rfl⟩ := read32_eq_ok.mp hlen
        rw [List.drop_left' (bo.toBytes_length len)] at htext h
        obtain ⟨htl, p3, rfl⟩ := readBytes_eq_ok.mp htext
        rw [List.drop_left' htl] at h
        obtain ⟨rs, ⟨hn, hrs, hpre⟩, hout⟩ := ih.mp h
        -- As many bytes as `len` says were copied, so the record's own length word is `len`.
        have hword : UInt32.ofNat text.length = len := by rw [htl, UInt32.ofNat_toNat]
        refine ⟨(id, text) :: rs, ⟨by simp [hn], ?_, ?_⟩, hout⟩
        · intro r hr
          rcases List.mem_cons.mp hr with rfl | hr
          · exact htl ▸ len.toNat_lt
          · exact hrs r hr
        · simp only [List.flatMap_cons, recordBytes, hword, List.append_assoc,
            List.prefix_append_right_inj]
          exact hpre
      · rintro ⟨rs, ⟨hlen, hrs, hpre⟩, hout⟩
        obtain ⟨r, rs, rfl⟩ := List.exists_cons_of_length_eq_add_one hlen
        obtain ⟨rest, rfl⟩ := hpre
        rw [List.flatMap_cons, List.append_assoc, readRecords_succ bo f n (hrs r (by simp))]
        refine ih.mpr ⟨rs, ⟨by simpa using hlen, fun x hx => hrs x (by simp [hx]), ?_⟩, hout⟩
        exact List.prefix_append _ _

/-- A count and the records it counts, whatever follows them, are read back. -/
theorem readRecords_flatMap {σ : Type} (bo : ByteOrder) (f : σ → UserId → Bytes → σ)
    {n : UInt32} {rs : List (UserId × Bytes)} (hn : n.toNat = rs.length)
    (hrs : ∀ r ∈ rs, r.2.length < 2 ^ 32) (rest : Bytes) (acc : σ) :
    (read32 bo (bo.toBytes n ++ (rs.flatMap (recordBytes bo) ++ rest)) >>= fun count =>
      readRecords bo f count.toNat
        ((bo.toBytes n ++ (rs.flatMap (recordBytes bo) ++ rest)).drop 4) acc)
      = .ok (rs.foldl (fun s r => f s r.1 r.2) acc) := by
  rw [read32_toBytes, ok_bind, List.drop_left' (bo.toBytes_length n)]
  exact (readRecords_eq_ok bo f).mpr ⟨rs, ⟨hn.symm, hrs, List.prefix_append _ _⟩, rfl⟩

end MccClient

end ChatApp
