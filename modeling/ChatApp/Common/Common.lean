import ChatApp.Lib.Bytes

set_option autoImplicit false

/-! # Types shared by client and server (`common/common.h`)

Packet types and the packed header of the byte protocol, and the data the server keeps for
each user. An `enum class` with a fixed underlying type holds any byte, so each enumeration
has one more constructor for the bytes that are no enumerator.
-/

namespace ChatApp

open Lib

/-- `length_t`. -/
abbrev Length := UInt32

/-- `user_id_t`. -/
abbrev UserId := UInt32

/-- The first byte of a packet. -/
inductive PacketType
  | kRequestRegister
  | kRequestUsers
  | kRequestSend
  | kRequestRecv
  | kRespRegister
  | kRespUsers
  | kRespSend
  | kRespRecv
  | unknown (b : UInt8)
  deriving Repr, DecidableEq

def PacketType.toByte : PacketType → UInt8
  | .kRequestRegister => 0
  | .kRequestUsers => 1
  | .kRequestSend => 2
  | .kRequestRecv => 3
  | .kRespRegister => 0xF0
  | .kRespUsers => 0xF1
  | .kRespSend => 0xF2
  | .kRespRecv => 0xF3
  | .unknown b => b

def PacketType.ofByte (b : UInt8) : PacketType :=
  if b = 0 then .kRequestRegister
  else if b = 1 then .kRequestUsers
  else if b = 2 then .kRequestSend
  else if b = 3 then .kRequestRecv
  else if b = 0xF0 then .kRespRegister
  else if b = 0xF1 then .kRespUsers
  else if b = 0xF2 then .kRespSend
  else if b = 0xF3 then .kRespRecv
  else .unknown b

@[simp] theorem PacketType.toByte_ofByte (b : UInt8) : (ofByte b).toByte = b := by
  unfold ofByte
  split_ifs <;> simp_all [toByte]

inductive SendStatus
  | kSuccess
  | kErrSrcId
  | kErrTrgtId
  | unknown (b : UInt8)
  deriving Repr, DecidableEq

/-- `static_cast<SendStatus>(b)`. -/
def SendStatus.ofByte (b : UInt8) : SendStatus :=
  if b = 0 then .kSuccess
  else if b = 1 then .kErrSrcId
  else if b = 2 then .kErrTrgtId
  else .unknown b

/-- The packed header in front of every payload. -/
structure Header where
  type : PacketType
  len : Length
  deriving Repr, DecidableEq

/-- `sizeof(Header)`. -/
def sizeofHeader : Nat := 5

/-- `sizeof(user_id_t)`. -/
def sizeofUserId : Nat := 4

/-- The bytes of a header in memory. -/
def Header.bytes (bo : ByteOrder) (h : Header) : Bytes := h.type.toByte :: bo.toBytes h.len

/-- `*reinterpret_cast<Header*>(data)`. -/
def Header.read (bo : ByteOrder) (data : Bytes) : Except Fault Header := do
  let raw ← readBytes data sizeofHeader
  let type ← read8 raw
  let len ← read32 bo (raw.drop 1)
  return ⟨.ofByte type, len⟩

@[simp] theorem Header.bytes_length (bo : ByteOrder) (h : Header) :
    (h.bytes bo).length = sizeofHeader := by
  simp [bytes, sizeofHeader]

theorem Header.read_of_le {bo : ByteOrder} {data : Bytes} (h : sizeofHeader ≤ data.length) :
    Header.read bo data
      = .ok ⟨.ofByte (data.headD 0), bo.ofBytes ((data.drop 1).take 4)⟩ := by
  cases data with
  | nil => simp [sizeofHeader] at h
  | cons b t =>
      simp only [sizeofHeader, List.length_cons] at h
      have hraw : (t.take 4).length = 4 := List.length_take_of_le (by omega)
      have htake : (b :: t).take sizeofHeader = b :: t.take 4 := rfl
      simp only [Header.read, readBytes_of_le (by simp [sizeofHeader]; omega : sizeofHeader
        ≤ (b :: t).length), ok_bind, htake, read8_cons, List.drop_one, List.tail_cons,
        read32_of_le (by omega : 4 ≤ (t.take 4).length), List.take_take, pure_eq_ok]
      rfl

theorem Header.read_of_lt {bo : ByteOrder} {data : Bytes} (h : data.length < sizeofHeader) :
    Header.read bo data = .error .outOfBounds := by
  simp only [Header.read, readBytes_of_lt h, error_bind]

/-- A header read where one was written; its type byte comes back as the enumerator it is. -/
theorem Header.read_bytes (bo : ByteOrder) (h : Header) (rest : Bytes) :
    Header.read bo (h.bytes bo ++ rest) = .ok ⟨.ofByte h.type.toByte, h.len⟩ := by
  rw [Header.read_of_le (by simp)]
  simp only [bytes, List.cons_append, List.headD_cons, List.drop_one, List.tail_cons,
    List.take_left' (bo.toBytes_length h.len), bo.ofBytes_toBytes]

/-- A user or a message in the payload of a response: an id, the length of a text, the text.
-/
def recordBytes (bo : ByteOrder) (r : UserId × Bytes) : Bytes :=
  bo.toBytes r.1 ++ (bo.toBytes (UInt32.ofNat r.2.length) ++ r.2)

@[simp] theorem recordBytes_length (bo : ByteOrder) (r : UserId × Bytes) :
    (recordBytes bo r).length = 8 + r.2.length := by
  simp [recordBytes]; omega

/-- A queued message. -/
structure Msg where
  senderId : UserId
  msg : Bytes
  deriving Repr, DecidableEq

/-- What the server keeps for a user. -/
structure UserMetadata where
  username : Bytes := []
  msgQ : List Msg := []
  deriving Repr, DecidableEq, Inhabited

/-- What a client asks of the server, in either protocol. -/
inductive Request
  | register (username : Bytes)
  | users (id : UserId)
  | send (sourceId targetId : UserId) (msg : Bytes)
  | recv (id : UserId)
  deriving Repr, DecidableEq

/-- The message of a Send request. -/
def Request.msg? : Request → Option Bytes
  | .send _ _ msg => some msg
  | _ => none

def Request.isRegister : Request → Bool
  | .register _ => true
  | _ => false

def kReqUsersPayloadLen : Length := 4

def kReqSendMinPayloadLen : Length := 8

def kReqRecvPayloadLen : Length := 4

end ChatApp
