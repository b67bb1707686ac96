import ChatApp.Common.Packet
import ChatApp.Server.Database

set_option autoImplicit false

/-! # The byte-protocol server (`server/server.h`, `server/server.cpp`)

`MccServer::parse` and the five parsers it dispatches to, statement by statement: the request
is read through a pointer into the received bytes, the response is written through a pointer
into `tx_buffer_`, and the length of the payload is accumulated by hand in a 32-bit word.
Reading beyond the received bytes or writing beyond `tx_buffer_` is a fault.

What the language leaves open is a parameter (`Platform`): the byte order, the iteration
order of the map, and what a failed protobuf parse leaves in its stream.

The second half gives each parser its contract: the bytes it writes at the start of
`tx_buffer_`, the count it returns, and the database afterwards (`respond`). Nothing later
unfolds a parser.
-/

namespace ChatApp

open Lib Lib.Wire

/-- What the language and its libraries leave open. -/
structure Platform where
  byteOrder : ByteOrder
  /-- The order in which `for(auto &it : db_)` visits the users. -/
  iter : Traversal UserId UserMetadata
  /-- What a failed `ParseFromIstream` has not taken from the stream. -/
  streamRest : Bytes → Bytes

/-- A little-endian machine that visits the users by ascending id. -/
def Platform.littleEndian : Platform where
  byteOrder := .little
  iter := .ascending UserId UserMetadata
  streamRest := fun _ => []

/-- `m.ParseFromIstream(&iss)`: the message, and what is left in the stream. A successful
parse uses the stream up. -/
def parseFromIstream (σ : Type) [Message σ] (P : Platform) (stream : Bytes) : σ × Bytes :=
  ((Message.parseFromArray stream).1,
    if (Message.parseFromArray stream : σ × Bool).2 then [] else P.streamRest stream)

structure MccServer where
  db : Database
  txBuffer : Bytes
  deriving DecidableEq

namespace MccServer

/-! ## The parsers -/

/-- The response to a registration: header, response value, assigned id. -/
def respondRegister (P : Platform) (s : MccServer) (username : Bytes) :
    Except Fault (Nat × MccServer) := do
  let (id, db) := s.db.registerUser username
  let dest : Dest := ⟨s.txBuffer, 0⟩
  let respValue : UInt8 := 0
  let payloadSize : Length := 1 + 4
  let dest ← dest.memcpy (Header.bytes P.byteOrder ⟨.kRespRegister, payloadSize⟩)
  let dest ← dest.memcpy [respValue]
  let dest ← dest.memcpy (P.byteOrder.toBytes id)
  return (sizeofHeader + payloadSize.toNat, ⟨db, dest.buf⟩)

def parseRequestRegister (P : Platform) (s : MccServer) (data : Bytes) (payloadLen : Length) :
    Except Fault (Nat × MccServer) := do
  let username ← readBytes data payloadLen.toNat
  s.respondRegister P username

/-- The checks on the header and on the username only print; none of them stops the
registration. -/
def parseRequestRegisterProto (P : Platform) (s : MccServer) (rxBuffer : Bytes) :
    Except Fault (Nat × MccServer) := do
  let (_hdr, iss) := parseFromIstream Mcc.Header P rxBuffer
  let (req, _iss) := parseFromIstream Mcc.RequestRegister P iss
  s.respondRegister P (req.username.getD [])

/-- The negative response to a request by an unknown user: header and response value. -/
def respondNegative (P : Platform) (s : MccServer) (type : PacketType) :
    Except Fault (Nat × MccServer) := do
  let dest : Dest := ⟨s.txBuffer, 0⟩
  let respValue : UInt8 := 1
  let respHdr : Header := ⟨type, 1⟩
  let dest ← dest.memcpy (respHdr.bytes P.byteOrder)
  let dest ← dest.memcpy [respValue]
  return (sizeofHeader + respHdr.len.toNat, ⟨s.db, dest.buf⟩)

/-- One round of the loop over the users: id, size of the username, username. -/
def putUser (P : Platform) (id : UserId) (acc : Dest × Length) (it : UserId × UserMetadata) :
    Except Fault (Dest × Length) :=
  let (dest, currPayloadLen) := acc
  if it.1 = id then return (dest, currPayloadLen)
  else do
    let dest ← dest.memcpy (P.byteOrder.toBytes it.1)
    let dest ← dest.memcpy (P.byteOrder.toBytes (UInt32.ofNat it.2.username.length))
    let dest ← dest.memcpy it.2.username
    return (dest, currPayloadLen + UInt32.ofNat (4 + 4 + it.2.username.length))

def parseRequestUsers (P : Platform) (s : MccServer) (data : Bytes) (payloadLen : Length) :
    Except Fault (Nat × MccServer) := do
  assertThat (payloadLen == 4)
  let id ← read32 P.byteOrder data
  if !s.db.userExists id then
    s.respondNegative P .kRespUsers
  else
    let respValue : UInt8 := 0
    let numUsers : UserId := s.db.getNumUsers - 1
    if numUsers = 0 then
      let respHdr : Header := ⟨.kRespUsers, 1 + 4⟩
      let dest : Dest := ⟨s.txBuffer, 0⟩
      let dest ← dest.memcpy (respHdr.bytes P.byteOrder)
      let dest ← dest.memcpy [respValue]
      let dest ← dest.memcpy (P.byteOrder.toBytes numUsers)
      return (sizeofHeader + respHdr.len.toNat, ⟨s.db, dest.buf⟩)
    else
      -- The length starts from the header's size, and the header goes in last.
      let currPayloadLen : Length := UInt32.ofNat sizeofHeader
      let dest : Dest := (Dest.mk s.txBuffer 0).skip sizeofHeader
      let dest ← dest.memcpy [respValue]
      let currPayloadLen := currPayloadLen + 1
      let dest ← dest.memcpy (P.byteOrder.toBytes numUsers)
      let currPayloadLen := currPayloadLen + 4
      let (dest, currPayloadLen) ←
        (P.iter.order s.db.userMap).foldlM (putUser P id) (dest, currPayloadLen)
      let respHdr : Header := ⟨.kRespUsers, currPayloadLen⟩
      let txBuffer ← writeFront dest.buf (respHdr.bytes P.byteOrder)
      return (sizeofHeader + respHdr.len.toNat, ⟨s.db, txBuffer⟩)

def parseRequestSend (P : Platform) (s : MccServer) (data : Bytes) (payloadLen : Length) :
    Except Fault (Nat × MccServer) := do
  assertThat (decide (sizeofUserId * 2 < payloadLen.toNat))
  let msgLen : Nat := payloadLen.toNat - sizeofUserId * 2
  let sourceId ← read32 P.byteOrder data
  let data := data.drop sizeofUserId
  let targetId ← read32 P.byteOrder data
  let data := data.drop sizeofUserId
  let msg ← readBytes data msgLen
  let h : Header := ⟨.kRespSend, 1⟩
  let (respValue, db) : UInt8 × Database :=
    if !s.db.userExists sourceId then (1, s.db)
    else if !s.db.userExists targetId then (2, s.db)
    else (0, (s.db.queueMsg targetId ⟨sourceId, msg⟩).2)
  let dest : Dest := ⟨s.txBuffer, 0⟩
  let dest ← dest.memcpy (h.bytes P.byteOrder)
  let dest ← dest.memcpy [respValue]
  return (sizeofHeader + 1, ⟨db, dest.buf⟩)

/-- One round of the loop over the queue: sender, length of the message, message. -/
def putMsg (P : Platform) (acc : Dest × Length) (m : Msg) : Except Fault (Dest × Length) := do
  let (dest, respPl) := acc
  let dest ← dest.memcpy (P.byteOrder.toBytes m.senderId)
  let respPl := respPl + 4
  let msgLen : UInt32 := UInt32.ofNat m.msg.length
  let dest ← dest.memcpy (P.byteOrder.toBytes msgLen)
  let respPl := respPl + 4
  let dest ← dest.memcpy (m.msg.take msgLen.toNat)
  return (dest, respPl + msgLen)

def parseRequestRecv (P : Platform) (s : MccServer) (data : Bytes) (payloadLen : Length) :
    Except Fault (Nat × MccServer) := do
  assertThat (payloadLen == 4)
  let id ← read32 P.byteOrder data
  if !s.db.userExists id then
    s.respondNegative P .kRespRecv
  else
    let respPl : Length := 0
    let dest : Dest := (Dest.mk s.txBuffer 0).skip sizeofHeader
    let respPl := respPl + UInt32.ofNat sizeofHeader
    let respValue : UInt8 := 0
    let dest ← dest.memcpy [respValue]
    let respPl := respPl + 1
    let (user, db) := s.db.get id
    let numMessages : UInt32 := UInt32.ofNat user.msgQ.length
    let dest ← dest.memcpy (P.byteOrder.toBytes numMessages)
    let respPl := respPl + 4
    let (user, db) := db.get id
    let (dest, respPl) ← user.msgQ.foldlM (putMsg P) (dest, respPl)
    let respHdr : Header := ⟨.kRespRecv, respPl⟩
    let txBuffer ← writeFront dest.buf (respHdr.bytes P.byteOrder)
    return (sizeofHeader + respPl.toNat, ⟨db.clearMsgs id, txBuffer⟩)

/-- `MccServer::parse(data, size)`, where the packet is the first `size` bytes of a block that
may be larger. Only the protobuf parser is given the size. A packet of no request type,
including the four response types, goes to it. -/
def parseIn (P : Platform) (s : MccServer) (data : Bytes) (size : Nat) :
    Except Fault (Nat × MccServer) := do
  let h ← Header.read P.byteOrder data
  match h.type with
  | .kRequestRegister => s.parseRequestRegister P (data.drop sizeofHeader) h.len
  | .kRequestUsers => s.parseRequestUsers P (data.drop sizeofHeader) h.len
  | .kRequestSend => s.parseRequestSend P (data.drop sizeofHeader) h.len
  | .kRequestRecv => s.parseRequestRecv P (data.drop sizeofHeader) h.len
  | _ => do
      let rxBuffer ← readBytes data size
      s.parseRequestRegisterProto P rxBuffer

/-- `MccServer::parse(data, size)`, where `data` is the block of `size` bytes received. -/
def parse (P : Platform) (s : MccServer) (data : Bytes) : Except Fault (Nat × MccServer) :=
  s.parseIn P data data.length

/-! ## Contracts

A parser's answer, apart from the buffer it is written to: the bytes it writes at the start
of `tx_buffer_`, the count it returns, and the database it leaves. -/

structure Reply where
  bytes : Bytes
  ret : Nat
  db : Database
  deriving DecidableEq

/-- Write a reply to the front of `tx_buffer_`. -/
def respond (s : MccServer) (r : Reply) : Except Fault (Nat × MccServer) := do
  let txBuffer ← writeFront s.txBuffer r.bytes
  return (r.ret, ⟨r.db, txBuffer⟩)

theorem respond_of_le {s : MccServer} {r : Reply} (h : r.bytes.length ≤ s.txBuffer.length) :
    s.respond r = .ok (r.ret, ⟨r.db, r.bytes ++ s.txBuffer.drop r.bytes.length⟩) := by
  simp only [respond, writeFront_of_le h, ok_bind, pure_eq_ok]

theorem respond_of_lt {s : MccServer} {r : Reply} (h : s.txBuffer.length < r.bytes.length) :
    s.respond r = .error .outOfBounds := by
  simp only [respond, writeFront_of_lt h, error_bind]

/-- A reply comes through exactly if it fits. -/
theorem respond_eq_ok {s : MccServer} {r : Reply} {out : Nat × MccServer} :
    s.respond r = .ok out ↔ r.bytes.length ≤ s.txBuffer.length ∧
      out = (r.ret, ⟨r.db, r.bytes ++ s.txBuffer.drop r.bytes.length⟩) := by
  rcases Nat.lt_or_ge s.txBuffer.length r.bytes.length with hlt | hle
  · rw [respond_of_lt hlt]
    simp [Nat.not_le.mpr hlt]
  · rw [respond_of_le hle, Except.ok.injEq, eq_comm]
    simp [hle]

/-- A chain of writes from the start of the buffer, followed by the return, is a reply. -/
theorem respond_eq_memcpy (s : MccServer) (r : Reply) :
    s.respond r = (Dest.mk s.txBuffer 0).memcpy r.bytes >>= fun d =>
      .ok (r.ret, ⟨r.db, d.buf⟩) := by
  simp only [respond, writeFront, bind_assoc, pure_eq_ok, ok_bind]

def registerReply (P : Platform) (db : Database) (username : Bytes) : Reply where
  bytes := Header.bytes P.byteOrder ⟨.kRespRegister, 5⟩ ++ ([0] ++ P.byteOrder.toBytes db.nextId)
  ret := sizeofHeader + 5
  db := (db.registerUser username).2

def negativeReply (P : Platform) (db : Database) (type : PacketType) : Reply where
  bytes := Header.bytes P.byteOrder ⟨type, 1⟩ ++ [1]
  ret := sizeofHeader + 1
  db := db

theorem respondRegister_eq (P : Platform) (s : MccServer) (username : Bytes) :
    s.respondRegister P username = s.respond (registerReply P s.db username) := by
  rw [respond_eq_memcpy]
  simp only [registerReply, Dest.memcpy_append, bind_assoc]
  rfl

theorem respondNegative_eq (P : Platform) (s : MccServer) (type : PacketType) :
    s.respondNegative P type = s.respond (negativeReply P s.db type) := by
  rw [respond_eq_memcpy]
  simp only [negativeReply, Dest.memcpy_append, bind_assoc]
  rfl

/-- A payload written behind the place of the header, and the header last. -/
theorem respond_headerLast (P : Platform) (s : MccServer) (type : PacketType) (db : Database)
    (payload : Bytes) (len : Length) :
    (((Dest.mk s.txBuffer 0).skip sizeofHeader).memcpy payload >>= fun d =>
        writeFront d.buf (Header.bytes P.byteOrder ⟨type, len⟩) >>= fun txBuffer =>
          .ok (sizeofHeader + len.toNat, (⟨db, txBuffer⟩ : MccServer)))
      = s.respond ⟨Header.bytes P.byteOrder ⟨type, len⟩ ++ payload, sizeofHeader + len.toNat,
          db⟩ := by
  have h := writeFront_headerLast s.txBuffer (Header.bytes P.byteOrder ⟨type, len⟩) payload
  rw [Header.bytes_length] at h
  rw [respond, ← h, bind_assoc]
  rfl

/-- A response value of 0, a count and the records that a loop writes, behind the place of the
header, whose length counts the header too. -/
theorem respond_records (P : Platform) (s : MccServer) (type : PacketType) (db : Database)
    (count : UInt32) {γ : Type} {l : List γ}
    {put : Dest × Length → γ → Except Fault (Dest × Length)} {records : Bytes} {n : Length}
    (hn : n = 10)
    (hloop : ∀ (d : Dest) (a : Bytes), (d.memcpy a >>= fun d' => l.foldlM put (d', n))
      = d.memcpy (a ++ records) >>= fun d' => .ok (d', n + UInt32.ofNat records.length)) :
    let payload := [0] ++ (P.byteOrder.toBytes count ++ records)
    let len : Length := UInt32.ofNat (sizeofHeader + payload.length)
    (((Dest.mk s.txBuffer 0).skip sizeofHeader).memcpy [0] >>= fun d =>
        d.memcpy (P.byteOrder.toBytes count) >>= fun d' =>
          l.foldlM put (d', n) >>= fun x =>
            writeFront x.1.buf (Header.bytes P.byteOrder ⟨type, x.2⟩) >>= fun txBuffer =>
              .ok (sizeofHeader + x.2.toNat, (⟨db, txBuffer⟩ : MccServer)))
      = s.respond ⟨Header.bytes P.byteOrder ⟨type, len⟩ ++ payload, sizeofHeader + len.toNat,
          db⟩ := by
  intro payload len
  -- The count starts from the header, the response value and the number of records.
  have hlen : n + UInt32.ofNat records.length = len := by
    have hpayload : sizeofHeader + payload.length = 10 + records.length := by
      simp [payload, sizeofHeader]
      omega
    show n + UInt32.ofNat records.length = UInt32.ofNat (sizeofHeader + payload.length)
    rw [hn, hpayload, UInt32.ofNat_add]
    rfl
  have hwrites := hloop ((Dest.mk s.txBuffer 0).skip sizeofHeader)
    ([0] ++ P.byteOrder.toBytes count)
  rw [Dest.memcpy_append, bind_assoc] at hwrites
  rw [← respond_headerLast]
  calc _ = (((Dest.mk s.txBuffer 0).skip sizeofHeader).memcpy [0] >>= fun d =>
            d.memcpy (P.byteOrder.toBytes count) >>= fun d' => l.foldlM put (d', n)) >>= fun x =>
          writeFront x.1.buf (Header.bytes P.byteOrder ⟨type, x.2⟩) >>= fun txBuffer =>
            .ok (sizeofHeader + x.2.toNat, (⟨db, txBuffer⟩ : MccServer)) := by
        simp only [bind_assoc]
    _ = _ := by
        rw [hwrites]
        simp only [bind_assoc, ok_bind, hlen, payload, List.append_assoc]

/-! ### Users -/

/-- The record of one user in the Users response. -/
def userRecord (P : Platform) (it : UserId × UserMetadata) : Bytes :=
  P.byteOrder.toBytes it.1
    ++ (P.byteOrder.toBytes (UInt32.ofNat it.2.username.length) ++ it.2.username)

/-- The users other than `id`, in the order of iteration. -/
def otherUsers (P : Platform) (db : Database) (id : UserId) : List (UserId × UserMetadata) :=
  (P.iter.order db.userMap).filter (fun it => it.1 ≠ id)

/-- The payload of the positive Users response: response value, count, records. -/
def usersPayload (P : Platform) (db : Database) (id : UserId) : Bytes :=
  [0] ++ (P.byteOrder.toBytes (db.getNumUsers - 1) ++ (otherUsers P db id).flatMap (userRecord P))

/-- The Users response. On the general path the header's length counts the header too. -/
def usersReply (P : Platform) (db : Database) (id : UserId) : Reply :=
  if !db.userExists id then negativeReply P db .kRespUsers
  else if db.getNumUsers - 1 = 0 then
    { bytes := Header.bytes P.byteOrder ⟨.kRespUsers, 5⟩ ++ ([0] ++ P.byteOrder.toBytes 0)
      ret := sizeofHeader + 5
      db := db }
  else
    let len : Length := UInt32.ofNat (sizeofHeader + (usersPayload P db id).length)
    { bytes := Header.bytes P.byteOrder ⟨.kRespUsers, len⟩ ++ usersPayload P db id
      ret := sizeofHeader + len.toNat
      db := db }

theorem usersReply_db (P : Platform) (db : Database) (id : UserId) :
    (usersReply P db id).db = db := by
  unfold usersReply
  split_ifs <;> rfl

/-- One round of the loop over the users, on a user other than the requester. -/
theorem putUser_of_ne (P : Platform) {id : UserId} {it : UserId × UserMetadata} (h : it.1 ≠ id)
    (d : Dest) (n : Length) :
    putUser P id (d, n) it = d.memcpy (userRecord P it) >>= fun d' =>
      .ok (d', n + UInt32.ofNat (userRecord P it).length) := by
  have hlen : (userRecord P it).length = 4 + 4 + it.2.username.length := by
    simp [userRecord]; omega
  rw [hlen]
  simp only [putUser, if_neg h, userRecord, Dest.memcpy_append, bind_assoc, pure_eq_ok]

/-- The loop over the users writes the records of the others and adds up their sizes. -/
theorem foldlM_putUser (P : Platform) (db : Database) (id : UserId) (d : Dest) (a : Bytes)
    (n : Length) :
    (d.memcpy a >>= fun d' => (P.iter.order db.userMap).foldlM (putUser P id) (d', n))
      = d.memcpy (a ++ (otherUsers P db id).flatMap (userRecord P)) >>= fun d' =>
        .ok (d', n + UInt32.ofNat ((otherUsers P db id).flatMap (userRecord P)).length) := by
  have hskip : putUser P id = fun acc it =>
      if decide (it.1 ≠ id) = true then putUser P id acc it else pure acc := by
    funext acc it
    by_cases h : it.1 = id <;> simp [putUser, h]
  rw [hskip]
  simp only [← List.foldlM_filter]
  refine Dest.foldlM_memcpy d (fun d n it hit => ?_) a n
  exact putUser_of_ne P (by simpa using (List.mem_filter.mp hit).2) d n

/-- **The contract of the Users parser.** -/
theorem parseRequestUsers_eq (P : Platform) (s : MccServer) {data : Bytes} (id : UserId)
    (hid : read32 P.byteOrder data = .ok id) :
    s.parseRequestUsers P data 4 = s.respond (usersReply P s.db id) := by
  simp only [parseRequestUsers, hid, ok_bind, beq_self_eq_true, assertThat_true, usersReply]
  by_cases hex : s.db.userExists id = true
  · simp only [hex, Bool.not_true, Bool.false_eq_true, if_false]
    by_cases hone : s.db.getNumUsers - 1 = 0
    · simp only [hone, if_true, respond_eq_memcpy, Dest.memcpy_append, bind_assoc]
      rfl
    · simp only [if_neg hone]
      have hloop (d : Dest) (a : Bytes) := foldlM_putUser P s.db id d a
        (UInt32.ofNat sizeofHeader + 1 + 4)
      exact respond_records P s .kRespUsers s.db (s.db.getNumUsers - 1) rfl hloop
  · simp only [Bool.not_eq_true] at hex
    simp only [hex, Bool.not_false, if_true, respondNegative_eq]

/-! ### Send -/

/-- What a Send request does: the response value, and the database with the message queued
if both users exist. -/
def sendEffect (db : Database) (sourceId targetId : UserId) (msg : Bytes) : UInt8 × Database :=
  if !db.userExists sourceId then (1, db)
  else if !db.userExists targetId then (2, db)
  else (0, (db.queueMsg targetId ⟨sourceId, msg⟩).2)

def sendReply (P : Platform) (db : Database) (sourceId targetId : UserId) (msg : Bytes) :
    Reply where
  bytes := Header.bytes P.byteOrder ⟨.kRespSend, 1⟩ ++ [(sendEffect db sourceId targetId msg).1]
  ret := sizeofHeader + 1
  db := (sendEffect db sourceId targetId msg).2

/-- **The contract of the Send parser**: the assertion and the reads, then the reply. -/
theorem parseRequestSend_eq (P : Platform) (s : MccServer) (data : Bytes)
    (payloadLen : Length) :
    s.parseRequestSend P data payloadLen
      = (assertThat (decide (8 < payloadLen.toNat)) >>= fun _ =>
          read32 P.byteOrder data >>= fun sourceId =>
          read32 P.byteOrder (data.drop 4) >>= fun targetId =>
          readBytes (data.drop 8) (payloadLen.toNat - 8) >>= fun msg =>
          s.respond (sendReply P s.db sourceId targetId msg)) := by
  simp only [respond_eq_memcpy, sendReply, Dest.memcpy_append, bind_assoc]
  have hdrop : (data.drop sizeofUserId).drop sizeofUserId = data.drop 8 := List.drop_drop
  rw [← hdrop]
  rfl

/-! ### Recv -/

/-- The record of one message in the Recv response. The length is cut to 32 bits, and that
many bytes are copied. -/
def msgRecord (P : Platform) (m : Msg) : Bytes :=
  P.byteOrder.toBytes m.senderId
    ++ (P.byteOrder.toBytes (UInt32.ofNat m.msg.length)
      ++ m.msg.take (UInt32.ofNat m.msg.length).toNat)

/-- The payload of the positive Recv response: response value, count, records. -/
def recvPayload (P : Platform) (q : List Msg) : Bytes :=
  [0] ++ (P.byteOrder.toBytes (UInt32.ofNat q.length) ++ q.flatMap (msgRecord P))

/-- The Recv response. On the positive path the header's length counts the header too. -/
def recvReply (P : Platform) (db : Database) (id : UserId) : Reply :=
  if !db.userExists id then negativeReply P db .kRespRecv
  else
    let len : Length := UInt32.ofNat (sizeofHeader + (recvPayload P (db.queueOf id)).length)
    { bytes := Header.bytes P.byteOrder ⟨.kRespRecv, len⟩ ++ recvPayload P (db.queueOf id)
      ret := sizeofHeader + len.toNat
      db := db.clearMsgs id }

theorem msgRecord_length (P : Platform) (m : Msg) :
    (msgRecord P m).length = 4 + 4 + (UInt32.ofNat m.msg.length).toNat := by
  have hle : (UInt32.ofNat m.msg.length).toNat ≤ m.msg.length := by
    rw [UInt32.toNat_ofNat']; exact Nat.mod_le _ _
  simp only [msgRecord, List.length_append, ByteOrder.toBytes_length,
    List.length_take_of_le hle]
  omega

theorem putMsg_eq (P : Platform) (m : Msg) (d : Dest) (n : Length) :
    putMsg P (d, n) m = d.memcpy (msgRecord P m) >>= fun d' =>
      .ok (d', n + UInt32.ofNat (msgRecord P m).length) := by
  have hsum : n + 4 + 4 + UInt32.ofNat m.msg.length
      = n + UInt32.ofNat (msgRecord P m).length := by
    rw [msgRecord_length, UInt32.ofNat_add, UInt32.ofNat_toNat, UInt32.add_assoc,
      UInt32.add_assoc, ← UInt32.add_assoc 4 4]
    rfl
  rw [← hsum]
  simp only [putMsg, msgRecord, Dest.memcpy_append, bind_assoc, pure_eq_ok]

/-- **The contract of the Recv parser.** -/
theorem parseRequestRecv_eq (P : Platform) (s : MccServer) {data : Bytes} (id : UserId)
    (hid : read32 P.byteOrder data = .ok id) :
    s.parseRequestRecv P data 4 = s.respond (recvReply P s.db id) := by
  simp only [parseRequestRecv, hid, ok_bind, beq_self_eq_true, assertThat_true, recvReply]
  by_cases hex : s.db.userExists id = true
  · obtain ⟨u, hu⟩ := (s.db.userExists_iff id).mp hex
    simp only [hex, Bool.not_true, Bool.false_eq_true, if_false, Database.get_of_find hu,
      Database.queueOf_of_find hu]
    have hloop (d : Dest) (a : Bytes) := Dest.foldlM_memcpy d
      (fun d n m (_ : m ∈ u.msgQ) => putMsg_eq P m d n) a
      (0 + UInt32.ofNat sizeofHeader + 1 + 4)
    exact respond_records P s .kRespRecv (s.db.clearMsgs id) (UInt32.ofNat u.msgQ.length) rfl hloop
  · simp only [Bool.not_eq_true] at hex
    simp only [hex, Bool.not_false, if_true, respondNegative_eq]

/-! ### Register -/

/-- **The contract of the Register parser.** -/
theorem parseRequestRegister_eq (P : Platform) (s : MccServer) {data username : Bytes}
    {payloadLen : Length} (h : readBytes data payloadLen.toNat = .ok username) :
    s.parseRequestRegister P data payloadLen = s.respond (registerReply P s.db username) := by
  simp only [parseRequestRegister, h, ok_bind, respondRegister_eq]

/-- The username the protobuf parser registers: that of the second message, as far as the
stream still held one. -/
def protoUsername (P : Platform) (rxBuffer : Bytes) : Bytes :=
  ((parseFromIstream Mcc.RequestRegister P
    (parseFromIstream Mcc.Header P rxBuffer).2).1.username).getD []

/-- **The contract of the protobuf Register parser**: a registration, whatever the bytes. -/
theorem parseRequestRegisterProto_eq (P : Platform) (s : MccServer) (rxBuffer : Bytes) :
    s.parseRequestRegisterProto P rxBuffer
      = s.respond (registerReply P s.db (protoUsername P rxBuffer)) :=
  respondRegister_eq P s _

/-! ### The whole parser -/

/-- The request in a packet: what `parse` and its parsers read and assert before they touch
the database. -/
def requestIn (P : Platform) (data : Bytes) : Except Fault Request := do
  let h ← Header.read P.byteOrder data
  let payload := data.drop sizeofHeader
  match h.type with
  | .kRequestRegister => do
      let username ← readBytes payload h.len.toNat
      return .register username
  | .kRequestUsers => do
      assertThat (h.len == 4)
      let id ← read32 P.byteOrder payload
      return .users id
  | .kRequestSend => do
      assertThat (decide (8 < h.len.toNat))
      let sourceId ← read32 P.byteOrder payload
      let targetId ← read32 P.byteOrder (payload.drop 4)
      let msg ← readBytes (payload.drop 8) (h.len.toNat - 8)
      return .send sourceId targetId msg
  | .kRequestRecv => do
      assertThat (h.len == 4)
      let id ← read32 P.byteOrder payload
      return .recv id
  | _ => return .register (protoUsername P data)

/-- The reply to a request. -/
def reply (P : Platform) (db : Database) : Request → Reply
  | .register username => registerReply P db username
  | .users id => usersReply P db id
  | .send sourceId targetId msg => sendReply P db sourceId targetId msg
  | .recv id => recvReply P db id

/-- **The contract of `parse`**: read the request, then reply to it. -/
theorem parse_eq (P : Platform) (s : MccServer) (data : Bytes) :
    s.parse P data = requestIn P data >>= fun r => s.respond (reply P s.db r) := by
  unfold parse parseIn requestIn
  rw [bind_assoc]
  congr 1
  funext h
  -- Every type that is no request of the byte protocol comes to the same branch.
  have hreg : (readBytes data data.length >>=
        fun rxBuffer => s.parseRequestRegisterProto P rxBuffer)
      = (Except.ok (Request.register (protoUsername P data)) : Except Fault Request) >>=
          fun r => s.respond (reply P s.db r) := by
    rw [readBytes_of_le (Nat.le_refl _), List.take_length]
    exact parseRequestRegisterProto_eq P s data
  cases h.type with
  | kRequestRegister =>
      simp only [bind_assoc, pure_eq_ok, ok_bind, reply]
      cases hread : readBytes (data.drop sizeofHeader) h.len.toNat with
      | error e => simp only [parseRequestRegister, hread, error_bind]
      | ok username => rw [ok_bind, parseRequestRegister_eq P s hread]
  | kRequestUsers =>
      simp only [bind_assoc, pure_eq_ok, ok_bind, reply]
      by_cases hlen : h.len = 4
      · cases hread : read32 P.byteOrder (data.drop sizeofHeader) with
        | error e => simp only [parseRequestUsers, hread, error_bind]
        | ok id => rw [hlen, parseRequestUsers_eq P s id hread]; rfl
      · simp only [parseRequestUsers, beq_eq_false_iff_ne.mpr hlen, assertThat_false, error_bind]
  | kRequestSend =>
      simp only [bind_assoc, pure_eq_ok, ok_bind, reply]
      exact parseRequestSend_eq P s _ _
  | kRequestRecv =>
      simp only [bind_assoc, pure_eq_ok, ok_bind, reply]
      by_cases hlen : h.len = 4
      · cases hread : read32 P.byteOrder (data.drop sizeofHeader) with
        | error e => simp only [parseRequestRecv, hread, error_bind]
        | ok id => rw [hlen, parseRequestRecv_eq P s id hread]; rfl
      · simp only [parseRequestRecv, beq_eq_false_iff_ne.mpr hlen, assertThat_false, error_bind]
  | _ => exact hreg

end MccServer

end ChatApp
