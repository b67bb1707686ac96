import ChatApp.Common.Packet
import ChatApp.Server.Database
import ChatApp.Tcp.Socket

set_option autoImplicit false

/-! # The protobuf server (`server/server_app.cpp`)

`handleRequest` serves one connection: it waits for a chunk of bytes, parses the whole
receive buffer as a packet, dispatches on the type in its header, and sends as many bytes of
the transmit buffer as the handler returned. A handler returns the size of its response, also
when the response did not fit into the buffer and was not written.
-/

namespace ChatApp

open Lib Lib.Wire Lib.Wire.Message

namespace ServerApp

/-! ## The responses -/

def registerResponse (id : UserId) : Mcc.Packet where
  hdr := some { packetType := some .respRegister }
  respReg := some { respValue := some 0, assignedId := some id }

def onlineUser (it : UserId × UserMetadata) : Mcc.OnlineUser where
  userId := some it.1
  username := some it.2.username

/-- The response to a user about the others; negative if nobody holds the id. -/
def usersResponse (iter : Traversal UserId UserMetadata) (db : Database) (requestorId : UserId) :
    Mcc.Packet where
  hdr := some { packetType := some .respUsers }
  respUsers :=
    if !db.userExists requestorId then some { respValue := some 1 }
    else some
      { respValue := some 0
        onlineUsers := ((iter.order db.userMap).filter (fun it => it.1 ≠ requestorId)).map
          onlineUser }

def userMessage (m : Msg) : Mcc.UserMessage where
  userId := some m.senderId
  message := some m.msg

/-- The response to a Recv request, and the database after the subscript has looked the user
up. The queue stays as it is. -/
def recvResponse (db : Database) (requestorId : UserId) : Mcc.Packet × Database :=
  let hdr : Option Mcc.Header := some { packetType := some .respRecv }
  if !db.userExists requestorId then
    ({ hdr := hdr, respRecv := some { respValue := some 1 } }, db)
  else
    let (user, db) := db.get requestorId
    ({ hdr := hdr
       respRecv := some { respValue := some 0, messages := user.msgQ.map userMessage } }, db)

/-! ## The handlers

Each returns the number of bytes to send, the transmit buffer, and the database. A request
without its submessage or the field in it is only reported: nothing is sent. -/

/-- The response to a Register request, and the database. -/
def answerRegister (db : Database) (packet : Mcc.Packet) : Option (Mcc.Packet × Database) :=
  (packet.reqReg.bind (·.username)).map fun username =>
    let (id, db) := db.registerUser username
    (registerResponse id, db)

/-- The response to a Users request, and the database. -/
def answerUsers (iter : Traversal UserId UserMetadata) (db : Database) (packet : Mcc.Packet) :
    Option (Mcc.Packet × Database) :=
  (packet.reqUsers.bind (·.requestorId)).map fun requestorId =>
    (usersResponse iter db requestorId, db)

/-- The response to a Recv request, and the database. -/
def answerRecv (db : Database) (packet : Mcc.Packet) : Option (Mcc.Packet × Database) :=
  (packet.reqRecv.bind (·.requestorId)).map fun requestorId => recvResponse db requestorId

/-- The end of every handler: the response is written if it fits, and its size is returned. -/
def writeResponse (answer : Option (Mcc.Packet × Database)) (db : Database) (txBuffer : Bytes)
    (capacity : Nat) : Nat × Bytes × Database :=
  match answer with
  | none => (0, txBuffer, db)
  | some (respPacket, db) =>
      (byteSizeLong respPacket, (serializeToArray respPacket txBuffer capacity).1, db)

def handleRequestRegister (db : Database) (packet : Mcc.Packet) (txBuffer : Bytes)
    (capacity : Nat) : Nat × Bytes × Database :=
  writeResponse (answerRegister db packet) db txBuffer capacity

def handleRequestUsers (iter : Traversal UserId UserMetadata) (db : Database)
    (packet : Mcc.Packet) (txBuffer : Bytes) (capacity : Nat) : Nat × Bytes × Database :=
  writeResponse (answerUsers iter db packet) db txBuffer capacity

def handleRequestRecv (db : Database) (packet : Mcc.Packet) (txBuffer : Bytes)
    (capacity : Nat) : Nat × Bytes × Database :=
  writeResponse (answerRecv db packet) db txBuffer capacity

/-! ## One connection -/

/-- The size of both buffers of a connection. -/
def bufferSize : Nat := 1024

/-- What a connection came to: the packet the server acted on, the number of bytes to send
and the buffer to send them from, and the database. -/
structure Handled where
  packet : Mcc.Packet
  numBytesTx : Nat
  txBuffer : Bytes
  db : Database
  deriving DecidableEq

/-- The bytes `sendB` reads for sending. -/
def Handled.sent (h : Handled) : Except Fault Bytes := readBytes h.txBuffer h.numBytesTx

/-- The dispatch on the packet type; an absent one reads as `REQUEST_REGISTER`. The cases of
Recv and Send do nothing. -/
def handlePacket (iter : Traversal UserId UserMetadata) (db : Database) (packet : Mcc.Packet) :
    Handled :=
  let txBuffer : Bytes := List.replicate bufferSize 0
  match ((packet.hdr.getD {}).packetType).getD .requestRegister with
  | .requestRecv => ⟨packet, 0, txBuffer, db⟩
  | .requestRegister =>
      let (n, txBuffer, db) := handleRequestRegister db packet txBuffer bufferSize
      ⟨packet, n, txBuffer, db⟩
  | .requestSend => ⟨packet, 0, txBuffer, db⟩
  | .requestUsers =>
      let (n, txBuffer, db) := handleRequestUsers iter db packet txBuffer bufferSize
      ⟨packet, n, txBuffer, db⟩
  | _ => ⟨packet, 0, txBuffer, db⟩

/-- One connection, given what the calls of `recv` come back with. An invalid header is only
reported. -/
def handleRequest (iter : Traversal UserId UserMetadata) (db : Database) (recvs : List Recv) :
    Option Handled := do
  let rxBuffer : Bytes := List.replicate bufferSize 0
  let rxBuffer ← receiveLoop rxBuffer bufferSize recvs
  let packet : Mcc.Packet := (parseFromArray rxBuffer).1
  return handlePacket iter db packet

/-! ## What a connection comes to -/

/-- The response `handleRequest` builds for a packet, and the database. -/
def answer (iter : Traversal UserId UserMetadata) (db : Database) (packet : Mcc.Packet) :
    Option (Mcc.Packet × Database) :=
  match ((packet.hdr.getD {}).packetType).getD .requestRegister with
  | .requestRegister => answerRegister db packet
  | .requestUsers => answerUsers iter db packet
  | _ => none

variable (iter : Traversal UserId UserMetadata) (db : Database)

/-- **The dispatch builds at most one response** and hands its size to `sendB`. -/
theorem handlePacket_eq (packet : Mcc.Packet) :
    handlePacket iter db packet
      = let (n, txBuffer, db) := writeResponse (answer iter db packet) db
          (List.replicate bufferSize 0) bufferSize
        ⟨packet, n, txBuffer, db⟩ := by
  unfold handlePacket answer
  cases ((packet.hdr.getD {}).packetType).getD .requestRegister <;> rfl

variable {iter db} in
/-- What can be built: a positive Register response after a registration, or a Users
response. -/
theorem answer_cases {packet resp : Mcc.Packet} {db' : Database}
    (h : answer iter db packet = some (resp, db')) :
    (∃ username, resp = registerResponse db.nextId ∧ db' = (db.registerUser username).2) ∨
      (∃ id, resp = usersResponse iter db id ∧ db' = db) := by
  unfold answer at h
  split at h
  · obtain ⟨username, -, heq⟩ := Option.map_eq_some_iff.mp h
    cases heq
    exact .inl ⟨username, rfl, rfl⟩
  · obtain ⟨id, -, heq⟩ := Option.map_eq_some_iff.mp h
    cases heq
    exact .inr ⟨id, rfl, rfl⟩
  · cases h

/-- A packet nothing is built for is answered with no bytes, and changes nothing. -/
theorem handlePacket_of_none {packet : Mcc.Packet} (h : answer iter db packet = none) :
    handlePacket iter db packet = ⟨packet, 0, List.replicate bufferSize 0, db⟩ := by
  rw [handlePacket_eq, h]
  rfl

theorem handlePacket_of_some {packet resp : Mcc.Packet} {db' : Database}
    (h : answer iter db packet = some (resp, db')) :
    handlePacket iter db packet = ⟨packet, byteSizeLong resp,
      (serializeToArray resp (List.replicate bufferSize 0) bufferSize).1, db'⟩ := by
  rw [handlePacket_eq, h]
  rfl

/-- **A response that fits is sent whole.** -/
theorem sent_of_some {packet resp : Mcc.Packet} {db' : Database}
    (h : answer iter db packet = some (resp, db')) (hfits : byteSizeLong resp ≤ bufferSize) :
    (handlePacket iter db packet).sent = .ok (serialize resp) := by
  rw [handlePacket_of_some iter db h, Handled.sent, serializeToArray_of_le hfits]
  exact readBytes_append rfl

/-- A request that arrives whole, in front of a cleared buffer, is the packet acted on. -/
theorem handleRequest_of_arrived {packet : Mcc.Packet} (hsound : Sound packet)
    {recvs : List Recv} (h : arrived bufferSize recvs = some (serialize packet)) :
    handleRequest iter db recvs = some (handlePacket iter db packet) := by
  have hbuf : (List.replicate bufferSize (0 : UInt8)).drop (serialize packet).length
      = List.replicate (bufferSize - (serialize packet).length) 0 := List.drop_replicate
  rw [handleRequest, receiveLoop_eq, h]
  simp only [Option.map_some, hbuf, Option.bind_eq_bind, Option.bind_some,
    hsound.parse_zeros]
  rfl

end ServerApp

end ChatApp
