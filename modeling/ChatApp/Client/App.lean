import ChatApp.Common.Common
import ChatApp.Common.Packet
import ChatApp.Lib.UnorderedMap
import ChatApp.Tcp.Socket

set_option autoImplicit false

/-! # The client application (`client/app.h`, `client/app.cpp`)

The four exchanges with the server (registration, the two periodic polls, a line of a chat)
and what the application makes of each response. An exchange fills a transmit buffer and
sends as many bytes as the request has, waits for a chunk of bytes, and parses the whole
receive buffer as a packet. `registerUser` has buffers of its own; the two polls and a chat
keep theirs from one exchange to the next.

An absent member of a response reads as zero, as an empty string or as an empty list.
-/

namespace ChatApp

open Lib Lib.Wire Lib.Wire.Message

/-- The bytes of a text. -/
def text (s : String) : Bytes := s.toUTF8.data.toList

/-- `std::to_string(id)`. -/
def toDecimal (id : UserId) : Bytes := text (toString id.toNat)

structure App where
  nameToId : UnorderedMap Bytes UserId := ∅
  idToName : UnorderedMap UserId Bytes := ∅
  username : Bytes := []
  id : UserId := 0
  deriving DecidableEq

namespace App

/-- The size of every buffer. -/
def bufferSize : Nat := 1000

/-! ## The exchange -/

/-- `SerializeToArray` into a transmit buffer and `sendB` of `ByteSizeLong` bytes from it: the
bytes sent, and the buffer. -/
def transmit (reqPacket : Mcc.Packet) (txBuffer : Bytes) : Except Fault Bytes × Bytes :=
  let txBuffer := (serializeToArray reqPacket txBuffer txBuffer.length).1
  (readBytes txBuffer (byteSizeLong reqPacket), txBuffer)

/-- The loop around `receiveNb` and `ParseFromArray` of the whole receive buffer: the packet,
and the buffer. -/
def receive (rxBuffer : Bytes) (recvs : List Recv) : Option (Mcc.Packet × Bytes) := do
  let rxBuffer ← receiveLoop rxBuffer bufferSize recvs
  return ((parseFromArray rxBuffer).1, rxBuffer)

/-! ## The requests -/

def registerRequest (username : Bytes) : Mcc.Packet where
  hdr := some { packetType := some .requestRegister }
  reqReg := some { username := some username }

def usersRequest (id : UserId) : Mcc.Packet where
  hdr := some { packetType := some .requestUsers }
  reqUsers := some { requestorId := some id }

def sendRequest (id targetId : UserId) (msg : Bytes) : Mcc.Packet where
  hdr := some { packetType := some .requestSend }
  reqSend := some { sourceId := some id, targetId := some targetId, message := some msg }

def recvRequest (id : UserId) : Mcc.Packet where
  hdr := some { packetType := some .requestRecv }
  reqRecv := some { requestorId := some id }

/-- The packet for a request. -/
def requestPacket : Request → Mcc.Packet
  | .register username => registerRequest username
  | .users id => usersRequest id
  | .send id targetId msg => sendRequest id targetId msg
  | .recv id => recvRequest id

/-! ## Registration -/

/-- What `registerUser` does with the response: every check on it only prints. The result is
the application and what it writes to the console. -/
def acceptRegistration (app : App) (respPacket : Mcc.Packet) : App × List Bytes :=
  let id := ((respPacket.respReg.getD {}).assignedId).getD 0
  ({ app with id := id }, [text "DEBUG: Server assigned user ID = " ++ toDecimal id])

/-- What `registerUser` reports about a response. -/
def registrationErrors (respPacket : Mcc.Packet) : List Bytes :=
  (if respPacket.hdr.isNone then
    [text "Error. Register user response is missing a header"] else [])
  ++ (if (respPacket.respReg.bind (·.respValue)).isNone then
    [text "Error. Register user response is missing response message"] else [])
  ++ if ((respPacket.respReg.getD {}).respValue).getD 0 ≠ 0 then
    [text "Error. Server responded with a negative response for registering the user."] else []

/-- `registerUser`, given the username typed and what the calls of `recv` come back with: the
bytes sent, and the outcome once a chunk has arrived. -/
def registerUser (app : App) (username : Bytes) (recvs : List Recv) :
    Except Fault Bytes × Option (App × List Bytes) :=
  let app := { app with username := username }
  let (sent, _) := transmit (registerRequest username) (List.replicate bufferSize 0)
  (sent, (receive (List.replicate bufferSize 0) recvs).map
    (fun (respPacket, _) => app.acceptRegistration respPacket))

/-- `run` up to the start of the two polls and of the loop over commands: the application they
work on, once `registerUser` has come back. -/
def run (app : App) (username : Bytes) (recvs : List Recv) : Option App :=
  ((app.registerUser username recvs).2).map Prod.fst

/-! ## The poll for online users -/

/-- The names of the users other than the application's own. -/
def printOnlineUsers (iter : Traversal Bytes UserId) (app : App) : List Bytes :=
  ((iter.order app.nameToId).filter (fun mapping => mapping.2 ≠ app.id)).map Prod.fst

/-- The map a response describes: a name that occurs twice keeps its last id. -/
def newNameToId (respPacket : Mcc.Packet) : UnorderedMap Bytes UserId :=
  (respPacket.respUsers.getD {}).onlineUsers.foldl
    (fun m user => m.insert (user.username.getD []) (user.userId.getD 0)) ∅

/-- `id_to_name_.emplace(id, name)`: an id that is there keeps its name. -/
def emplace (m : UnorderedMap UserId Bytes) (mapping : Bytes × UserId) :
    UnorderedMap UserId Bytes :=
  if (m[mapping.2]?).isSome then m else m.insert mapping.2 mapping.1

/-- What the poll does with a response, and what it writes. A map that has not changed is
left alone. -/
def updateOnlineUsers (iter : Traversal Bytes UserId) (app : App) (respPacket : Mcc.Packet) :
    App × List Bytes :=
  if ((respPacket.respUsers.getD {}).respValue).getD 0 ≠ 0 then
    (app, [text "DEBUG: ERR, negative response for get online users request"])
  else if newNameToId respPacket = app.nameToId then (app, [])
  else
    let nameToId := newNameToId respPacket
    let idToName := (iter.order nameToId).foldl emplace ∅
    let app := { app with nameToId := nameToId, idToName := idToName }
    let updated := text "**********Updated Online users: "
    if nameToId.size = 0 then (app, [updated, text "No other users currently online"])
    else (app, updated :: app.printOnlineUsers iter)

/-- One round of `periodicGetOnlineUsers`, with the receive buffer of the rounds before: the
bytes sent, and once a chunk has arrived the packet decoded from the buffer, the application,
the buffer, and what is written to the console. The transmit buffer holds whatever the last
request left in it, and is overwritten. -/
def roundOnlineUsers (iter : Traversal Bytes UserId) (app : App) (rxBuffer txBuffer : Bytes)
    (recvs : List Recv) :
    (Except Fault Bytes × Bytes) × Option (Mcc.Packet × App × Bytes × List Bytes) :=
  (transmit (usersRequest app.id) txBuffer,
    (receive rxBuffer recvs).map fun (respPacket, rxBuffer) =>
      let (app, out) := app.updateOnlineUsers iter respPacket
      (respPacket, app, rxBuffer, out))

/-! ## A chat -/

/-- The check on the name a chat is opened with. -/
def isOnline (app : App) (targetUser : Bytes) : Bool := (app.nameToId[targetUser]?).isSome

/-- The request for a line: the id is looked up through the subscript, which enters a name
that is not there under the id 0. -/
def chatRequest (app : App) (targetUser msg : Bytes) : Mcc.Packet × App :=
  let app := { app with nameToId := app.nameToId.subscript targetUser (fun id => id) }
  (sendRequest app.id (app.nameToId[targetUser]?.getD 0) msg, app)

/-- What a chat makes of a response: whether it goes on, and what is written. -/
def chatVerdict (respPacket : Mcc.Packet) : Bool × List Bytes :=
  match (respPacket.respSend.getD {}).respValue with
  | none => (false, [text "ERR: unexpected server response for sending a message"])
  | some respValue =>
      match SendStatus.ofByte (UInt8.ofNat respValue.toNat) with
      | .kSuccess => (true, [text "Message succesfully sent"])
      | .kErrSrcId => (true, [text "ERR: Source ID incorrect in send request"])
      | .kErrTrgtId => (true, [text "ERR: Target ID incorrect in send request"])
      | .unknown _ =>
          (true, [text "ERR: Received unexpected response value from server in Send request"])

/-- One line of `taskChatWithUser`, with the buffers of the lines before. -/
def roundChat (app : App) (targetUser msg : Bytes) (rxBuffer txBuffer : Bytes)
    (recvs : List Recv) :
    (Except Fault Bytes × Bytes) × App × Option (Mcc.Packet × Bytes × Bool × List Bytes) :=
  let (reqPacket, app) := app.chatRequest targetUser msg
  (transmit reqPacket txBuffer, app,
    (receive rxBuffer recvs).map fun (respPacket, rxBuffer) =>
      (respPacket, rxBuffer, chatVerdict respPacket))

/-! ## The poll for messages -/

/-- The line shown for a message. -/
def messageLine (app : App) (msg : Mcc.UserMessage) : Bytes :=
  match app.idToName[msg.userId.getD 0]? with
  | some name => name ++ text "> " ++ msg.message.getD []
  | none => text "Unknown sender > " ++ msg.message.getD []

/-- What the poll writes for a response, whatever its response value. -/
def showMessages (app : App) (respPacket : Mcc.Packet) : List Bytes :=
  (respPacket.respRecv.getD {}).messages.map app.messageLine

/-- One round of `periodicGetMessages`, with the buffers of the rounds before. -/
def roundMessages (app : App) (rxBuffer txBuffer : Bytes) (recvs : List Recv) :
    (Except Fault Bytes × Bytes) × Option (Mcc.Packet × Bytes × List Bytes) :=
  (transmit (recvRequest app.id) txBuffer,
    (receive rxBuffer recvs).map fun (respPacket, rxBuffer) =>
      (respPacket, rxBuffer, app.showMessages respPacket))

end App

end ChatApp
