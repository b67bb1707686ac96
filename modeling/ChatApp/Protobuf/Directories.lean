import ChatApp.Lib.Run
import ChatApp.Protobuf.Exchanges

set_option autoImplicit false

/-! # The two directories of the application

The poll builds the two maps from what it reads of a response, and loses nothing as long as no id
is listed under two names (`App.mirrored_of_foldl_emplace`). The names come from the server, which
never removes a user and gives every user an id of its own while it has ids to give.

So in every state of a server and its applications each of the two maps is the inverse of the
other and holds users of the server. A name that has been in a map stays in it, as long as every
response is read far enough to list it again (`Deployment.directories_of_run`): a name that is
not UTF-8 cuts the list off (`Deployment.not_agree_cut_off`).
-/

namespace ChatApp

open Lib Lib.Wire Lib.Wire.Message

/-! ## The server and its applications -/

/-- An application and what its threads are at: the bytes of the response to the registration
that have not been read yet, and whether the threads run; the buffers of the poll for online
users and the bytes of a response to it that have not been read yet; the name of the chat, and
its transmit buffer. -/
structure Client where
  app : App := {}
  registration : Option Bytes := none
  running : Bool := false
  rxBuffer : Bytes := List.replicate App.bufferSize 0
  txBuffer : Bytes := List.replicate App.bufferSize 0
  reply : Option Bytes := none
  chat : Option Bytes := none
  chatTxBuffer : Bytes := List.replicate App.bufferSize 0
  deriving DecidableEq

/-- What happens at a client next: the server handles its Register request, or its Users
request; it reads the response to one of them; a chat is opened, or a line of it is read and the
server handles the Send request. -/
inductive ClientEvent
  | register (username : Bytes)
  | registered
  | poll (iter : Traversal UserId UserMetadata)
  | polled (iter : Traversal Bytes UserId)
  | openChat (targetUser : Bytes)
  | line (msg : Bytes)

def ClientEvent.isRegister : ClientEvent → Bool
  | .register _ => true
  | _ => false

/-- The database and the client after the event. The threads start once the response to the
registration has been read; the line `x` ends a chat. The order in which the server walks its map
matters for a Users request only. -/
def Client.next (db : Database) (c : Client) : ClientEvent → Except Unit (Database × Client)
  | .register username =>
      if c.running || c.registration.isSome then .error ()
      else do
        let (db, response) ← ServerApp.deliver (.ascending _ _) db
          (c.app.registerUser username []).1
        return (db, { c with app := { c.app with username := username }
                             registration := some response })
  | .registered =>
      match c.registration with
      | some response =>
          match (c.app.registerUser c.app.username [.data response]).2 with
          | some (app, _) =>
              return (db, { c with app := app, registration := none, running := true })
          | none => .error ()
      | none => .error ()
  | .poll iter =>
      if !c.running || c.reply.isSome then .error ()
      else do
        let (sent, txBuffer) := App.transmit (App.usersRequest c.app.id) c.txBuffer
        let (db, response) ← ServerApp.deliver iter db sent
        return (db, { c with txBuffer := txBuffer, reply := some response })
  | .polled iter =>
      match c.reply with
      | some response =>
          match (c.app.roundOnlineUsers iter c.rxBuffer c.txBuffer [.data response]).2 with
          | some (_, app, rxBuffer, _) =>
              return (db, { c with app := app, rxBuffer := rxBuffer, reply := none })
          | none => .error ()
      | none => .error ()
  | .openChat targetUser =>
      if !c.running || c.chat.isSome then .error ()
      else if targetUser ≠ text "x" ∧ c.app.isOnline targetUser then
        return (db, { c with chat := some targetUser
                             chatTxBuffer := List.replicate App.bufferSize 0 })
      else return (db, c)
  | .line msg =>
      match c.chat with
      | some targetUser =>
          if msg = text "x" then return (db, { c with chat := none })
          else do
            let (reqPacket, app) := c.app.chatRequest targetUser msg
            let (sent, chatTxBuffer) := App.transmit reqPacket c.chatTxBuffer
            let (db, _) ← ServerApp.deliver (.ascending _ _) db sent
            return (db, { c with app := app, chatTxBuffer := chatTxBuffer })
      | none => .error ()

/-- The packets of an exchange fit the buffers. -/
def Client.Fits (db : Database) (c : Client) : ClientEvent → Prop
  | .register username => byteSizeLong (App.registerRequest username) ≤ App.bufferSize
  | .poll iter => byteSizeLong (ServerApp.usersResponse iter db c.app.id) ≤ App.bufferSize
  | .line msg => ∀ targetUser ∈ c.chat,
      byteSizeLong (c.app.chatRequest targetUser msg).1 ≤ App.bufferSize
  | _ => True

/-- The list for a poll has every name that the client knows, as far as it is read. -/
def Client.Keeps (db : Database) (c : Client) : ClientEvent → Prop
  | .poll iter => ∀ name ∈ c.app.nameToId.keys,
      ∃ it ∈ ServerApp.legible (ServerApp.others iter db c.app.id), it.2.username = name
  | _ => True

instance (db : Database) (c : Client) (e : ClientEvent) : Decidable (c.Fits db e) :=
  match e with
  | .register _ => inferInstanceAs (Decidable (_ ≤ _))
  | .poll _ => inferInstanceAs (Decidable (_ ≤ _))
  | .line _ => inferInstanceAs (Decidable (∀ _ ∈ c.chat, _))
  | .registered => .isTrue trivial
  | .polled _ => .isTrue trivial
  | .openChat _ => .isTrue trivial

instance (db : Database) (c : Client) (e : ClientEvent) : Decidable (c.Keeps db e) :=
  match e with
  | .poll _ => inferInstanceAs (Decidable (∀ _ ∈ _, ∃ _ ∈ _, _))
  | .register _ => .isTrue trivial
  | .registered => .isTrue trivial
  | .polled _ => .isTrue trivial
  | .openChat _ => .isTrue trivial
  | .line _ => .isTrue trivial

/-- The server's database, and the clients by number. -/
structure Deployment where
  db : Database
  clients : Nat → Client

namespace Deployment

/-- A server without users, and applications that have not registered. What `id_` holds before
is not initialized. -/
def start (ids : Nat → UserId) : Deployment where
  db := .empty
  clients := fun k => { app := { id := ids k } }

/-- Something happens at one client. -/
def step (s : Deployment) (e : Nat × ClientEvent) : Except Unit (Deployment × Unit) := do
  let (db, c) ← (s.clients e.1).next s.db e.2
  return ({ db := db, clients := Function.update s.clients e.1 c }, ())

/-- The packets of the exchange fit the buffers. -/
def Fits (s : Deployment) (e : Nat × ClientEvent) : Prop := (s.clients e.1).Fits s.db e.2

/-- The client who polls reads every name again that it knows. -/
def Keeps (s : Deployment) (e : Nat × ClientEvent) : Prop := (s.clients e.1).Keeps s.db e.2

instance (s : Deployment) (e : Nat × ClientEvent) : Decidable (s.Fits e) :=
  inferInstanceAs (Decidable (Client.Fits _ _ _))

instance (s : Deployment) (e : Nat × ClientEvent) : Decidable (s.Keeps e) :=
  inferInstanceAs (Decidable (Client.Keeps _ _ _))

/-- The number of registrations among the events. -/
def registrations (events : List (Nat × ClientEvent)) : Nat :=
  events.countP fun e => e.2.isRegister

/-- **The directories of every client agree** with each other and with the server, and no name
has gone from them: a line of a chat finds its name, and the subscript enters nothing. -/
structure Agree (s : Deployment) (log : List (Entry Deployment (Nat × ClientEvent) Unit)) :
    Prop where
  mirrored : ∀ k, (s.clients k).app.Mirrored
  nameToId : ∀ k (name : Bytes) (id : UserId), (s.clients k).app.nameToId[name]? = some id →
    s.db.nameOf id = some name
  idToName : ∀ k (name : Bytes) (id : UserId), (s.clients k).app.idToName[id]? = some name →
    s.db.nameOf id = some name
  kept : ∀ e ∈ log, ∀ k name, (e.before.clients k).app.Knows name → (s.clients k).app.Knows name
  found : ∀ e ∈ log, ∀ k msg targetUser, e.input = (k, .line msg) →
    (e.before.clients k).chat = some targetUser →
      (e.before.clients k).app.Knows targetUser ∧
        ((e.before.clients k).app.chatRequest targetUser msg).2 = (e.before.clients k).app

end Deployment

/-! ## One client -/

/-- The bytes are the response to a poll of the client, as the server sent it when it had the users
of `db₀`. -/
structure Client.Awaits (db₀ : Database) (iter : Traversal UserId UserMetadata) (c : Client)
    (response : Bytes) : Prop where
  sent : response = serialize (ServerApp.usersResponse iter db₀ c.app.id)
  fits : byteSizeLong (ServerApp.usersResponse iter db₀ c.app.id) ≤ App.bufferSize
  enrolled : db₀.userExists c.app.id = true
  buffer : App.PollBuffer c.app.id db₀ c.rxBuffer
  keeps : ∀ name, c.app.Knows name →
    ∃ it ∈ ServerApp.legible (ServerApp.others iter db₀ c.app.id), it.2.username = name

/-- What every client meets. -/
structure Client.Inv (db : Database) (c : Client) : Prop where
  mirrored : c.app.Mirrored
  known : ∀ (name : Bytes) (id : UserId), c.app.nameToId[name]? = some id →
    db.nameOf id = some name ∧ id ≠ c.app.id
  waiting : ∀ response ∈ c.registration, c.running = false ∧
    ∃ id, response = serialize (ServerApp.registerResponse id) ∧ db.userExists id = true
  enrolled : c.running = true → db.userExists c.app.id = true
  idle : c.running = false → c.app.nameToId = ∅ ∧ c.reply = none ∧
    c.rxBuffer = List.replicate App.bufferSize 0
  buffer : App.PollBuffer c.app.id db c.rxBuffer
  buffers : c.txBuffer.length = App.bufferSize ∧ c.chatTxBuffer.length = App.bufferSize
  reply : ∀ response ∈ c.reply, ∃ db₀ iter, db₀.Extends db ∧ c.Awaits db₀ iter response
  chatting : ∀ targetUser ∈ c.chat, c.app.Knows targetUser

/-- What an event can do, where the packets fit the buffers. -/
inductive Client.Moves (db : Database) (c : Client) : ClientEvent → Database → Client → Prop
  | register (username : Bytes) (hidle : c.running = false) :
      Moves db c (.register username) (db.registerUser username).2
        { c with app := { c.app with username := username }
                 registration := some (serialize (ServerApp.registerResponse db.nextId)) }
  | registered {id : UserId} (hidle : c.running = false) (hex : db.userExists id = true) :
      Moves db c .registered db
        { c with app := { c.app with id := id }, registration := none, running := true }
  | poll (iter : Traversal UserId UserMetadata) {txBuffer : Bytes} (hrunning : c.running = true)
      (hreply : c.reply = none) (htx : txBuffer.length = App.bufferSize) :
      Moves db c (.poll iter) db
        { c with txBuffer := txBuffer
                 reply := some (serialize (ServerApp.usersResponse iter db c.app.id)) }
  | polled (iter' : Traversal Bytes UserId) {db₀ : Database}
      {iter : Traversal UserId UserMetadata} {response rxBuffer : Bytes}
      (hreply : c.reply = some response) (hext : db₀.Extends db)
      (hawaits : c.Awaits db₀ iter response) (hbuffer : App.PollBuffer c.app.id db₀ rxBuffer) :
      Moves db c (.polled iter') db
        { c with app := (c.app.updateOnlineUsers iter' (ServerApp.usersRead iter db₀ c.app.id)).1
                 rxBuffer := rxBuffer, reply := none }
  | unavailable (targetUser : Bytes) : Moves db c (.openChat targetUser) db c
  | openChat {targetUser : Bytes} (hknows : c.app.Knows targetUser) :
      Moves db c (.openChat targetUser) db
        { c with chat := some targetUser, chatTxBuffer := List.replicate App.bufferSize 0 }
  | leave : Moves db c (.line (text "x")) db { c with chat := none }
  | line (msg : Bytes) {chatTxBuffer : Bytes} (htx : chatTxBuffer.length = App.bufferSize) :
      Moves db c (.line msg) db { c with chatTxBuffer := chatTxBuffer }

variable {db db' : Database} {c c' : Client}

/-- What happens at other clients only adds users. -/
theorem Client.Inv.mono (h : c.Inv db) (hext : db.Extends db') : c.Inv db' where
  mirrored := h.mirrored
  known := by
    intro name id hid
    exact ⟨hext id name (h.known name id hid).1, (h.known name id hid).2⟩
  waiting := by
    intro response hresponse
    obtain ⟨hidle, id, hsent, hex⟩ := h.waiting response hresponse
    exact ⟨hidle, id, hsent, hext.userExists hex⟩
  enrolled := fun hrunning => hext.userExists (h.enrolled hrunning)
  idle := h.idle
  buffer := h.buffer.grown hext
  buffers := h.buffers
  reply := by
    intro response hresponse
    obtain ⟨db₀, iter, hext₀, hawaits⟩ := h.reply response hresponse
    exact ⟨db₀, iter, hext₀.trans hext, hawaits⟩
  chatting := h.chatting

/-- The response to a poll is read as far as its names are UTF-8. -/
theorem Client.Awaits.read {db₀ : Database} {iter : Traversal UserId UserMetadata}
    {response : Bytes} (h : c.Awaits db₀ iter response) (iter' : Traversal Bytes UserId) :
    ∃ rxBuffer, (c.app.roundOnlineUsers iter' c.rxBuffer c.txBuffer [.data response]).2
        = some (ServerApp.usersRead iter db₀ c.app.id,
            (c.app.updateOnlineUsers iter' (ServerApp.usersRead iter db₀ c.app.id)).1, rxBuffer,
            (c.app.updateOnlineUsers iter' (ServerApp.usersRead iter db₀ c.app.id)).2) ∧
      App.PollBuffer c.app.id db₀ rxBuffer := by
  obtain ⟨rxBuffer, hreceive, hbuffer⟩ := h.buffer.receive iter h.fits
  refine ⟨rxBuffer, ?_, hbuffer⟩
  rw [h.sent, App.roundOnlineUsers, hreceive]
  rfl

/-- **What an event does to a client**, where the packets fit the buffers. -/
theorem Client.Inv.moves {e : ClientEvent} (h : c.Inv db) (hfits : c.Fits db e)
    (hnext : c.next db e = .ok (db', c')) : c.Moves db e db' c' := by
  cases e with
  | register username =>
      have hsent : (c.app.registerUser username []).1 = (App.transmit
          (App.registerRequest username) (List.replicate App.bufferSize 0)).1 := rfl
      have hdeliver : ServerApp.deliver (.ascending _ _) db (App.transmit
          (App.registerRequest username) (List.replicate App.bufferSize 0)).1 = _ :=
        ServerApp.deliver_register List.length_replicate hfits
      simp only [Client.next, hsent, hdeliver, ok_bind, pure_eq_ok] at hnext
      split_ifs at hnext with hbusy
      cases hnext
      refine .register username ?_
      simp only [Bool.or_eq_true, not_or, Bool.not_eq_true] at hbusy
      exact hbusy.1
  | registered =>
      rcases hregistration : c.registration with _ | response
      · simp [Client.next, hregistration] at hnext
      · obtain ⟨hidle, id, rfl, hex⟩ := h.waiting response hregistration
        simp only [Client.next, hregistration, ServerApp.registerUser_of_response] at hnext
        cases hnext
        exact .registered hidle hex
  | poll iter =>
      have hdeliver : ServerApp.deliver iter db
          (App.transmit (App.usersRequest c.app.id) c.txBuffer).1 = _ :=
        ServerApp.deliver_users h.buffers.1 hfits
      have htx := App.transmit_length (App.usersRequest c.app.id) c.txBuffer
      simp only [Client.next, hdeliver, ok_bind, pure_eq_ok] at hnext
      split_ifs at hnext with hbusy
      cases hnext
      simp only [Bool.or_eq_true, not_or, Bool.not_eq_true, Bool.not_eq_false',
        Option.isSome_eq_false_iff, Option.isNone_iff_eq_none] at hbusy
      exact .poll iter hbusy.1 hbusy.2 (htx.trans h.buffers.1)
  | polled iter' =>
      rcases hreply : c.reply with _ | response
      · simp [Client.next, hreply] at hnext
      · obtain ⟨db₀, iter, hext, hawaits⟩ := h.reply response hreply
        obtain ⟨rxBuffer, hread, hbuffer⟩ := hawaits.read iter'
        simp only [Client.next, hreply, hread] at hnext
        cases hnext
        exact .polled iter' hreply hext hawaits hbuffer
  | openChat targetUser =>
      simp only [Client.next] at hnext
      split_ifs at hnext with hbusy hopen
      · cases hnext
        exact .openChat (Option.isSome_iff_exists.mp hopen.2)
      · cases hnext
        exact .unavailable targetUser
  | line msg =>
      rcases hchat : c.chat with _ | targetUser
      · simp [Client.next, hchat] at hnext
      · simp only [Client.next, hchat] at hnext
        split_ifs at hnext with hx
        · cases hnext
          subst hx
          exact .leave
        · -- The name is in the directory, so the subscript enters nothing.
          have hline := App.chatRequest_of_knows (h.chatting targetUser hchat) msg
          have hdeliver : ServerApp.deliver (.ascending _ _) db
              (App.transmit (c.app.chatRequest targetUser msg).1 c.chatTxBuffer).1 = .ok (db, []) :=
            ServerApp.deliver_send h.buffers.2 (hfits targetUser hchat)
          have htx := App.transmit_length (c.app.chatRequest targetUser msg).1 c.chatTxBuffer
          simp only [hdeliver, ok_bind, hline, pure_eq_ok] at hnext
          cases hnext
          rw [← hchat]
          exact .line msg (htx.trans h.buffers.2)

/-! ### What an event preserves -/

/-- A client that is not running has an empty directory, so its id can change. -/
theorem Client.Inv.of_not_running (h : c.Inv db) (hidle : c.running = false) (app : App)
    (hname : app.nameToId = c.app.nameToId) (hid : app.idToName = c.app.idToName)
    {registration : Option Bytes} {running : Bool}
    (hwaiting : ∀ response ∈ registration, running = false ∧
      ∃ id, response = serialize (ServerApp.registerResponse id) ∧ db.userExists id = true)
    (henrolled : running = true → db.userExists app.id = true) :
    Client.Inv db { c with app := app, registration := registration, running := running } := by
  obtain ⟨hempty, hreply, hrx⟩ := h.idle hidle
  have hnone (name : Bytes) : app.nameToId[name]? = none := by
    rw [hname, hempty]
    simp
  refine ⟨?_, ?_, hwaiting, henrolled, fun _ => ⟨hname.trans hempty, hreply, hrx⟩, ?_, h.buffers,
    ?_, ?_⟩
  · intro id name
    show app.idToName[id]? = some name ↔ app.nameToId[name]? = some id
    rw [hname, hid]
    exact h.mirrored id name
  · intro name id hsome
    rw [show app.nameToId[name]? = none from hnone name] at hsome
    cases hsome
  · show App.PollBuffer app.id db c.rxBuffer
    rw [hrx]
    exact .cleared db
  · intro response hresponse
    rw [show c.reply = none from hreply] at hresponse
    cases hresponse
  · intro targetUser hchat
    obtain ⟨id, hsome⟩ := h.chatting targetUser hchat
    exact ⟨id, hname ▸ hsome⟩

/-- The server's answer to the poll, as far as it is read, lists everyone the client knows. -/
theorem Client.Inv.poll (h : c.Inv db) (hrunning : c.running = true)
    {iter : Traversal UserId UserMetadata} (hfits : c.Fits db (.poll iter))
    (hkeeps : c.Keeps db (.poll iter)) {txBuffer : Bytes}
    (htx : txBuffer.length = App.bufferSize) :
    Client.Inv db { c with
      txBuffer := txBuffer
      reply := some (serialize (ServerApp.usersResponse iter db c.app.id)) } := by
  refine ⟨h.mirrored, h.known, h.waiting, h.enrolled, ?_, h.buffer, ⟨htx, h.buffers.2⟩, ?_,
    h.chatting⟩
  · intro hidle
    exact absurd (hidle.symm.trans hrunning) Bool.false_ne_true
  · rintro response ⟨⟩
    refine ⟨db, iter, .refl db, rfl, hfits, h.enrolled hrunning, h.buffer, ?_⟩
    rintro name ⟨id, hid⟩
    exact hkeeps name (Std.ExtTreeMap.mem_keys.mpr
      ((UnorderedMap.mem_iff_getElem? _ _).mpr ⟨id, hid⟩))

/-- The directory that a response is made into has users of the server, and every name of the old
one. -/
theorem Client.Awaits.newNameToId {db₀ : Database} {iter : Traversal UserId UserMetadata}
    {response : Bytes} (h : c.Awaits db₀ iter response) (hext : db₀.Extends db) :
    (∀ (name : Bytes) (id : UserId),
      (App.newNameToId (ServerApp.usersRead iter db₀ c.app.id))[name]? = some id →
        db.nameOf id = some name ∧ id ≠ c.app.id) ∧
    ∀ name, c.app.Knows name →
      ∃ id, (App.newNameToId (ServerApp.usersRead iter db₀ c.app.id))[name]? = some id := by
  constructor
  · intro name id hid
    obtain ⟨hname, hne⟩ := ServerApp.nameOf_of_newNameToId h.enrolled hid
    exact ⟨hext id name hname, hne⟩
  · -- The map is built anew, so a name stays only because the response lists it again.
    intro name hknows
    obtain ⟨it, hit, rfl⟩ := h.keeps name hknows
    exact ServerApp.newNameToId_of_mem_legible h.enrolled hit

/-- **Looking at the response**: the new directory is built from users of the server, and has
every name of the old one. -/
theorem Client.Inv.polled (h : c.Inv db) (iter' : Traversal Bytes UserId) {db₀ : Database}
    {iter : Traversal UserId UserMetadata} {response rxBuffer : Bytes}
    (hreply : c.reply = some response) (hext : db₀.Extends db)
    (hawaits : c.Awaits db₀ iter response) (hbuffer : App.PollBuffer c.app.id db₀ rxBuffer) :
    let app := (c.app.updateOnlineUsers iter' (ServerApp.usersRead iter db₀ c.app.id)).1
    Client.Inv db { c with app := app, rxBuffer := rxBuffer, reply := none } ∧
      ∀ name, c.app.Knows name → app.Knows name := by
  intro app
  obtain ⟨hknown, hkept⟩ := hawaits.newNameToId hext
  have hrunning : ¬c.running = false := by
    intro hidle
    rw [(h.idle hidle).2.1] at hreply
    cases hreply
  rcases App.updateOnlineUsers_cases iter' c.app (ServerApp.usersRead iter db₀ c.app.id) with
    hsame | ⟨-, hnew⟩
  -- A response that lists what is known leaves the directory as it is.
  · have happ : app = c.app := hsame
    rw [happ]
    exact ⟨⟨h.mirrored, h.known, h.waiting, h.enrolled, fun hidle => absurd hidle hrunning,
      hbuffer.grown hext, h.buffers, by simp, h.chatting⟩, fun _ hknows => hknows⟩
  · have happ : app = _ := hnew
    rw [happ]
    refine ⟨⟨?_, hknown, h.waiting, h.enrolled, fun hidle => absurd hidle hrunning,
      hbuffer.grown hext, h.buffers, by simp, ?_⟩, hkept⟩
    · apply App.mirrored_of_foldl_emplace iter' rfl
      intro name name' id hname hname'
      -- Both are names of one user at the server.
      have hsame := (hknown name id hname).1.symm.trans (hknown name' id hname').1
      exact Option.some.inj hsame
    · intro targetUser hchat
      exact hkept targetUser (h.chatting targetUser hchat)

/-- A chat may be opened with any user who is in the directory, and be left. -/
theorem Client.Inv.withChat (h : c.Inv db) {chat : Option Bytes} {chatTxBuffer : Bytes}
    (hchat : ∀ targetUser ∈ chat, c.app.Knows targetUser)
    (htx : chatTxBuffer.length = App.bufferSize) :
    Client.Inv db { c with chat := chat, chatTxBuffer := chatTxBuffer } := by
  refine ⟨h.mirrored, h.known, h.waiting, h.enrolled, h.idle, h.buffer, ⟨h.buffers.1, htx⟩, ?_,
    hchat⟩
  intro response hresponse
  obtain ⟨db₀, iter, hext, hawaits⟩ := h.reply response hresponse
  exact ⟨db₀, iter, hext, hawaits.1, hawaits.2, hawaits.3, hawaits.4, hawaits.5⟩

/-- What one event does, for the database and for the client. -/
structure Client.Stepped (db db' : Database) (c c' : Client) (e : ClientEvent) : Prop where
  counted : ∀ n, Database.Counted db n → Database.Counted db' (n + if e.isRegister then 1 else 0)
  extended : db.Extends db'
  inv : c'.Inv db'
  kept : ∀ name, c.app.Knows name → c'.app.Knows name

/-- An event that leaves the database alone. -/
theorem Client.stepped_of_inv {e : ClientEvent} (he : e.isRegister = false) (hinv : c'.Inv db)
    (hkept : ∀ name, c.app.Knows name → c'.app.Knows name) : Client.Stepped db db c c' e where
  counted := by
    intro n hcounted
    rw [he]
    exact hcounted
  extended := .refl db
  inv := hinv
  kept := hkept

/-- **The step lemma for a client.** -/
theorem Client.Inv.next {n : Nat} {e : ClientEvent} (h : c.Inv db)
    (hcounted : Database.Counted db n) (hn : e.isRegister = true → n < 2 ^ 32)
    (hfits : c.Fits db e) (hkeeps : c.Keeps db e) (hnext : c.next db e = .ok (db', c')) :
    Client.Stepped db db' c c' e := by
  have hsame : ∀ name, c.app.Knows name → c.app.Knows name := fun _ hknows => hknows
  cases h.moves hfits hnext with
  | register username hidle =>
      have hext := Database.extends_registerUser hcounted (hn rfl) username
      have hwaiting : ∀ response ∈ some (serialize (ServerApp.registerResponse db.nextId)),
          c.running = false ∧ ∃ id, response = serialize (ServerApp.registerResponse id) ∧
            (db.registerUser username).2.userExists id = true := by
        rintro response ⟨⟩
        exact ⟨hidle, db.nextId, rfl, (Database.userExists_registerUser _ _ _).mpr (.inl rfl)⟩
      have hinv := (h.mono hext).of_not_running hidle { c.app with username := username } rfl rfl
        hwaiting (fun hrunning => absurd (hidle.symm.trans hrunning) Bool.false_ne_true)
      exact ⟨fun n hcounted => hcounted.register username, hext, hinv, hsame⟩
  | @registered id hidle hex =>
      have hinv : Client.Inv db
          { c with app := { c.app with id := id }, registration := none, running := true } :=
        h.of_not_running hidle { c.app with id := id } rfl rfl (by simp) (fun _ => hex)
      exact Client.stepped_of_inv rfl hinv hsame
  | poll iter hrunning hreply htx =>
      exact Client.stepped_of_inv rfl (h.poll hrunning hfits hkeeps htx) hsame
  | polled iter' hreply hext hawaits hbuffer =>
      have hpolled := h.polled iter' hreply hext hawaits hbuffer
      exact Client.stepped_of_inv rfl hpolled.1 hpolled.2
  | unavailable targetUser => exact Client.stepped_of_inv rfl h hsame
  | openChat hknows =>
      refine Client.stepped_of_inv rfl (h.withChat ?_ List.length_replicate) hsame
      rintro targetUser ⟨⟩
      exact hknows
  | leave => exact Client.stepped_of_inv rfl (h.withChat (by simp) h.buffers.2) hsame
  | line msg htx => exact Client.stepped_of_inv rfl (h.withChat h.chatting htx) hsame

namespace Deployment

/-! ## Runs -/

/-- What holds along a run of which `rest` is still to come. -/
structure Inv (s : Deployment) (log : List (Entry Deployment (Nat × ClientEvent) Unit))
    (rest : List (Nat × ClientEvent)) : Prop where
  counted : ∃ n, Database.Counted s.db n ∧ n + registrations rest ≤ 2 ^ 32
  clients : ∀ k, (s.clients k).Inv s.db
  kept : ∀ e ∈ log, ∀ k name, (e.before.clients k).app.Knows name → (s.clients k).app.Knows name
  before : ∀ e ∈ log, ∀ k, (e.before.clients k).Inv e.before.db

theorem Inv.start {events : List (Nat × ClientEvent)} (h : registrations events ≤ 2 ^ 32)
    (ids : Nat → UserId) : Inv (start ids) [] events where
  counted := ⟨0, .empty, by omega⟩
  clients := by
    intro k
    refine ⟨?_, ?_, by simp [Deployment.start], by simp [Deployment.start],
      fun _ => ⟨rfl, rfl, rfl⟩, .cleared .empty, ⟨List.length_replicate, List.length_replicate⟩,
      by simp [Deployment.start], by simp [Deployment.start]⟩
    · intro id name
      simp [Deployment.start]
    · intro name id hid
      simp [Deployment.start] at hid
  kept := List.forall_mem_nil _
  before := List.forall_mem_nil _

/-- **The step lemma.** -/
theorem Inv.step {s s' : Deployment} {log : List (Entry Deployment (Nat × ClientEvent) Unit)}
    {e : Nat × ClientEvent} {rest : List (Nat × ClientEvent)} (h : Inv s log (e :: rest))
    (hfits : s.Fits e) (hkeeps : s.Keeps e) (hstep : s.step e = .ok (s', ())) :
    Inv s' (log ++ [⟨s, e, ()⟩]) rest := by
  rcases e with ⟨k, e⟩
  rcases bind_eq_ok.mp hstep with ⟨⟨db, c⟩, hnext, hs'⟩
  have hnext : (s.clients k).next s.db e = .ok (db, c) := hnext
  simp only [pure_eq_ok, Except.ok.injEq, Prod.mk.injEq, and_true] at hs'
  subst hs'
  rcases h.counted with ⟨n, hcounted, hn⟩
  have hrest : registrations ((k, e) :: rest)
      = (if e.isRegister then 1 else 0) + registrations rest := by
    unfold registrations
    rw [List.countP_cons, Nat.add_comm]
  rw [hrest] at hn
  have hstepped : Client.Stepped s.db db (s.clients k) c e :=
    (h.clients k).next hcounted (fun he => by rw [if_pos he] at hn; omega) hfits hkeeps hnext
  have hkept : ∀ j name, (s.clients j).app.Knows name →
      (Function.update s.clients k c j).app.Knows name := by
    intro j name hknows
    by_cases hj : j = k
    · subst hj
      rw [Function.update_self]
      exact hstepped.kept name hknows
    · rw [Function.update_of_ne hj]
      exact hknows
  refine ⟨⟨_, hstepped.counted n hcounted, by omega⟩, ?_, ?_, ?_⟩
  · intro j
    by_cases hj : j = k
    · subst hj
      show (Function.update s.clients j c j).Inv db
      rw [Function.update_self]
      exact hstepped.inv
    -- The other clients know nothing that registering a user could make wrong.
    · show (Function.update s.clients k c j).Inv db
      rw [Function.update_of_ne hj]
      exact (h.clients j).mono hstepped.extended
  · refine forall_mem_concat ?_ hkept
    intro d hd j name hknows
    exact hkept j name (h.kept d hd j name hknows)
  · exact forall_mem_concat h.before h.clients

/-- **The directories agree in every run** with at most `2 ^ 32` registrations in which the packets
fit the buffers and every list is read far enough to have the names the client knows. -/
theorem directories_of_run {ids : Nat → UserId} {events : List (Nat × ClientEvent)}
    {s : Deployment} {log : List (Entry Deployment (Nat × ClientEvent) Unit)}
    (hrun : run step (start ids) events = .ok (s, log))
    (hregistrations : registrations events ≤ 2 ^ 32)
    (hfits : Along step Fits (start ids) events) (hkeeps : Along step Keeps (start ids) events) :
    Agree s log := by
  have hinv := run_induction_of_ok (I := Inv)
    (fun s log e rest s' _ hI hp hstep => hI.step hp.1 hp.2 hstep) (Inv.start hregistrations ids)
    (hfits.and hkeeps) hrun
  rw [List.nil_append] at hinv
  refine ⟨fun k => (hinv.clients k).mirrored, ?_, ?_, hinv.kept, ?_⟩
  · intro k name id hid
    exact ((hinv.clients k).known name id hid).1
  · intro k name id hname
    have hid := ((hinv.clients k).mirrored id name).mp hname
    exact ((hinv.clients k).known name id hid).1
  · intro e he k msg targetUser _ hchat
    have hknows := (hinv.before e he k).chatting targetUser hchat
    exact ⟨hknows, App.chatRequest_of_knows hknows msg⟩

/-- Three users, two of one name; the first of them polls before and after the third registers,
and chats under the name that both have. -/
theorem directories_namesakes :
    let events : List (Nat × ClientEvent) :=
      [(0, .register [0x41]), (1, .register [0x42]), (0, .registered), (1, .registered),
        (0, .poll (.ascending _ _)), (2, .register [0x42]), (0, .polled (.ascending _ _)),
        (0, .openChat [0x42]), (2, .registered), (0, .poll (.ascending _ _)), (0, .line [0x68]),
        (0, .polled (.ascending _ _)), (0, .line [0x69])]
    registrations events ≤ 2 ^ 32 ∧
      ∃ s log, run step (start fun _ => 7) events = .ok (s, log) ∧ Agree s log := by
  intro events
  have hregistrations : registrations events ≤ 2 ^ 32 := by
    show 3 ≤ 2 ^ 32
    decide
  refine ⟨hregistrations, ?_⟩
  have hok : (run step (start fun _ => 7) events).map (fun _ => true) = .ok true := by
    decide +kernel
  obtain ⟨⟨s, log⟩, hrun, -⟩ := map_eq_ok.mp hok
  exact ⟨s, log, hrun, directories_of_run hrun hregistrations (by decide +kernel)
    (by decide +kernel)⟩

/-- The third user is called by the byte 0xC3, which is no UTF-8 (an e with an acute accent, of
which a DEL has deleted the second byte). The server lists it before the second user, whom the
first knows and chats with: the parse of the response stops behind 0xC3, the second user goes from
the directory, and the next line enters the name again, under the id 0. -/
theorem not_agree_cut_off :
    let events : List (Nat × ClientEvent) :=
      [(0, .register [0x41]), (1, .register [0x42]), (0, .registered),
        (0, .poll (.descending _ _)), (0, .polled (.ascending _ _)), (0, .openChat [0x42]),
        (2, .register [0xC3]), (0, .poll (.descending _ _)), (0, .polled (.ascending _ _)),
        (0, .line [0x68])]
    registrations events ≤ 2 ^ 32 ∧ Along step Fits (start fun _ => 7) events ∧
      ∃ s log, run step (start fun _ => 7) events = .ok (s, log) ∧ ¬Agree s log := by
  intro events
  have hregistrations : registrations events ≤ 2 ^ 32 := by
    show 3 ≤ 2 ^ 32
    decide
  have hfits : Along step Fits (start fun _ => 7) events := by decide +kernel
  refine ⟨hregistrations, hfits, ?_⟩
  -- What the last line finds in the directory, and what it leaves there.
  have hok : (run step (start fun _ => 7) events).map (fun out =>
      (out.2.map fun e => (e.before.clients 0).app.nameToId[([0x42] : Bytes)]?,
        (out.1.clients 0).app.nameToId[([0x42] : Bytes)]?, out.1.db.nameOf 0))
      = .ok ([none, none, none, none, none, some 1, some 1, some 1, some 1, none], some 0,
          some [0x41]) := by
    decide +kernel
  obtain ⟨⟨s, log⟩, hrun, hout⟩ := map_eq_ok.mp hok
  refine ⟨s, log, hrun, fun hagree => ?_⟩
  simp only [Prod.mk.injEq] at hout
  obtain ⟨-, hleft, hname⟩ := hout
  have hname' := hagree.nameToId 0 [0x42] 0 hleft
  rw [hname] at hname'
  cases hname'

end Deployment

end ChatApp
