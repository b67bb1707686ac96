import ChatApp.Client.App
import ChatApp.Server.ServerApp

set_option autoImplicit false

/-! # Which requests the protobuf server serves

The application makes four kinds of request. A request is served if a response of its type
is sent and it has its effect (`Served`). The dispatch of the server has a case for each kind
but handlers in only two of them: registrations and Users requests are served, a Send request
is decoded and dropped, and so is a Recv request, whose handler nothing calls (`served_iff`).
-/

namespace ChatApp

open Lib Lib.Wire Lib.Wire.Message

/-! ## Requests on the wire -/

/-- The strings in a request are UTF-8, as the schema requires. -/
def Request.Utf8 : Request → Prop
  | .register username => Utf8.valid username = true
  | .send _ _ msg => Utf8.valid msg = true
  | _ => True

instance (r : Request) : Decidable r.Utf8 :=
  match r with
  | .register _ => inferInstanceAs (Decidable (_ = _))
  | .send _ _ _ => inferInstanceAs (Decidable (_ = _))
  | .users _ => .isTrue trivial
  | .recv _ => .isTrue trivial

theorem App.requestPacket_wellFormed {r : Request} (h : r.Utf8) :
    (App.requestPacket r).WellFormed := by
  cases r with
  | register username =>
      refine ⟨Mcc.Header.canonical_of_type rfl, ?_, nofun, nofun, nofun⟩
      rintro x ⟨⟩ bs ⟨⟩
      exact h
  | users id => exact ⟨Mcc.Header.canonical_of_type rfl, nofun, nofun, nofun, nofun⟩
  | send sourceId targetId msg =>
      refine ⟨Mcc.Header.canonical_of_type rfl, nofun, ?_, nofun, nofun⟩
      rintro x ⟨⟩ bs ⟨⟩
      exact h
  | recv id => exact ⟨Mcc.Header.canonical_of_type rfl, nofun, nofun, nofun, nofun⟩

namespace ServerApp

/-- A request that arrives in one piece is the packet the server acts on. -/
theorem handleRequest_of_request {iter : Traversal UserId UserMetadata} {db : Database}
    {r : Request} (hutf8 : r.Utf8) {recvs : List Recv}
    (h : arrived bufferSize recvs = some (serialize (App.requestPacket r))) :
    handleRequest iter db recvs = some (handlePacket iter db (App.requestPacket r)) := by
  have hsize : byteSizeLong (App.requestPacket r) < 2 ^ 35 :=
    lt_of_le_of_lt (arrived_length_le h) (by decide)
  exact handleRequest_of_arrived iter db
    (Mcc.Packet.sound (App.requestPacket_wellFormed hutf8) hsize) h

/-! ## Served requests -/

/-- The type of the response to a request. -/
def responseType : Request → Mcc.PacketType
  | .register _ => .respRegister
  | .users _ => .respUsers
  | .send _ _ _ => .respSend
  | .recv _ => .respRecv

/-- What a request brings about: a Send request between two users appends its message to the
target's queue and leaves every other user alone, a Recv request by a user is answered with
the messages that wait for it. -/
def Effect (db db' : Database) (resp : Mcc.Packet) : Request → Prop
  | .send sourceId targetId msg =>
      db.userExists sourceId = true → db.userExists targetId = true →
        ∀ id, db'.find id = (db.find id).map fun u =>
          if id = targetId then { u with msgQ := u.msgQ ++ [⟨sourceId, msg⟩] } else u
  | .recv id =>
      db.userExists id = true → ∃ x, resp.respRecv = some x ∧
        x.messages = (db.queueOf id).map userMessage
  | _ => True

/-- The connection comes to its end with a response of the request's type sent, not empty,
and the request has its effect. -/
def Served (iter : Traversal UserId UserMetadata) (db : Database) (r : Request)
    (recvs : List Recv) : Prop :=
  ∃ h resp, handleRequest iter db recvs = some h ∧ h.sent = .ok (serialize resp) ∧
    serialize resp ≠ [] ∧ resp.hdr = some { packetType := some (responseType r) } ∧
    Effect db h.db resp r

variable {iter : Traversal UserId UserMetadata} {db : Database} {r : Request}
  {recvs : List Recv}

/-- **Exactly the registrations and the Users requests are served.** -/
theorem served_iff (hutf8 : r.Utf8)
    (harrived : arrived bufferSize recvs = some (serialize (App.requestPacket r)))
    (hfits : ∀ resp db', answer iter db (App.requestPacket r) = some (resp, db') →
      byteSizeLong resp ≤ bufferSize) :
    Served iter db r recvs ↔ (∃ username, r = .register username) ∨ ∃ id, r = .users id := by
  have hhandle : handleRequest iter db recvs = some (handlePacket iter db (App.requestPacket r)) :=
    handleRequest_of_request hutf8 harrived
  constructor
  · rintro ⟨h, resp, hh, hsent, hne, -⟩
    obtain rfl := Option.some.inj (hhandle.symm.trans hh)
    cases r with
    | register username => exact .inl ⟨username, rfl⟩
    | users id => exact .inr ⟨id, rfl⟩
    -- Nothing is built for the other two, so nothing is sent.
    | send sourceId targetId msg =>
        rw [handlePacket_of_none iter db rfl] at hsent
        exact absurd (Except.ok.inj hsent).symm hne
    | recv id =>
        rw [handlePacket_of_none iter db rfl] at hsent
        exact absurd (Except.ok.inj hsent).symm hne
  · rintro (⟨username, rfl⟩ | ⟨id, rfl⟩)
    · have hans : answer iter db (App.requestPacket (.register username))
          = some (registerResponse (db.registerUser username).1, (db.registerUser username).2) :=
        rfl
      exact ⟨_, _, hhandle, sent_of_some iter db hans (hfits _ _ hans),
        Mcc.Packet.serialize_ne_nil rfl, rfl, trivial⟩
    · have hans : answer iter db (App.requestPacket (.users id))
          = some (usersResponse iter db id, db) := rfl
      exact ⟨_, _, hhandle, sent_of_some iter db hans (hfits _ _ hans),
        Mcc.Packet.serialize_ne_nil rfl, rfl, trivial⟩

theorem served_register_first_user :
    Served (.ascending _ _) .empty (.register [65])
      [.wouldBlock, .data (serialize (App.requestPacket (.register [65])))] := by
  refine (served_iff (by decide) (by decide) ?_).mpr (.inl ⟨[65], rfl⟩)
  rintro resp db' ⟨⟩
  decide

/-- User 0 sends user 1 a message. -/
theorem not_served_send :
    let db := ((Database.empty.registerUser [65]).2.registerUser [66]).2
    let r := Request.send 0 1 [104, 105]
    Database.Reachable db ∧ r.Utf8 ∧
      ¬Served (.ascending _ _) db r [.data (serialize (App.requestPacket r))] := by
  refine ⟨(Database.Reachable.empty.apply (.register [65])).apply (.register [66]), by decide, ?_⟩
  rintro ⟨h, resp, hh, hsent, hne, -⟩
  have hnone : (handleRequest (.ascending _ _)
      ((Database.empty.registerUser [65]).2.registerUser [66]).2
      [.data (serialize (App.requestPacket (.send 0 1 [104, 105])))]).map Handled.sent
      = some (.ok []) := by decide +kernel
  rw [hh, Option.map_some, hsent, Option.some.injEq, Except.ok.injEq] at hnone
  exact hne hnone

end ServerApp

end ChatApp
