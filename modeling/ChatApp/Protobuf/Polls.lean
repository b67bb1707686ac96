import ChatApp.Client.Directory
import ChatApp.Protobuf.Identity

set_option autoImplicit false

/-! # What the polls act on

The poll for users looks at the response value alone, where an absent one reads as zero, the
value of a positive response, and the poll for messages looks at nothing. So a packet of any
other type, or of no bytes at all, is taken for a list of nobody (`usersGuarded_iff`), and
messages are shown whatever comes with them (`messagesGuarded_iff`).
-/

namespace ChatApp

open Lib Lib.Wire Lib.Wire.Message

/-! ## Valid responses -/

/-- A positive response to the poll for users. -/
def Mcc.Packet.ListsUsers (p : Mcc.Packet) : Prop :=
  p.hdr.bind (·.packetType) = some .respUsers ∧ p.respUsers.bind (·.respValue) = some 0

/-- A positive response to the poll for messages. -/
def Mcc.Packet.BringsMessages (p : Mcc.Packet) : Prop :=
  p.hdr.bind (·.packetType) = some .respRecv ∧ p.respRecv.bind (·.respValue) = some 0

instance (p : Mcc.Packet) : Decidable p.ListsUsers := inferInstanceAs (Decidable (_ ∧ _))

instance (p : Mcc.Packet) : Decidable p.BringsMessages := inferInstanceAs (Decidable (_ ∧ _))

namespace App

/-- The receive succeeds, and the bytes decode. -/
def Arrives (recvs : List Recv) : Prop :=
  ∃ bs, arrived bufferSize recvs = some bs ∧ bs ≠ [] ∧
    (parseFromArray bs : Mcc.Packet × Bool).2 = true

section Rounds

variable (iter : Traversal Bytes UserId) (app : App) (rxBuffer txBuffer : Bytes)
  (recvs : List Recv)

/-- A round of `periodicGetOnlineUsers` changes the maps on a valid response only. -/
def UsersGuarded : Prop :=
  ∀ p app' rxBuffer' out,
    (app.roundOnlineUsers iter rxBuffer txBuffer recvs).2 = some (p, app', rxBuffer', out) →
      (app'.nameToId = app.nameToId ∧ app'.idToName = app.idToName) ∨
        (Arrives recvs ∧ p.ListsUsers)

/-- A round of `periodicGetMessages` shows messages on a valid response only. -/
def MessagesGuarded : Prop :=
  ∀ p rxBuffer' out,
    (app.roundMessages rxBuffer txBuffer recvs).2 = some (p, rxBuffer', out) →
      out = [] ∨ (Arrives recvs ∧ p.BringsMessages)

/-! ## The poll for users -/

/-- The id a response lists a name with: that of the last user of the name. -/
def lastListed (p : Mcc.Packet) (name : Bytes) : Option UserId :=
  ((listedUsers p).reverse.find? (fun user => user.username.getD [] = name)).map
    (fun user => user.userId.getD 0)

/-- The map a response describes is the one the application has if it has the names listed,
each with its last id. -/
theorem newNameToId_eq_iff (p : Mcc.Packet) :
    newNameToId p = app.nameToId ↔ ∀ name, app.nameToId[name]? = lastListed p name := by
  have hlookup (name : Bytes) : (newNameToId p)[name]? = lastListed p name := by
    rw [newNameToId, UnorderedMap.getElem?_foldl_insert_eq]
    simp [lastListed, listedUsers]
  constructor
  · intro heq name
    rw [← heq, hlookup]
  · intro hall
    refine Std.ExtTreeMap.ext_getElem? (fun name => ?_)
    rw [hlookup, hall]

/-- The maps stay as they are if the response value is negative, or nothing in the list is
new. -/
theorem updateOnlineUsers_unchanged_iff (p : Mcc.Packet) :
    ((app.updateOnlineUsers iter p).1.nameToId = app.nameToId ∧
        (app.updateOnlineUsers iter p).1.idToName = app.idToName) ↔
      ¬Positive p ∨ ∀ name, app.nameToId[name]? = lastListed p name := by
  rw [← newNameToId_eq_iff]
  constructor
  · rintro ⟨hnameToId, -⟩
    by_contra h
    obtain ⟨hpositive, hnew⟩ := not_or.mp h
    rw [updateOnlineUsers_of_new iter (not_not.mp hpositive) hnew] at hnameToId
    exact hnew hnameToId
  · intro h
    rw [updateOnlineUsers_of_same iter h]
    exact ⟨rfl, rfl⟩

/-- **The poll for users acts on valid responses only**, as long as any other response has a
negative value or lists what is known already. -/
theorem usersGuarded_iff :
    app.UsersGuarded iter rxBuffer txBuffer recvs ↔
      ∀ p ∈ decodedFrom rxBuffer recvs, (Arrives recvs ∧ p.ListsUsers) ∨ ¬Positive p ∨
        ∀ name, app.nameToId[name]? = lastListed p name := by
  rw [UsersGuarded, decodedFrom]
  cases hreceive : receive rxBuffer recvs with
  | none => simp [roundOnlineUsers, hreceive]
  | some received =>
      obtain ⟨p, rxBuffer'⟩ := received
      have hround : (app.roundOnlineUsers iter rxBuffer txBuffer recvs).2
          = some (p, (app.updateOnlineUsers iter p).1, rxBuffer',
            (app.updateOnlineUsers iter p).2) := by
        rw [roundOnlineUsers, hreceive]
        rfl
      rw [hround]
      simp only [Option.map_some, Option.mem_some_iff, forall_eq']
      rw [← updateOnlineUsers_unchanged_iff iter app p, or_comm]
      constructor
      · intro h
        exact h _ _ _ _ rfl
      · rintro h _ _ _ _ ⟨⟩
        exact h

/-! ## The poll for messages -/

/-- **The poll for messages acts on valid responses only**, as long as no other response has
messages in it. -/
theorem messagesGuarded_iff :
    app.MessagesGuarded rxBuffer txBuffer recvs ↔
      ∀ p ∈ decodedFrom rxBuffer recvs, (Arrives recvs ∧ p.BringsMessages) ∨
        (p.respRecv.getD {}).messages = [] := by
  rw [MessagesGuarded, decodedFrom]
  cases hreceive : receive rxBuffer recvs with
  | none => simp [roundMessages, hreceive]
  | some received =>
      obtain ⟨p, rxBuffer'⟩ := received
      have hround : (app.roundMessages rxBuffer txBuffer recvs).2
          = some (p, rxBuffer', app.showMessages p) := by
        rw [roundMessages, hreceive]
        rfl
      have hshown : app.showMessages p = [] ↔ (p.respRecv.getD {}).messages = [] :=
        List.map_eq_nil_iff
      rw [hround]
      simp only [Option.map_some, Option.mem_some_iff, forall_eq']
      rw [← hshown, or_comm]
      constructor
      · intro h
        exact h _ _ _ rfl
      · rintro h _ _ _ ⟨⟩
        exact h

/-! ## Both polls -/

/-- Of each poll: on which responses it acts although they are no valid ones. -/
theorem pollsGuarded_iff :
    (app.UsersGuarded iter rxBuffer txBuffer recvs ↔
      ∀ p ∈ decodedFrom rxBuffer recvs, (Arrives recvs ∧ p.ListsUsers) ∨ ¬Positive p ∨
        ∀ name, app.nameToId[name]? = lastListed p name) ∧
    (app.MessagesGuarded rxBuffer txBuffer recvs ↔
      ∀ p ∈ decodedFrom rxBuffer recvs, (Arrives recvs ∧ p.BringsMessages) ∨
        (p.respRecv.getD {}).messages = []) :=
  ⟨usersGuarded_iff iter app rxBuffer txBuffer recvs,
    messagesGuarded_iff app rxBuffer txBuffer recvs⟩

end Rounds

/-- The poll for users is answered with the header of another response, and the one user known
is forgotten; the poll for messages with a negative response, and the message in it is
shown. -/
theorem not_pollsGuarded_wrong_responses :
    ¬App.UsersGuarded (.ascending _ _) { nameToId := (∅ : UnorderedMap Bytes UserId).insert [66] 1 }
        (List.replicate bufferSize 0) (List.replicate bufferSize 0) [.data [10, 2, 8, 7]] ∧
      ¬App.MessagesGuarded {} (List.replicate bufferSize 0) (List.replicate bufferSize 0)
        [.data [10, 2, 8, 7, 74, 9, 8, 1, 18, 5, 8, 1, 18, 1, 104]] := by
  constructor
  · intro hguarded
    have hdecoded : decodedFrom (List.replicate bufferSize 0) [.data [10, 2, 8, 7]]
        = some { hdr := some { packetType := some .respRecv } } := by
      decide +kernel
    rcases (usersGuarded_iff _ _ _ _ _).mp hguarded _ hdecoded with ⟨-, hlists⟩ | hneg | hsame
    · exact absurd hlists (by decide)
    · exact hneg rfl
    · have hknown := hsame [66]
      simp [lastListed, listedUsers] at hknown
  · intro hguarded
    have hdecoded : decodedFrom (List.replicate bufferSize 0)
        [.data [10, 2, 8, 7, 74, 9, 8, 1, 18, 5, 8, 1, 18, 1, 104]]
        = some
          { hdr := some { packetType := some .respRecv }
            respRecv := some
              { respValue := some 1
                messages := [{ userId := some 1, message := some [104] }] } } := by
      decide +kernel
    rcases (messagesGuarded_iff _ _ _ _).mp hguarded _ hdecoded with ⟨-, hbrings⟩ | hnone
    · exact absurd hbrings (by decide)
    · cases hnone

end App

end ChatApp
