import ChatApp.Server.Shape
import ChatApp.Spec.Mailboxes

set_option autoImplicit false

/-! # The database as mailboxes

A database stands for the mailboxes of those who registered, an id for the number of a
registration (`Represents`). Up to `2 ^ 32` registrations no two have the same id, and the
operations of the database are those of the mailboxes.
-/

namespace ChatApp

open Lib Database

/-- A message, as a text with its sender's number. -/
def Msg.text (m : Msg) : ℕ × Bytes := (m.senderId.toNat, m.msg)

/-- The database of the mailboxes `t`. -/
structure Represents (db : Database) (t : Mailboxes Bytes Bytes) : Prop where
  named : db.Named t.names
  queue : ∀ id, (db.queueOf id).map Msg.text = t.box id.toNat

variable {db : Database} {t : Mailboxes Bytes Bytes}

theorem Represents.empty : Represents .empty .empty := ⟨Named.empty, fun _ => rfl⟩

theorem Represents.userExists_iff (h : Represents db t) (id : UserId) :
    db.userExists id = true ↔ id.toNat < t.names.length :=
  h.named.counted.exists_iff id

theorem Represents.register (h : Represents db t) (hlt : t.names.length < 2 ^ 32)
    (username : Bytes) : Represents (db.registerUser username).2 (t.join username) where
  named := h.named.register hlt username
  queue := by
    intro id
    have hnext : db.nextId.toNat = t.names.length := by
      rw [h.named.counted.nextId_eq, Nat.mod_eq_of_lt hlt]
    show _ = t.box id.toNat
    rw [queueOf_registerUser]
    split_ifs with hid
    · rw [← hid, hnext, t.box_eq_nil _ le_rfl]
      rfl
    · exact h.queue id

theorem Represents.queueMsg (h : Represents db t) {sourceId targetId : UserId}
    (hs : sourceId.toNat < t.names.length) (ht : targetId.toNat < t.names.length) (msg : Bytes) :
    Represents (db.queueMsg targetId ⟨sourceId, msg⟩).2
      (t.put sourceId.toNat targetId.toNat msg hs ht) where
  named := ⟨h.named.counted.queue targetId _, fun id => by
    rw [nameOf_queueMsg]
    exact h.named.username id⟩
  queue := by
    intro id
    show _ = Function.update t.box targetId.toNat _ id.toNat
    rw [queueOf_queueMsg ((h.userExists_iff targetId).mpr ht), List.map_append, h.queue]
    by_cases hid : targetId = id
    · rw [if_pos hid, ← hid, Function.update_self]
      rfl
    · have hne : id.toNat ≠ targetId.toNat := fun heq => hid (UInt32.toNat_inj.mp heq.symm)
      rw [if_neg hid, Function.update_of_ne hne, List.map_nil, List.append_nil]

theorem Represents.clearMsgs (h : Represents db t) {id : UserId} (hex : db.userExists id = true) :
    Represents (db.clearMsgs id) (t.clear id.toNat) where
  named := by
    have hclear : Op.apply db (.clear id) = db.clearMsgs id := if_pos hex
    refine ⟨hclear ▸ h.named.counted.clear id, ?_⟩
    intro k
    rw [nameOf_clearMsgs hex]
    exact h.named.username k
  queue := by
    intro k
    show _ = Function.update t.box id.toNat [] k.toNat
    rw [queueOf_clearMsgs hex]
    by_cases hid : id = k
    · rw [if_pos hid, ← hid, Function.update_self]
      rfl
    · have hne : k.toNat ≠ id.toNat := fun heq => hid (UInt32.toNat_inj.mp heq.symm)
      rw [if_neg hid, Function.update_of_ne hne]
      exact h.queue k

/-- The users are the people. -/
theorem Represents.mem_others_iff (h : Represents db t) (id i : UserId) (name : Bytes) :
    (i.toNat, name) ∈ t.others id.toNat ↔ i ≠ id ∧ db.nameOf i = some name := by
  show i.toNat ≠ id.toNat ∧ t.names[i.toNat]? = some name ↔ _
  rw [h.named.username, Ne, UInt32.toNat_inj]

/-- Nobody's number is beyond the ids. -/
theorem Represents.exists_id (hle : t.names.length ≤ 2 ^ 32) {who i : ℕ} {name : Bytes}
    (hi : (i, name) ∈ t.others who) : ∃ id : UserId, id.toNat = i :=
  ⟨UInt32.ofNat i, UInt32.toNat_ofNat_of_lt'
    (lt_of_lt_of_le (List.getElem?_eq_some_iff.mp hi.2).1 hle)⟩

end ChatApp
