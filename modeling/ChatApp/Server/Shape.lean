import ChatApp.Server.Ids

set_option autoImplicit false

/-! # The shape of a database

As long as there are ids to give, the users of a database are those registered, in order: the
`i`-th has the id `i` and the name it was registered with (`Named`). The queues hold messages
of users only (`Signed`), if nothing else is put into them.

Both survive every operation, the subscripts included, which would insert an entry for a
missing id: each of them is behind a test that the id is there.
-/

namespace ChatApp

open Lib

namespace Database

/-- The users are the ones registered under the names, in that order. -/
structure Named (names : List Bytes) (db : Database) : Prop where
  counted : Counted db names.length
  username : ∀ id, db.nameOf id = names[id.toNat]?

/-- Every message that waits has a text and comes from a user. -/
def Signed (db : Database) : Prop :=
  ∀ id, ∀ m ∈ db.queueOf id, m.msg ≠ [] ∧ db.userExists m.senderId = true

/-- The name an operation registers. -/
def Op.username? : Op → Option Bytes
  | .register username => some username
  | .queue _ _ => none
  | .clear _ => none

/-- A message that is queued has a text and comes from a user. -/
def Op.Proper (db : Database) : Op → Prop
  | .register _ => True
  | .queue _ m => m.msg ≠ [] ∧ db.userExists m.senderId = true
  | .clear _ => True

/-- A run has a name for each of its registrations. -/
theorem length_filterMap_username? (ops : List Op) :
    (ops.filterMap Op.username?).length = registrations ops := by
  induction ops with
  | nil => rfl
  | cons op ops ih =>
      rw [registrations, List.countP_cons, ← registrations, ← ih]
      cases op <;> rfl

/-! ## The users -/

variable {db : Database} {names : List Bytes}

theorem Named.empty : Named [] empty where
  counted := .empty
  username := by
    intro id
    rw [nameOf_empty]
    rfl

theorem Named.register (h : Named names db) (hlt : names.length < 2 ^ 32) (username : Bytes) :
    Named (names ++ [username]) (db.registerUser username).2 where
  counted := by
    rw [List.length_append, List.length_singleton]
    exact h.counted.register username
  username := by
    intro id
    have hnext : db.nextId = id ↔ id.toNat = names.length := by
      rw [← UInt32.toNat_inj, h.counted.nextId_eq, Nat.mod_eq_of_lt hlt, eq_comm]
    rw [nameOf_registerUser, h.username, List.getElem?_append]
    by_cases hid : id.toNat = names.length
    · rw [if_pos (hnext.mpr hid), hid, if_neg (Nat.lt_irrefl _), Nat.sub_self]
      rfl
    · rw [if_neg (mt hnext.mp hid)]
      split_ifs with hold
      · rfl
      · -- An id beyond the new one has no name in either list.
        have hbeyond : names.length + 1 ≤ id.toNat := by omega
        rw [List.getElem?_eq_none (by omega), List.getElem?_eq_none]
        rw [List.length_singleton]
        omega

/-- **What an operation does to the users**: a registration adds its own, the others keep
them. -/
theorem Named.apply (h : Named names db) {op : Op}
    (hle : (names ++ op.username?.toList).length ≤ 2 ^ 32) :
    Named (names ++ op.username?.toList) (Op.apply db op) := by
  cases op with
  | register username =>
      refine h.register ?_ username
      simp only [Op.username?, Option.toList_some, List.length_append, List.length_singleton] at hle
      omega
  | queue recepientId m =>
      rw [Op.username?, Option.toList_none, List.append_nil]
      refine ⟨h.counted.queue recepientId m, ?_⟩
      intro id
      exact (nameOf_queueMsg db recepientId m id).trans (h.username id)
  | clear id =>
      rw [Op.username?, Option.toList_none, List.append_nil]
      refine ⟨h.counted.clear id, ?_⟩
      intro k
      rw [← h.username k, Op.apply]
      split_ifs with hex
      · exact nameOf_clearMsgs hex k
      · rfl

/-- **What a run does to the users**: they are those registered, in the order of the run. -/
theorem Named.foldl (h : Named names db) (ops : List Op)
    (hle : (names ++ ops.filterMap Op.username?).length ≤ 2 ^ 32) :
    Named (names ++ ops.filterMap Op.username?) (ops.foldl Op.apply db) := by
  induction ops generalizing db names with
  | nil =>
      rw [List.filterMap_nil, List.append_nil]
      exact h
  | cons op ops ih =>
      have hsplit : names ++ (op :: ops).filterMap Op.username?
          = names ++ op.username?.toList ++ ops.filterMap Op.username? := by
        rw [List.append_assoc]
        cases op <;> rfl
      rw [hsplit] at hle ⊢
      refine ih (h.apply ?_) hle
      rw [List.length_append] at hle
      omega

/-- The count the database reports. -/
theorem Named.getNumUsers (h : Named names db) (hle : names.length ≤ 2 ^ 32) :
    db.getNumUsers.toNat = names.length % 2 ^ 32 := by
  rw [Database.getNumUsers, h.counted.size hle, UInt32.toNat_ofNat']

/-! ## The queues -/

theorem Signed.empty : Signed empty := by
  intro id m hm
  rw [queueOf_empty] at hm
  cases hm

/-- An operation registers the id it takes from the counter, or nobody. -/
theorem userExists_apply (db : Database) (op : Op) (id : UserId) :
    (Op.apply db op).userExists id = true ↔
      (op.isRegister = true ∧ db.nextId = id) ∨ db.userExists id = true := by
  cases op with
  | register username =>
      simpa [Op.apply, Op.isRegister] using db.userExists_registerUser username id
  | queue recepientId m => simp [Op.apply, Op.isRegister]
  | clear k =>
      rw [Op.apply]
      split_ifs with hex
      · simp [Op.isRegister, userExists_clearMsgs hex]
      · simp [Op.isRegister]

/-- A message that waits after an operation waited before it, or has just been queued. -/
theorem mem_queueOf_apply {op : Op} {id : UserId} {m : Msg}
    (hm : m ∈ (Op.apply db op).queueOf id) :
    m ∈ db.queueOf id ∨ ∃ recepientId, op = .queue recepientId m := by
  cases op with
  | register username =>
      rw [Op.apply, queueOf_registerUser] at hm
      split_ifs at hm with hid
      · cases hm
      · exact .inl hm
  | queue recepientId m' =>
      rw [Op.apply] at hm
      by_cases hex : db.userExists recepientId = true
      · rw [queueOf_queueMsg hex] at hm
        rcases List.mem_append.mp hm with hold | hnew
        · exact .inl hold
        · split_ifs at hnew with hid
          · exact .inr ⟨recepientId, by rw [List.mem_singleton.mp hnew]⟩
          · cases hnew
      · rw [Bool.not_eq_true, userExists_eq_false] at hex
        rw [queueMsg_of_none hex] at hm
        exact .inl hm
  | clear k =>
      rw [Op.apply] at hm
      split_ifs at hm with hex
      · rw [queueOf_clearMsgs hex] at hm
        split_ifs at hm with hid
        · cases hm
        · exact .inl hm
      · exact .inl hm

/-- **What an operation does to the queues**: it leaves no message of anybody but a user. -/
theorem Signed.apply (h : Signed db) {op : Op} (hop : op.Proper db) : Signed (Op.apply db op) := by
  intro id m hm
  have hold : m.msg ≠ [] ∧ db.userExists m.senderId = true := by
    rcases mem_queueOf_apply hm with hwaiting | ⟨recepientId, rfl⟩
    · exact h id m hwaiting
    · exact hop
  exact ⟨hold.1, (userExists_apply db op m.senderId).mpr (.inr hold.2)⟩

end Database

end ChatApp
