import ChatApp.Server.Database

set_option autoImplicit false

/-! # Operations on one queue

Queueing a message and emptying a queue change the queue of one user. Two such operations on
different users commute (`apply_comm`), and all else stays as it was: the users, their names and
the order in which they are visited, and the other queues (`onlyQueue_apply`).
-/

namespace ChatApp

open Lib

namespace Database

/-! ## Operations on one queue -/

/-- The queue an operation is about. -/
def Op.queue? : Op → Option UserId
  | .register _ => none
  | .queue recepientId _ => some recepientId
  | .clear id => some id

/-- What an operation makes of the user whose queue it is about. -/
def Op.update : Op → UserMetadata → UserMetadata
  | .register _, u => u
  | .queue _ m, u => { u with msgQ := u.msgQ ++ [m] }
  | .clear _, u => { u with msgQ := [] }

@[simp] theorem Op.update_username (op : Op) (u : UserMetadata) :
    (op.update u).username = u.username := by
  cases op <;> rfl

variable {db db' : Database} {op op' : Op} {k k' : UserId}

theorem apply_of_find {u : UserMetadata} (hk : op.queue? = some k) (h : db.find k = some u) :
    Op.apply db op = db.updateAt k op.update := by
  cases op with
  | register username => cases hk
  | queue recepientId m =>
      obtain rfl := Option.some.inj hk
      rw [Op.apply, queueMsg_of_find h]
      rfl
  | clear id =>
      obtain rfl := Option.some.inj hk
      rw [Op.apply, if_pos ((db.userExists_iff id).mpr ⟨u, h⟩)]
      rfl

theorem apply_of_none (hk : op.queue? = some k) (h : db.find k = none) : Op.apply db op = db := by
  cases op with
  | register username => cases hk
  | queue recepientId m =>
      obtain rfl := Option.some.inj hk
      rw [Op.apply, queueMsg_of_none h]
  | clear id =>
      obtain rfl := Option.some.inj hk
      rw [Op.apply, if_neg (by rw [(db.userExists_eq_false id).mpr h]; decide)]

/-- What such an operation does to every lookup. -/
theorem find_apply (hk : op.queue? = some k) (id : UserId) :
    (Op.apply db op).find id = if k = id then (db.find id).map op.update else db.find id := by
  cases h : db.find k with
  | none =>
      rw [apply_of_none hk h]
      by_cases hid : k = id
      · rw [if_pos hid, ← hid, h, Option.map_none]
      · rw [if_neg hid]
  | some u =>
      rw [apply_of_find hk h, find_updateAt h]
      by_cases hid : k = id
      · rw [if_pos hid, if_pos hid, ← hid, h, Option.map_some]
      · rw [if_neg hid, if_neg hid]

theorem nextId_apply (hk : op.queue? = some k) : (Op.apply db op).nextId = db.nextId := by
  cases h : db.find k with
  | none => rw [apply_of_none hk h]
  | some u => rw [apply_of_find hk h, updateAt_nextId]

/-- **Operations on different queues commute.** -/
theorem apply_comm (hk : op.queue? = some k) (hk' : op'.queue? = some k') (hne : k ≠ k') :
    Op.apply (Op.apply db op) op' = Op.apply (Op.apply db op') op := by
  refine ext ?_ (fun id => ?_)
  · rw [nextId_apply hk', nextId_apply hk, nextId_apply hk, nextId_apply hk']
  · rw [find_apply hk', find_apply hk, find_apply hk, find_apply hk']
    by_cases hid : k = id
    · have hid' : k' ≠ id := fun h => hne (hid.trans h.symm)
      rw [if_pos hid, if_neg hid', if_neg hid', if_pos hid]
    · rw [if_neg hid, if_neg hid]

/-! ## What stays -/

/-- The databases differ in one queue only, if at all. The order of iteration is part of what
is the same. -/
structure OnlyQueue (q : Option UserId) (db db' : Database) : Prop where
  find_eq : ∀ id, q ≠ some id → db'.find id = db.find id
  nameOf_eq : ∀ id, db'.nameOf id = db.nameOf id
  order_eq : ∀ it : Traversal UserId UserMetadata, it.Stable →
    (it.order db'.userMap).map Prod.fst = (it.order db.userMap).map Prod.fst

theorem OnlyQueue.refl (q : Option UserId) (db : Database) : OnlyQueue q db db :=
  ⟨fun _ _ => rfl, fun _ => rfl, fun _ _ => rfl⟩

theorem onlyQueue_apply (hk : op.queue? = some k) : OnlyQueue (some k) db (Op.apply db op) where
  find_eq := by
    intro id hid
    rw [find_apply hk, if_neg fun h => hid (congrArg some h)]
  nameOf_eq := by
    intro id
    rw [nameOf, nameOf, find_apply hk]
    split_ifs
    · rw [Option.map_map]
      congr 1
      funext u
      exact op.update_username u
    · rfl
  order_eq := by
    intro it hstable
    cases h : db.find k with
    | none => rw [apply_of_none hk h]
    | some u =>
        rw [apply_of_find hk h]
        exact hstable db.userMap k _ ((UnorderedMap.mem_iff_getElem? _ _).mpr ⟨u, h⟩)

theorem userExists_eq_nameOf (db : Database) (id : UserId) :
    db.userExists id = (db.nameOf id).isSome := by
  rw [userExists, nameOf, Option.isSome_map]

namespace OnlyQueue

variable {q : Option UserId}

theorem userExists_eq (h : OnlyQueue q db db') (id : UserId) :
    db'.userExists id = db.userExists id := by
  rw [userExists_eq_nameOf, userExists_eq_nameOf, h.nameOf_eq]

theorem queueOf_eq (h : OnlyQueue q db db') {id : UserId} (hid : q ≠ some id) :
    db'.queueOf id = db.queueOf id := by
  rw [queueOf, queueOf, h.find_eq id hid]

theorem getNumUsers_eq (h : OnlyQueue q db db') (it : Traversal UserId UserMetadata)
    (hstable : it.Stable) : db'.getNumUsers = db.getNumUsers := by
  have hlen := congrArg List.length (h.order_eq it hstable)
  rw [List.length_map, List.length_map, it.order_length, it.order_length] at hlen
  rw [getNumUsers, getNumUsers, hlen]

end OnlyQueue

/-- The users visited and their names, from the ids and the names. -/
theorem map_order (db : Database) (it : Traversal UserId UserMetadata) :
    (it.order db.userMap).map (fun e => (e.1, e.2.username))
      = ((it.order db.userMap).map Prod.fst).map (fun id => (id, (db.nameOf id).getD [])) := by
  rw [List.map_map]
  refine List.map_congr_left fun e he => ?_
  have hfind : db.find e.1 = some e.2 := (it.mem_order_iff _ _ _).mp he
  rw [Function.comp_apply, nameOf, hfind]
  rfl

end Database

end ChatApp
