import ChatApp.Common.Common
import ChatApp.Lib.UnorderedMap

set_option autoImplicit false

/-! # The server's database (`server/database.h`, `server/database.cpp`)

The users by id, each with a username and the queue of messages waiting for it, and the
counter the ids are taken from. The counter is a 32-bit word and wraps.

Lookups go through `find`. The effect of each operation on every lookup is stated once
(`find_registerUser`, `find_queueMsg`, `find_clearMsgs`); later results use these and never
the map underneath.
-/

namespace ChatApp

open Lib

structure Database where
  nextId : UserId := 0
  userMap : UnorderedMap UserId UserMetadata := ∅
  deriving DecidableEq

namespace Database

/-- The singleton as the server starts. -/
def empty : Database := {}

/-- The user stored under an id. -/
def find (db : Database) (id : UserId) : Option UserMetadata := db.userMap[id]?

/-- The entry under `nextId` is assigned, whether or not there is one, and the counter moves
on. -/
def registerUser (db : Database) (username : Bytes) : UserId × Database :=
  (db.nextId, { nextId := db.nextId + 1, userMap := db.userMap.insert db.nextId ⟨username, []⟩ })

/-- The update of a user through the subscript, which inserts a missing entry. -/
def updateAt (db : Database) (id : UserId) (f : UserMetadata → UserMetadata) : Database :=
  { db with userMap := db.userMap.subscript id f }

def queueMsg (db : Database) (recepientId : UserId) (m : Msg) : Bool × Database :=
  match db.find recepientId with
  | none => (false, db)
  | some _ => (true, db.updateAt recepientId (fun u => { u with msgQ := u.msgQ ++ [m] }))

def userExists (db : Database) (id : UserId) : Bool := (db.find id).isSome

def getNumUsers (db : Database) : UserId := UInt32.ofNat db.userMap.size

/-- `operator[]`, read: the user under an id, a fresh entry if there was none, and the
database in which the entry now is. -/
def get (db : Database) (id : UserId) : UserMetadata × Database :=
  ((db.find id).getD default, db.updateAt id (fun u => u))

/-- `db_[id].msg_q.clear()`. -/
def clearMsgs (db : Database) (id : UserId) : Database :=
  db.updateAt id (fun u => { u with msgQ := [] })

/-- The username under an id, and the database. The lookup is compared with itself where it
should be compared with `end()`. -/
def getUsername (db : Database) (id : UserId) : Bytes × Database :=
  if db.find id ≠ db.find id then
    let (user, db) := db.get id
    (user.username, db)
  else ([], db)

/-! ## Lookups after each operation -/

@[ext] theorem ext {db db' : Database} (hnext : db.nextId = db'.nextId)
    (hfind : ∀ id, db.find id = db'.find id) : db = db' := by
  obtain ⟨n, m⟩ := db
  obtain ⟨n', m'⟩ := db'
  have hm : m = m' := Std.ExtTreeMap.ext_getElem? hfind
  have hn : n = n' := hnext
  rw [hm, hn]

@[simp] theorem find_empty (id : UserId) : empty.find id = none := by
  simp [find, empty]

theorem find_registerUser (db : Database) (username : Bytes) (id : UserId) :
    (db.registerUser username).2.find id
      = if db.nextId = id then some ⟨username, []⟩ else db.find id :=
  UnorderedMap.getElem?_insert_eq _ _ _ _

theorem find_updateAt {db : Database} {k : UserId} {u : UserMetadata} (h : db.find k = some u)
    (f : UserMetadata → UserMetadata) (id : UserId) :
    (db.updateAt k f).find id = if k = id then some (f u) else db.find id := by
  by_cases hk : k = id
  · subst hk
    rw [if_pos rfl]
    exact UnorderedMap.getElem?_subscript_of_some _ f h
  · rw [if_neg hk]
    exact UnorderedMap.getElem?_subscript_of_ne _ f hk

theorem queueMsg_of_find {db : Database} {k : UserId} {u : UserMetadata} (h : db.find k = some u)
    (m : Msg) :
    db.queueMsg k m = (true, db.updateAt k (fun u => { u with msgQ := u.msgQ ++ [m] })) := by
  simp only [queueMsg, h]

theorem queueMsg_of_none {db : Database} {k : UserId} (h : db.find k = none) (m : Msg) :
    db.queueMsg k m = (false, db) := by
  simp only [queueMsg, h]

@[simp] theorem queueMsg_nextId (db : Database) (k : UserId) (m : Msg) :
    (db.queueMsg k m).2.nextId = db.nextId := by
  unfold queueMsg
  cases db.find k <;> rfl

@[simp] theorem updateAt_nextId (db : Database) (k : UserId) (f : UserMetadata → UserMetadata) :
    (db.updateAt k f).nextId = db.nextId := rfl

@[simp] theorem clearMsgs_nextId (db : Database) (k : UserId) :
    (db.clearMsgs k).nextId = db.nextId := rfl

theorem find_clearMsgs {db : Database} {k : UserId} {u : UserMetadata} (h : db.find k = some u)
    (id : UserId) :
    (db.clearMsgs k).find id = if k = id then some { u with msgQ := [] } else db.find id :=
  find_updateAt h _ id

/-- Reading a stored user through the subscript changes nothing. -/
theorem get_of_find {db : Database} {id : UserId} {u : UserMetadata} (h : db.find id = some u) :
    db.get id = (u, db) := by
  have hdb : db.updateAt id (fun u => u) = db := by
    refine ext rfl (fun a => ?_)
    rw [find_updateAt h]
    by_cases ha : id = a
    · rw [if_pos ha, ← ha, h]
    · rw [if_neg ha]
  rw [get, h, hdb, Option.getD_some]

theorem userExists_iff (db : Database) (id : UserId) :
    db.userExists id = true ↔ ∃ u, db.find id = some u :=
  Option.isSome_iff_exists

theorem userExists_eq_false (db : Database) (id : UserId) :
    db.userExists id = false ↔ db.find id = none := by
  simp [userExists]

/-- An operation that updates one stored user keeps who exists. -/
theorem userExists_updateAt {db : Database} {k : UserId} {u : UserMetadata}
    (h : db.find k = some u) (f : UserMetadata → UserMetadata) (id : UserId) :
    (db.updateAt k f).userExists id = db.userExists id := by
  unfold userExists
  rw [find_updateAt h]
  by_cases hk : k = id
  · rw [if_pos hk, ← hk, h]; rfl
  · rw [if_neg hk]

/-- The messages waiting for an id; none for an id nobody holds. -/
def queueOf (db : Database) (id : UserId) : List Msg := ((db.find id).map (·.msgQ)).getD []

theorem queueOf_of_find {db : Database} {id : UserId} {u : UserMetadata}
    (h : db.find id = some u) : db.queueOf id = u.msgQ := by
  rw [queueOf, h]; rfl

theorem queueOf_of_none {db : Database} {id : UserId} (h : db.find id = none) :
    db.queueOf id = [] := by
  rw [queueOf, h]; rfl

@[simp] theorem queueOf_empty (id : UserId) : empty.queueOf id = [] :=
  queueOf_of_none (find_empty id)

/-- A registration empties the queue of the id it assigns. -/
theorem queueOf_registerUser (db : Database) (username : Bytes) (id : UserId) :
    (db.registerUser username).2.queueOf id = if db.nextId = id then [] else db.queueOf id := by
  unfold queueOf
  rw [find_registerUser]
  by_cases h : db.nextId = id
  · rw [if_pos h, if_pos h]; rfl
  · rw [if_neg h, if_neg h]

theorem userExists_registerUser (db : Database) (username : Bytes) (id : UserId) :
    (db.registerUser username).2.userExists id = true ↔
      db.nextId = id ∨ db.userExists id = true := by
  unfold userExists
  rw [find_registerUser]
  by_cases h : db.nextId = id
  · simp [h]
  · simp [h]

theorem queueOf_queueMsg {db : Database} {k : UserId} (h : db.userExists k = true) (m : Msg)
    (id : UserId) :
    (db.queueMsg k m).2.queueOf id = db.queueOf id ++ if k = id then [m] else [] := by
  obtain ⟨u, hu⟩ := (db.userExists_iff k).mp h
  rw [queueMsg_of_find hu]
  unfold queueOf
  rw [find_updateAt hu]
  by_cases hk : k = id
  · subst hk
    rw [if_pos rfl, if_pos rfl, hu]; rfl
  · rw [if_neg hk, if_neg hk, List.append_nil]

@[simp] theorem userExists_queueMsg (db : Database) (k : UserId) (m : Msg) (id : UserId) :
    (db.queueMsg k m).2.userExists id = db.userExists id := by
  cases h : db.find k with
  | none => rw [queueMsg_of_none h]
  | some u =>
      rw [queueMsg_of_find h]
      exact userExists_updateAt h _ id

theorem queueOf_clearMsgs {db : Database} {k : UserId} (h : db.userExists k = true)
    (id : UserId) : (db.clearMsgs k).queueOf id = if k = id then [] else db.queueOf id := by
  obtain ⟨u, hu⟩ := (db.userExists_iff k).mp h
  unfold queueOf
  rw [find_clearMsgs hu]
  by_cases hk : k = id
  · rw [if_pos hk, if_pos hk]; rfl
  · rw [if_neg hk, if_neg hk]

theorem userExists_clearMsgs {db : Database} {k : UserId} (h : db.userExists k = true)
    (id : UserId) : (db.clearMsgs k).userExists id = db.userExists id := by
  obtain ⟨u, hu⟩ := (db.userExists_iff k).mp h
  exact userExists_updateAt hu _ id

/-- The username stored under an id. -/
def nameOf (db : Database) (id : UserId) : Option Bytes := (db.find id).map (·.username)

@[simp] theorem nameOf_empty (id : UserId) : empty.nameOf id = none := by
  rw [nameOf, find_empty]
  rfl

theorem nameOf_registerUser (db : Database) (username : Bytes) (id : UserId) :
    (db.registerUser username).2.nameOf id
      = if db.nextId = id then some username else db.nameOf id := by
  unfold nameOf
  rw [find_registerUser]
  by_cases h : db.nextId = id
  · rw [if_pos h, if_pos h]
    rfl
  · rw [if_neg h, if_neg h]

/-- An operation on a stored user's queue keeps the names. -/
theorem nameOf_updateAt {db : Database} {k : UserId} {u : UserMetadata} (h : db.find k = some u)
    {f : UserMetadata → UserMetadata} (hf : (f u).username = u.username) (id : UserId) :
    (db.updateAt k f).nameOf id = db.nameOf id := by
  unfold nameOf
  rw [find_updateAt h]
  by_cases hk : k = id
  · rw [if_pos hk, ← hk, h, Option.map_some, Option.map_some, hf]
  · rw [if_neg hk]

@[simp] theorem nameOf_queueMsg (db : Database) (k : UserId) (m : Msg) (id : UserId) :
    (db.queueMsg k m).2.nameOf id = db.nameOf id := by
  cases h : db.find k with
  | none => rw [queueMsg_of_none h]
  | some u =>
      rw [queueMsg_of_find h]
      exact nameOf_updateAt h rfl id

theorem nameOf_clearMsgs {db : Database} {k : UserId} (h : db.userExists k = true)
    (id : UserId) : (db.clearMsgs k).nameOf id = db.nameOf id := by
  rcases (db.userExists_iff k).mp h with ⟨u, hu⟩
  exact nameOf_updateAt hu rfl id

/-! ## Reachable databases -/

/-- An operation on the database, as its callers perform them: a registration, a message
queued, a queue emptied. The last is only performed on an id that exists. -/
inductive Op
  | register (username : Bytes)
  | queue (recepientId : UserId) (m : Msg)
  | clear (id : UserId)
  deriving Repr, DecidableEq

def Op.apply (db : Database) : Op → Database
  | .register username => (db.registerUser username).2
  | .queue recepientId m => (db.queueMsg recepientId m).2
  | .clear id => if db.userExists id then db.clearMsgs id else db

/-- A database some sequence of operations leads to. -/
def Reachable (db : Database) : Prop := ∃ ops : List Op, ops.foldl Op.apply empty = db

theorem Reachable.empty : Reachable empty := ⟨[], rfl⟩

theorem Reachable.apply {db : Database} (h : Reachable db) (op : Op) : Reachable (op.apply db) := by
  obtain ⟨ops, rfl⟩ := h
  exact ⟨ops ++ [op], by rw [List.foldl_append]; rfl⟩

end Database

end ChatApp
