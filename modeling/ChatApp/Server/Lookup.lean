import ChatApp.Server.Shape

set_option autoImplicit false

/-! # Looking up a username

The database has the name of every user, and whoever iterates over it finds the name under the
id that was returned for it (`yields_iff`). `getUsername` does not get that far: its test for
the id is false of every id, so it returns the empty string (`getUsername_eq`), which is right
for the ids nobody holds and for users of that name (`lookupAgrees_iff`).
-/

namespace ChatApp

open Lib

namespace Database

/-! ## What should be found -/

/-- The ids that the registrations of a run return, each with the name it is returned for. -/
def returned : Database → List Op → List (UserId × Bytes)
  | _, [] => []
  | db, .register username :: ops =>
      ((db.registerUser username).1, username) :: returned (Op.apply db (.register username)) ops
  | db, .queue recepientId m :: ops => returned (Op.apply db (.queue recepientId m)) ops
  | db, .clear id :: ops => returned (Op.apply db (.clear id)) ops

/-- What `begin()` to `end()` go through: the ids and the usernames. -/
def yielded (it : Traversal UserId UserMetadata) (db : Database) : List (UserId × Bytes) :=
  (it.order db.userMap).map fun e => (e.1, e.2.username)

/-- The lookup of an id after a run: the name the id was returned for, which is also the one
the iterator yields with it; nothing for an id that was not returned; and the database as it
was. -/
structure LookupAgrees (it : Traversal UserId UserMetadata) (ops : List Op) (id : UserId) :
    Prop where
  known : ∀ username, (id, username) ∈ returned empty ops →
    ((ops.foldl Op.apply empty).getUsername id).1 = username ∧
      ∀ name, (id, name) ∈ yielded it (ops.foldl Op.apply empty) ↔
        name = ((ops.foldl Op.apply empty).getUsername id).1
  unknown : (∀ username, (id, username) ∉ returned empty ops) →
    ((ops.foldl Op.apply empty).getUsername id).1 = []
  unchanged : ((ops.foldl Op.apply empty).getUsername id).2 = ops.foldl Op.apply empty

/-! ## What is stored -/

variable {db : Database} {n : Nat} {ops : List Op} {id : UserId} {username : Bytes}

/-- The iterator yields the names under their ids. -/
theorem mem_yielded_iff (it : Traversal UserId UserMetadata) (db : Database) (id : UserId)
    (name : Bytes) : (id, name) ∈ yielded it db ↔ db.nameOf id = some name := by
  rw [yielded, List.mem_map, nameOf, Option.map_eq_some_iff]
  constructor
  · rintro ⟨⟨k, u⟩, hmem, heq⟩
    cases heq
    exact ⟨u, (it.mem_order_iff _ _ _).mp hmem, rfl⟩
  · rintro ⟨u, hfind, rfl⟩
    exact ⟨(id, u), (it.mem_order_iff _ _ _).mpr hfind, rfl⟩

/-- The ids are returned in ascending order, modulo the size of the word. -/
theorem Counted.returned_eq (h : Counted db n) (ops : List Op) :
    returned db ops
      = ((ops.filterMap Op.username?).zipIdx n).map fun e => (UInt32.ofNat e.2, e.1) := by
  induction ops generalizing db n with
  | nil => rfl
  | cons op ops ih =>
      cases op with
      | register username =>
          calc returned db (.register username :: ops)
              = (UInt32.ofNat n, username)
                  :: returned (Op.apply db (.register username)) ops := by
                rw [returned, h.registerUser_fst]
            _ = (UInt32.ofNat n, username)
                  :: ((ops.filterMap Op.username?).zipIdx (n + 1)).map
                      (fun e => (UInt32.ofNat e.2, e.1)) := by
                rw [ih (h.apply (.register username))]
                rfl
            _ = (((Op.register username :: ops).filterMap Op.username?).zipIdx n).map
                  (fun e => (UInt32.ofNat e.2, e.1)) := rfl
      | queue recepientId m => exact ih (h.apply (.queue recepientId m))
      | clear id => exact ih (h.apply (.clear id))

/-- As long as there are ids, an id is returned for the name that its registration is for. -/
theorem mem_returned_iff (hle : registrations ops ≤ 2 ^ 32) :
    (id, username) ∈ returned empty ops ↔
      (ops.filterMap Op.username?)[id.toNat]? = some username := by
  rw [Counted.empty.returned_eq, List.mem_map]
  constructor
  · rintro ⟨⟨name, k⟩, hmem, heq⟩
    have hname := List.mk_mem_zipIdx_iff_getElem?.mp hmem
    -- The position is below the number of registrations, so it fits the word.
    have hk : k < 2 ^ 32 := by
      have hlt := (List.getElem?_eq_some_iff.mp hname).1
      rw [length_filterMap_username?] at hlt
      omega
    cases heq
    rw [UInt32.toNat_ofNat', Nat.mod_eq_of_lt hk]
    exact hname
  · intro hname
    refine ⟨(username, id.toNat), List.mk_mem_zipIdx_iff_getElem?.mpr hname, ?_⟩
    rw [UInt32.ofNat_toNat]

/-- **The iterator yields with an id the name that the id was returned for**, and no other. -/
theorem yields_iff (it : Traversal UserId UserMetadata) (hle : registrations ops ≤ 2 ^ 32)
    (id : UserId) (name : Bytes) :
    (id, name) ∈ yielded it (ops.foldl Op.apply empty) ↔ (id, name) ∈ returned empty ops := by
  have hnamed : Named (ops.filterMap Op.username?) (ops.foldl Op.apply empty) := by
    refine Named.empty.foldl ops ?_
    rw [List.nil_append, length_filterMap_username?]
    exact hle
  rw [mem_yielded_iff, mem_returned_iff hle, hnamed.username]

/-! ## What is found -/

/-- **The lookup finds nobody**, and leaves the database alone. -/
theorem getUsername_eq (db : Database) (id : UserId) : db.getUsername id = ([], db) :=
  if_neg (not_not.mpr rfl)

/-- **The lookup of an id agrees with its registration exactly if the name is empty or there is
no registration**, in every run that does not run out of ids. The `i`-th registration, from 0
on, is the one that returns the id `i`. -/
theorem lookupAgrees_iff (it : Traversal UserId UserMetadata) (hle : registrations ops ≤ 2 ^ 32)
    (id : UserId) :
    LookupAgrees it ops id ↔
      ∀ username ∈ (ops.filterMap Op.username?)[id.toNat]?, username = [] := by
  constructor
  · intro h username hname
    have hfound := (h.known username ((mem_returned_iff hle).mpr hname)).1
    rw [getUsername_eq] at hfound
    exact hfound.symm
  · intro hempty
    refine ⟨fun username hreturned => ?_, fun _ => ?_, ?_⟩
    · have hname := (mem_returned_iff hle).mp hreturned
      obtain rfl : username = [] := hempty username hname
      rw [getUsername_eq]
      refine ⟨rfl, fun name => ?_⟩
      rw [yields_iff it hle, mem_returned_iff hle, hname, Option.some.injEq, eq_comm]
    · rw [getUsername_eq]
    · rw [getUsername_eq]

/-- A user of the empty name, who gets a message and reads it, and an id nobody holds. -/
theorem lookupAgrees_empty_name :
    let ops : List Op := [.register [], .queue 0 ⟨0, [104]⟩, .clear 0]
    LookupAgrees (.ascending _ _) ops 0 ∧ LookupAgrees (.ascending _ _) ops 5 :=
  ⟨(lookupAgrees_iff _ (by decide) 0).mpr (by decide),
    (lookupAgrees_iff _ (by decide) 5).mpr (by decide)⟩

/-- The first user's name is not found, though the iterator yields it. -/
theorem not_lookupAgrees_one_user :
    ¬LookupAgrees (.ascending _ _) [.register [65]] 0 ∧
      (0, [65]) ∈ returned empty [.register [65]] ∧
      (0, [65]) ∈ yielded (.ascending _ _) (empty.registerUser [65]).2 ∧
      ((empty.registerUser [65]).2.getUsername 0).1 = [] := by
  have hreturned : (0, [65]) ∈ returned empty [.register [65]] := List.mem_singleton_self _
  refine ⟨fun h => ?_, hreturned, ?_, by rw [getUsername_eq]⟩
  · have hfound := (h.known [65] hreturned).1
    rw [getUsername_eq] at hfound
    cases hfound
  · rw [mem_yielded_iff, nameOf_registerUser]
    rfl

end Database

end ChatApp
