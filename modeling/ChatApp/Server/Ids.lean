import ChatApp.Server.Database

set_option autoImplicit false

/-! # The ids a database assigns

`registerUser` takes the id from the counter and stores the entry without looking whether
there is one. The counter is a 32-bit word: after `n` registrations it stands at `n` modulo
`2 ^ 32`, and the ids in use are those below `n` (`Counted`). So an id is new as long as
there have been fewer than `2 ^ 32` registrations, and no longer.
-/

namespace ChatApp

open Lib

namespace Database

def Op.isRegister : Op → Bool
  | .register _ => true
  | .queue _ _ => false
  | .clear _ => false

/-- The number of registrations in a run. -/
def registrations (ops : List Op) : Nat := ops.countP Op.isRegister

/-- The ids that the registrations of a run assign, in order. -/
def assigned : Database → List Op → List UserId
  | _, [] => []
  | db, .register username :: ops =>
      (db.registerUser username).1 :: assigned (Op.apply db (.register username)) ops
  | db, .queue recepientId m :: ops => assigned (Op.apply db (.queue recepientId m)) ops
  | db, .clear id :: ops => assigned (Op.apply db (.clear id)) ops

/-- A registration that assigns an id nobody holds and leaves every user as it was. -/
structure Fresh (db : Database) (username : Bytes) : Prop where
  id_new : db.find (db.registerUser username).1 = none
  kept : ∀ id u, db.find id = some u → (db.registerUser username).2.find id = some u

/-- Every registration of the run is fresh when it is made, and no two assign the same id. -/
structure IdsUnique (ops : List Op) : Prop where
  fresh : ∀ before username after, ops = before ++ .register username :: after →
    Fresh (before.foldl Op.apply empty) username
  nodup : (assigned empty ops).Nodup

/-! ## The counter -/

/-- What `n` registrations leave: the counter, and the ids in use. -/
structure Counted (db : Database) (n : Nat) : Prop where
  nextId_eq : db.nextId.toNat = n % 2 ^ 32
  exists_iff : ∀ id, db.userExists id = true ↔ id.toNat < n

theorem Counted.empty : Counted empty 0 where
  nextId_eq := rfl
  exists_iff := by
    intro id
    simp [userExists]

variable {db : Database} {n : Nat}

theorem Counted.register (h : Counted db n) (username : Bytes) :
    Counted (db.registerUser username).2 (n + 1) where
  nextId_eq := by
    show (db.nextId + 1).toNat = (n + 1) % 2 ^ 32
    rw [UInt32.toNat_add, h.nextId_eq]
    have hone : (1 : UInt32).toNat = 1 := rfl
    omega
  exists_iff := by
    intro id
    have hid := id.toNat_lt
    rw [userExists_registerUser, h.exists_iff, ← UInt32.toNat_inj, h.nextId_eq]
    -- Below the limit the new id is `n`; beyond it every id is in use already.
    by_cases hn : n < 2 ^ 32
    · rw [Nat.mod_eq_of_lt hn]
      omega
    · omega

theorem Counted.queue (h : Counted db n) (recepientId : UserId) (m : Msg) :
    Counted (db.queueMsg recepientId m).2 n where
  nextId_eq := by
    rw [queueMsg_nextId]
    exact h.nextId_eq
  exists_iff := by
    intro id
    rw [userExists_queueMsg]
    exact h.exists_iff id

theorem Counted.clear (h : Counted db n) (id : UserId) : Counted (Op.apply db (.clear id)) n := by
  show Counted (if db.userExists id then db.clearMsgs id else db) n
  by_cases hex : db.userExists id = true
  · rw [if_pos hex]
    refine ⟨h.nextId_eq, ?_⟩
    intro k
    rw [userExists_clearMsgs hex]
    exact h.exists_iff k
  · rw [if_neg hex]
    exact h

/-- **What one operation does to the count.** -/
theorem Counted.apply (h : Counted db n) (op : Op) :
    Counted (Op.apply db op) (n + if op.isRegister then 1 else 0) := by
  cases op with
  | register username => exact h.register username
  | queue recepientId m => exact h.queue recepientId m
  | clear id => exact h.clear id

/-- **What a run does to the count.** -/
theorem Counted.foldl (h : Counted db n) (ops : List Op) :
    Counted (ops.foldl Op.apply db) (n + registrations ops) := by
  induction ops generalizing db n with
  | nil => exact h
  | cons op ops ih =>
      have hrest := ih (h.apply op)
      have hcount : n + registrations (op :: ops)
          = (n + if op.isRegister then 1 else 0) + registrations ops := by
        unfold registrations
        rw [List.countP_cons]
        omega
      rw [hcount]
      exact hrest

/-- The ids in use are counted by the map. -/
theorem Counted.size (h : Counted db n) (hn : n ≤ 2 ^ 32) : db.userMap.size = n := by
  have hnodup := (Traversal.ascending UserId UserMetadata).order_nodup_toNat db.userMap
  have hmem : ∀ k, k ∈ ((Traversal.ascending UserId UserMetadata).order db.userMap).map
      (fun e => e.1.toNat) ↔ k ∈ List.range n := by
    intro k
    rw [List.mem_range]
    constructor
    · intro hk
      obtain ⟨⟨id, u⟩, he, rfl⟩ := List.mem_map.mp hk
      have hfind : db.find id = some u := (Traversal.mem_order_iff _ _ _ _).mp he
      exact (h.exists_iff id).mp ((db.userExists_iff id).mpr ⟨u, hfind⟩)
    · intro hk
      have hid : (UInt32.ofNat k).toNat = k := by
        rw [UInt32.toNat_ofNat', Nat.mod_eq_of_lt (by omega)]
      obtain ⟨u, hu⟩ := (db.userExists_iff _).mp ((h.exists_iff (UInt32.ofNat k)).mpr (by omega))
      exact List.mem_map.mpr ⟨(UInt32.ofNat k, u), (Traversal.mem_order_iff _ _ _ _).mpr hu, hid⟩
  have hperm := (List.perm_ext_iff_of_nodup hnodup List.nodup_range).mpr hmem
  rw [← (Traversal.ascending UserId UserMetadata).order_length, ← List.length_map
    (fun e : UserId × UserMetadata => e.1.toNat), hperm.length_eq, List.length_range]

/-! ## Below the limit -/

theorem Counted.fresh (h : Counted db n) (hn : n < 2 ^ 32) (username : Bytes) :
    Fresh db username := by
  have hnew : db.find db.nextId = none := by
    rw [← userExists_eq_false, ← Bool.not_eq_true, h.exists_iff, h.nextId_eq,
      Nat.mod_eq_of_lt hn]
    exact Nat.lt_irrefl n
  refine ⟨hnew, ?_⟩
  intro id u hu
  have hne : db.nextId ≠ id := by
    intro heq
    rw [heq, hu] at hnew
    cases hnew
  rw [find_registerUser, if_neg hne]
  exact hu

/-- The id assigned is the count, modulo the size of the word. -/
theorem Counted.registerUser_fst (h : Counted db n) (username : Bytes) :
    (db.registerUser username).1 = UInt32.ofNat n := by
  apply UInt32.toNat_inj.mp
  rw [UInt32.toNat_ofNat']
  exact h.nextId_eq

/-- The ids are assigned in ascending order, modulo the size of the word. -/
theorem Counted.assigned_eq (h : Counted db n) (ops : List Op) :
    assigned db ops = (List.range' n (registrations ops)).map UInt32.ofNat := by
  induction ops generalizing db n with
  | nil => rfl
  | cons op ops ih =>
      cases op with
      | register username =>
          have hcount : registrations (.register username :: ops) = registrations ops + 1 :=
            List.countP_cons_of_pos rfl
          rw [assigned, h.registerUser_fst, ih (h.apply (.register username)), hcount,
            List.range'_succ, List.map_cons]
          rfl
      | queue recepientId m => exact ih (h.apply (.queue recepientId m))
      | clear id => exact ih (h.apply (.clear id))

theorem nodup_map_ofNat {n k : Nat} (h : n + k ≤ 2 ^ 32) :
    ((List.range' n k).map UInt32.ofNat).Nodup := by
  refine List.Nodup.map_on ?_ List.nodup_range'
  intro a ha b hb heq
  rw [List.mem_range'_1] at ha hb
  have hnat := congrArg UInt32.toNat heq
  rw [UInt32.toNat_ofNat', UInt32.toNat_ofNat', Nat.mod_eq_of_lt (by omega),
    Nat.mod_eq_of_lt (by omega)] at hnat
  exact hnat

/-- A user that has a name keeps it. -/
def Extends (db db' : Database) : Prop :=
  ∀ id name, db.nameOf id = some name → db'.nameOf id = some name

theorem Extends.refl (db : Database) : db.Extends db := fun _ _ hname => hname

theorem Extends.trans {db db' db'' : Database} (h : db.Extends db') (h' : db'.Extends db'') :
    db.Extends db'' := fun id name hname => h' id name (h id name hname)

theorem Extends.userExists {db db' : Database} (h : db.Extends db') {id : UserId}
    (hex : db.userExists id = true) : db'.userExists id = true := by
  obtain ⟨u, hu⟩ := (db.userExists_iff id).mp hex
  have hname := h id u.username (by rw [nameOf, hu, Option.map_some])
  obtain ⟨u', hu', -⟩ := Option.map_eq_some_iff.mp hname
  exact (db'.userExists_iff id).mpr ⟨u', hu'⟩

theorem extends_registerUser (h : Counted db n) (hn : n < 2 ^ 32) (username : Bytes) :
    db.Extends (db.registerUser username).2 := by
  intro id name hname
  obtain ⟨u, hu, hname⟩ := Option.map_eq_some_iff.mp hname
  rw [nameOf, (h.fresh hn username).kept id u hu, Option.map_some, hname]

/-! ## Beyond the limit -/

/-- There are not more ids than a word has values. -/
theorem length_le_of_nodup {ids : List UserId} (h : ids.Nodup) : ids.length ≤ 2 ^ 32 := by
  have hmap : (ids.map UInt32.toNat).Nodup := h.map (fun a b => UInt32.toNat_inj.mp)
  have hsub : ids.map UInt32.toNat ⊆ List.range (2 ^ 32) := by
    intro k hk
    rcases List.mem_map.mp hk with ⟨id, -, rfl⟩
    exact List.mem_range.mpr id.toNat_lt
  have hle := (hmap.subperm hsub).length_le
  rwa [List.length_map, List.length_range] at hle

theorem registrations_le_of_nodup {ops : List Op} (h : (assigned empty ops).Nodup) :
    registrations ops ≤ 2 ^ 32 := by
  have hle := length_le_of_nodup h
  rwa [Counted.empty.assigned_eq, List.length_map, List.length_range'] at hle

/-- **Ids are unique for as long as there are at most `2 ^ 32` registrations**, and no
longer. -/
theorem idsUnique_iff (ops : List Op) : IdsUnique ops ↔ registrations ops ≤ 2 ^ 32 := by
  constructor
  · intro h
    exact registrations_le_of_nodup h.nodup
  · intro hle
    constructor
    · intro before username after hops
      -- The registration itself is one of those counted.
      have hcount : registrations ops
          = registrations before + (registrations after + 1) := by
        rw [hops]
        unfold registrations
        rw [List.countP_append, List.countP_cons_of_pos rfl]
      apply (Counted.empty.foldl before).fresh
      omega
    · rw [Counted.empty.assigned_eq]
      apply nodup_map_ofNat
      omega

/-- One registration more than there are ids: the last one is given the id of the first
user, who is erased. -/
theorem not_idsUnique_replicate :
    ¬IdsUnique (List.replicate (2 ^ 32 + 1) (.register [])) := by
  intro h
  have hle := registrations_le_of_nodup h.nodup
  have hregister : (Op.register []).isRegister = true := rfl
  rw [registrations, List.countP_replicate, if_pos hregister] at hle
  omega

end Database

end ChatApp
