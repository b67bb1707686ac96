import Mathlib.Tactic

set_option autoImplicit false

/-! # Finite maps with an unspecified iteration order

`UnorderedMap` is a finite map as a container library offers it: lookup, insertion, a
subscript that inserts a default value on a missing key, and iteration in an order the
library does not specify. The map itself is extensional (two maps are equal exactly when
they hold the same entries), so an order is never read off it: code that iterates takes a
`Traversal`, any choice of an order for each map, and what is proved about it holds for
every choice.
-/

namespace ChatApp.Lib

variable {α β : Type} [Ord α] [Std.TransOrd α] [Std.LawfulEqOrd α]

/-- A finite map from `α` to `β`. -/
abbrev UnorderedMap (α β : Type) [Ord α] := Std.ExtTreeMap α β compare

namespace UnorderedMap

/-- The effect of `f(m[k])`, an update through a reference to the value under `k`: a missing
key is inserted first, with the default value. -/
def subscript [Inhabited β] (m : UnorderedMap α β) (k : α) (f : β → β) : UnorderedMap α β :=
  m.insert k (f (m[k]?.getD default))

theorem getElem?_insert_eq (m : UnorderedMap α β) (k a : α) (v : β) [DecidableEq α] :
    (m.insert k v)[a]? = if k = a then some v else m[a]? := by
  rw [Std.ExtTreeMap.getElem?_insert]
  by_cases h : k = a
  · rw [if_pos h, if_pos (Std.LawfulEqCmp.compare_eq_iff_eq.mpr h)]
  · rw [if_neg h, if_neg (fun hc => h (Std.LawfulEqCmp.compare_eq_iff_eq.mp hc))]

@[simp] theorem getElem?_insert_same (m : UnorderedMap α β) (k : α) (v : β) :
    (m.insert k v)[k]? = some v := by
  simp

theorem getElem?_insert_of_ne (m : UnorderedMap α β) {k a : α} (v : β) (h : k ≠ a) :
    (m.insert k v)[a]? = m[a]? := by
  classical
  rw [getElem?_insert_eq, if_neg h]

theorem getElem?_subscript_of_some [Inhabited β] (m : UnorderedMap α β) {k : α} {v : β}
    (f : β → β) (h : m[k]? = some v) : (m.subscript k f)[k]? = some (f v) := by
  rw [subscript, getElem?_insert_same, h, Option.getD_some]

theorem getElem?_subscript_of_ne [Inhabited β] (m : UnorderedMap α β) {k a : α} (f : β → β)
    (h : k ≠ a) : (m.subscript k f)[a]? = m[a]? :=
  getElem?_insert_of_ne m _ h

/-- Storing what a key already holds changes nothing. -/
theorem insert_of_getElem? (m : UnorderedMap α β) {k : α} {v : β} (h : m[k]? = some v) :
    m.insert k v = m := by
  classical
  refine Std.ExtTreeMap.ext_getElem? (fun a => ?_)
  rw [getElem?_insert_eq]
  by_cases ha : k = a
  · rw [if_pos ha, ← ha, h]
  · rw [if_neg ha]

/-- After some insertions a key holds what was inserted under it last, or what it held. -/
theorem getElem?_foldl_insert_eq [DecidableEq α] {γ : Type} (key : γ → α) (val : γ → β)
    (l : List γ) (m : UnorderedMap α β) (k : α) :
    (l.foldl (fun m x => m.insert (key x) (val x)) m)[k]?
      = ((l.reverse.find? (fun x => key x = k)).map val).or m[k]? := by
  induction l generalizing m with
  | nil => rfl
  | cons x l ih =>
      rw [List.foldl_cons, ih, List.reverse_cons, List.find?_append, getElem?_insert_eq,
        Option.map_or, Option.or_assoc]
      by_cases hx : key x = k
      · simp [hx]
      · simp [hx]

/-- What a map holds after some insertions was there before them or was inserted. -/
theorem getElem?_foldl_insert {γ : Type} (key : γ → α) (val : γ → β) {l : List γ}
    {m : UnorderedMap α β} {k : α} {v : β}
    (h : (l.foldl (fun m x => m.insert (key x) (val x)) m)[k]? = some v) :
    m[k]? = some v ∨ ∃ x ∈ l, key x = k ∧ val x = v := by
  classical
  rw [getElem?_foldl_insert_eq, Option.or_eq_some_iff] at h
  rcases h with hlast | ⟨-, hm⟩
  · obtain ⟨x, hx, hval⟩ := Option.map_eq_some_iff.mp hlast
    have hkey : key x = k := by simpa using List.find?_some hx
    exact .inr ⟨x, List.mem_reverse.mp (List.mem_of_find?_eq_some hx), hkey, hval⟩
  · exact .inl hm

/-- The keys of a map filled from a list: those it had, and those of the list. -/
theorem mem_foldl_insert {γ : Type} (key : γ → α) (val : γ → β) {l : List γ}
    {m : UnorderedMap α β} {k : α} :
    k ∈ l.foldl (fun m x => m.insert (key x) (val x)) m ↔ k ∈ m ∨ ∃ x ∈ l, key x = k := by
  induction l generalizing m with
  | nil => simp
  | cons x l ih =>
      rw [List.foldl_cons, ih, Std.ExtTreeMap.mem_insert, Std.LawfulEqCmp.compare_eq_iff_eq]
      constructor
      · rintro ((rfl | hm) | ⟨y, hy, rfl⟩)
        · exact .inr ⟨x, List.mem_cons_self, rfl⟩
        · exact .inl hm
        · exact .inr ⟨y, List.mem_cons_of_mem x hy, rfl⟩
      · rintro (hm | ⟨y, hy, rfl⟩)
        · exact .inl (.inr hm)
        · rcases List.mem_cons.mp hy with rfl | hy
          · exact .inl (.inl rfl)
          · exact .inr ⟨y, hy, rfl⟩

omit [Std.LawfulEqOrd α] in
theorem mem_iff_getElem? (m : UnorderedMap α β) (k : α) : k ∈ m ↔ ∃ v, m[k]? = some v := by
  rw [Std.ExtTreeMap.mem_iff_isSome_getElem?, Option.isSome_iff_exists]

end UnorderedMap

/-! ## Iteration -/

/-- An iteration order for every map: each entry once, in some order. -/
structure Traversal (α β : Type) [Ord α] [Std.TransOrd α] where
  order : UnorderedMap α β → List (α × β)
  perm : ∀ m, (order m).Perm m.toList

/-- Iteration by ascending key. -/
def Traversal.ascending (α β : Type) [Ord α] [Std.TransOrd α] : Traversal α β :=
  ⟨fun m => m.toList, fun _ => List.Perm.refl _⟩

/-- Iteration by descending key. -/
def Traversal.descending (α β : Type) [Ord α] [Std.TransOrd α] : Traversal α β :=
  ⟨fun m => m.toList.reverse, fun m => m.toList.reverse_perm⟩

namespace Traversal

variable (it : Traversal α β) (m : UnorderedMap α β)

omit [Std.LawfulEqOrd α] in
theorem order_length : (it.order m).length = m.size := by
  rw [(it.perm m).length_eq, Std.ExtTreeMap.length_toList]

theorem mem_order_iff (k : α) (v : β) : (k, v) ∈ it.order m ↔ m[k]? = some v := by
  rw [(it.perm m).mem_iff, Std.ExtTreeMap.mem_toList_iff_getElem?_eq_some]

/-- No key is visited twice. -/
theorem order_nodup : ((it.order m).map Prod.fst).Nodup := by
  rw [((it.perm m).map Prod.fst).nodup_iff, List.nodup_iff_pairwise_ne, List.pairwise_map]
  refine Std.ExtTreeMap.distinct_keys_toList.imp (fun h heq => h ?_)
  exact Std.LawfulEqCmp.compare_eq_iff_eq.mpr heq

/-- A traversal that passes over one stored key visits one entry less than there are. -/
theorem order_filter_ne_length [DecidableEq α] {k : α} (h : k ∈ m) :
    ((it.order m).filter (fun e => e.1 ≠ k)).length + 1 = m.size := by
  have hcount : ((it.order m).map Prod.fst).count k = 1 := by
    refine List.count_eq_one_of_mem (it.order_nodup m) ?_
    obtain ⟨v, hv⟩ := (m.mem_iff_getElem? k).mp h
    exact List.mem_map.mpr ⟨(k, v), (it.mem_order_iff m k v).mpr hv, rfl⟩
  have hsplit := List.length_eq_countP_add_countP (fun e => e.1 ≠ k) (l := it.order m)
  rw [List.count, List.countP_map] at hcount
  have hrest : (it.order m).countP (fun e => ¬(decide (e.1 ≠ k) = true))
      = (it.order m).countP ((fun x => x == k) ∘ Prod.fst) :=
    List.countP_congr (fun e _ => by simp)
  rw [it.order_length, hrest, hcount, List.countP_eq_length_filter] at hsplit
  omega

end Traversal

/-- A new value under a key that is there does not change the order of the keys. -/
def Traversal.Stable (it : Traversal α β) : Prop :=
  ∀ (m : UnorderedMap α β) (k : α) (v : β), k ∈ m →
    (it.order (m.insert k v)).map Prod.fst = (it.order m).map Prod.fst

/-- The ascending order is that of the keys alone. -/
theorem Traversal.ascending_stable : (Traversal.ascending α β).Stable := by
  intro m k v hk
  have hmem (a : α) : a ∈ (m.insert k v).keys ↔ a ∈ m.keys := by
    rw [Std.ExtTreeMap.mem_keys, Std.ExtTreeMap.mem_keys, Std.ExtTreeMap.mem_insert,
      Std.LawfulEqCmp.compare_eq_iff_eq]
    refine ⟨?_, Or.inr⟩
    rintro (rfl | ha)
    · exact hk
    · exact ha
  have hperm := (List.perm_ext_iff_of_nodup (m.insert k v).nodup_keys m.nodup_keys).mpr hmem
  show (m.insert k v).toList.map Prod.fst = m.toList.map Prod.fst
  rw [Std.ExtTreeMap.map_fst_toList_eq_keys, Std.ExtTreeMap.map_fst_toList_eq_keys]
  refine hperm.eq_of_pairwise ?_ (m.insert k v).ordered_keys m.ordered_keys
  intro a b _ _ hab hba
  have hgt := Std.OrientedCmp.gt_of_lt hba
  rw [hab] at hgt
  cases hgt

omit [Std.LawfulEqOrd α] in
/-- Values stored under keys that are there do not change a stable order. -/
theorem Traversal.Stable.insertMany {it : Traversal α β} (h : it.Stable) (l : List (α × β))
    {m : UnorderedMap α β} (hl : ∀ e ∈ l, e.1 ∈ m) :
    (it.order (m.insertMany l)).map Prod.fst = (it.order m).map Prod.fst := by
  induction l generalizing m with
  | nil => rw [Std.ExtTreeMap.insertMany_nil]
  | cons e l ih =>
      obtain ⟨he, hrest⟩ := List.forall_mem_cons.mp hl
      have hmem : ∀ e' ∈ l, e'.1 ∈ m.insert e.1 e.2 := fun e' he' =>
        Std.ExtTreeMap.mem_insert.mpr (.inr (hrest e' he'))
      rw [Std.ExtTreeMap.insertMany_cons, ih hmem, h m e.1 e.2 he]

/-- A stable order is one of the keys: maps with the same keys are visited alike. -/
theorem Traversal.Stable.keys_eq {it : Traversal α β} (h : it.Stable) {m m' : UnorderedMap α β}
    (hkeys : ∀ k, k ∈ m' ↔ k ∈ m) :
    (it.order m').map Prod.fst = (it.order m).map Prod.fst := by
  have hmem : ∀ e ∈ m'.toList, e.1 ∈ m := fun e he => (hkeys e.1).mp
    ((m'.mem_iff_getElem? e.1).mpr ⟨e.2, Std.ExtTreeMap.mem_toList_iff_getElem?_eq_some.mp he⟩)
  have hall : m.insertMany m'.toList = m' := by
    classical
    refine Std.ExtTreeMap.ext_getElem? fun k => ?_
    by_cases hk : k ∈ m'
    · obtain ⟨v, hv⟩ := (m'.mem_iff_getElem? k).mp hk
      rw [hv]
      exact Std.ExtTreeMap.getElem?_insertMany_list_of_mem Std.ReflOrd.compare_self
        Std.ExtTreeMap.distinct_keys_toList
        (Std.ExtTreeMap.mem_toList_iff_getElem?_eq_some.mpr hv)
    · have hnot : (m'.toList.map Prod.fst).contains k = false := by
        simpa [Std.ExtTreeMap.map_fst_toList_eq_keys] using hk
      rw [Std.ExtTreeMap.getElem?_insertMany_list_of_contains_eq_false hnot,
        Std.ExtTreeMap.getElem?_eq_none hk,
        Std.ExtTreeMap.getElem?_eq_none (mt (hkeys k).mpr hk)]
  rw [← h.insertMany m'.toList hmem, hall]

/-- No two keys of a map keyed by words are the same number. -/
theorem Traversal.order_nodup_toNat (it : Traversal UInt32 β) (m : UnorderedMap UInt32 β) :
    ((it.order m).map (fun e => e.1.toNat)).Nodup := by
  have hmap := (it.order_nodup m).map
    (fun a b h => UInt32.toNat_inj.mp h : Function.Injective UInt32.toNat)
  rwa [List.map_map] at hmap

/-- A map keyed by 32-bit words has at most `2 ^ 32` entries. -/
theorem UnorderedMap.size_le (m : UnorderedMap UInt32 β) : m.size ≤ 2 ^ 32 := by
  have hnodup := (Traversal.ascending UInt32 β).order_nodup_toNat m
  have hlen : (((Traversal.ascending UInt32 β).order m).map (fun e => e.1.toNat)).length
      ≤ (List.range (2 ^ 32)).length := by
    refine List.Subperm.length_le (List.Nodup.subperm hnodup ?_)
    intro n hn
    obtain ⟨e, -, rfl⟩ := List.mem_map.mp hn
    exact List.mem_range.mpr e.1.toNat_lt
  rwa [List.length_map, Traversal.order_length, List.length_range] at hlen

end ChatApp.Lib
