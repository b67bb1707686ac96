import ChatApp.Lib.Wire
import Mathlib.Tactic.NormNum

set_option autoImplicit false

/-! # The address book (`protobuf-tutorial/addressbook.proto`)

The messages of the tutorial, on the wire format of the packets. The schema is a proto2 one: a
string is taken as it comes, a number that is no enumerator does not set the member, and an
absent phone type reads as its default, HOME. An `int32` is written as a number of 64 bits with
its sign extended.

`AddressBook.sound` is the round trip.
-/

namespace ChatApp.Tutorial

open Lib Lib.Wire Lib.Wire.Message

inductive PhoneType
  | unspecified
  | mobile
  | home
  | work
  deriving Repr, DecidableEq

def PhoneType.toNat : PhoneType → Nat
  | .unspecified => 0
  | .mobile => 1
  | .home => 2
  | .work => 3

/-- `Person_PhoneType_IsValid`, and the enumerator. -/
def PhoneType.ofNat? (n : Nat) : Option PhoneType :=
  match n % 2 ^ 32 with
  | 0 => some .unspecified
  | 1 => some .mobile
  | 2 => some .home
  | 3 => some .work
  | _ => none

structure PhoneNumber where
  number : Option Bytes := none
  type : Option PhoneType := none
  deriving Repr, DecidableEq

structure Person where
  name : Option Bytes := none
  id : Option Int32 := none
  email : Option Bytes := none
  phones : List PhoneNumber := []
  deriving DecidableEq

structure AddressBook where
  people : List Person := []
  deriving DecidableEq

/-! ## Reading and writing -/

/-- An `int32` on the wire. -/
def int32ToNat (i : Int32) : Nat := i.toInt64.toUInt64.toNat

def int32OfNat (n : Nat) : Int32 := (UInt64.ofNat n).toInt64.toInt32

@[simp] theorem int32OfNat_toNat (i : Int32) : int32OfNat (int32ToNat i) = i := by
  rw [int32OfNat, int32ToNat, UInt64.ofNat_toNat, Int64.toInt64_toUInt64, Int32.toInt32_toInt64]

theorem int32ToNat_lt (i : Int32) : int32ToNat i < 2 ^ 64 := i.toInt64.toUInt64.toNat_lt

/-- The field of a string. -/
def strField (num : Nat) (s : Bytes) : Field := ⟨num, .lenDelim s⟩

/-- A string is not checked. -/
def anyString (_ : Bytes) : Bool := true

instance : Message PhoneNumber where
  empty := {}
  merge m f :=
    match f.num with
    | 1 => onString anyString (fun m s => { m with number := some s }) m f.payload
    | 2 => onVarint (fun m n => { m with type := (PhoneType.ofNat? n).or m.type }) m f.payload
    | _ => (m, true)
  fields m := (m.number.map (strField 1)).toList
    ++ (m.type.map (fun t => ⟨2, .varint t.toNat⟩)).toList

instance : Message Person where
  empty := {}
  merge m f :=
    match f.num with
    | 1 => onString anyString (fun m s => { m with name := some s }) m f.payload
    | 2 => onVarint (fun m n => { m with id := some (int32OfNat n) }) m f.payload
    | 3 => onString anyString (fun m s => { m with email := some s }) m f.payload
    | 4 => onMessage Message.merge (fun _ => Message.empty)
        (fun m (p : PhoneNumber) => { m with phones := m.phones ++ [p] }) m f.payload
    | _ => (m, true)
  fields m := (m.name.map (strField 1)).toList
    ++ (m.id.map (fun i => ⟨2, .varint (int32ToNat i)⟩)).toList
    ++ (m.email.map (strField 3)).toList ++ m.phones.map (Message.toField 4)

instance : Message AddressBook where
  empty := {}
  merge m f :=
    match f.num with
    | 1 => onMessage Message.merge (fun _ => Message.empty)
        (fun m (p : Person) => { m with people := m.people ++ [p] }) m f.payload
    | _ => (m, true)
  fields m := m.people.map (Message.toField 1)

/-! ## The round trip -/

theorem plain_str (num : Nat) (h : 0 < num ∧ num < 2 ^ 29) (o : Option Bytes) :
    ∀ f ∈ (o.map (strField num)).toList, f.Plain :=
  forall_optional fun _ _ => ⟨h.1, h.2, trivial⟩

theorem plain_repeated {τ : Type} [Message τ] (num : Nat) (h : 0 < num ∧ num < 2 ^ 29)
    (xs : List τ) : ∀ f ∈ xs.map (toField num), f.Plain := by
  intro f hf
  obtain ⟨m, -, rfl⟩ := List.mem_map.mp hf
  exact ⟨h.1, h.2, trivial⟩

theorem PhoneType.ofNat?_toNat (t : PhoneType) : PhoneType.ofNat? t.toNat = some t := by
  cases t <;> rfl

theorem PhoneType.toNat_lt (t : PhoneType) : t.toNat < 2 ^ 64 := by
  cases t <;> decide

theorem PhoneNumber.sound {m : PhoneNumber} (hsize : byteSizeLong m < 2 ^ 35) : Sound m where
  wf := wf_of_plain hsize (List.forall_mem_append.mpr
    ⟨plain_str 1 (by norm_num) m.number,
      forall_optional fun t _ => ⟨by norm_num, by norm_num, t.toNat_lt⟩⟩)
  merge_fields := by
    obtain ⟨number, type⟩ := m
    have h1 : mergeFields merge empty (number.map (strField 1)).toList
        = (({ number := number } : PhoneNumber), true) :=
      mergeFields_optional (by rintro rfl; rfl) (by rintro s rfl; rfl)
    refine (mergeFields_append _ h1).trans ?_
    refine mergeFields_optional (by rintro rfl; rfl) ?_
    rintro t rfl
    simp [merge, onVarint, PhoneType.ofNat?_toNat]

theorem Person.sound {m : Person} (hsize : byteSizeLong m < 2 ^ 35) : Sound m where
  wf := by
    refine wf_of_plain hsize ?_
    simp only [fields, List.forall_mem_append]
    exact ⟨⟨⟨plain_str 1 (by norm_num) _,
      forall_optional fun i _ => ⟨by norm_num, by norm_num, int32ToNat_lt i⟩⟩,
      plain_str 3 (by norm_num) _⟩, plain_repeated 4 (by norm_num) _⟩
  merge_fields := by
    have h1 : mergeFields merge empty (m.name.map (strField 1)).toList
        = (({ name := m.name } : Person), true) :=
      mergeFields_optional (fun hnone => by rw [hnone]; rfl) (fun s hs => by rw [hs]; rfl)
    have h2 : mergeFields merge ({ name := m.name } : Person)
        (m.id.map (fun i => (⟨2, .varint (int32ToNat i)⟩ : Field))).toList
        = ({ name := m.name, id := m.id }, true) :=
      mergeFields_optional (fun hnone => by rw [hnone])
        (fun i hi => by simp [merge, onVarint, hi])
    have h3 : mergeFields merge ({ name := m.name, id := m.id } : Person)
        (m.email.map (strField 3)).toList
        = ({ name := m.name, id := m.id, email := m.email }, true) :=
      mergeFields_optional (fun hnone => by rw [hnone]) (fun s hs => by rw [hs]; rfl)
    have h12 := (mergeFields_append _ h1).trans h2
    have h123 := (mergeFields_append _ h12).trans h3
    refine (mergeFields_append _ h123).trans ?_
    refine mergeFields_repeated (fun ps => { m with phones := ps }) ?_ []
    intro done p hp
    have hmem : toField 4 p ∈ fields m := List.mem_append_right _ (List.mem_map.mpr ⟨p, hp, rfl⟩)
    have hsound := PhoneNumber.sound (lt_of_le_of_lt (toField_size_le hmem) hsize)
    exact onMessage_toField hsound (fun _ => empty)
      (fun (m : Person) p => { m with phones := m.phones ++ [p] }) rfl 4

/-- **An address book is read back as it was written.** -/
theorem AddressBook.sound {m : AddressBook} (hsize : byteSizeLong m < 2 ^ 35) : Sound m where
  wf := wf_of_plain hsize (plain_repeated 1 (by norm_num) m.people)
  merge_fields := by
    refine mergeFields_repeated (fun ps => ({ people := ps } : AddressBook)) ?_ []
    intro done p hp
    have hmem : toField 1 p ∈ fields m := List.mem_map.mpr ⟨p, hp, rfl⟩
    have hsound := Person.sound (lt_of_le_of_lt (toField_size_le hmem) hsize)
    exact onMessage_toField hsound (fun _ => empty)
      (fun (m : AddressBook) p => { m with people := m.people ++ [p] }) rfl 1

end ChatApp.Tutorial
