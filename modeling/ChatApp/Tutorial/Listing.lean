import ChatApp.Tutorial.Programs
import Mathlib.Data.List.TakeWhile
import Mathlib.Tactic.IntervalCases

set_option autoImplicit false

/-! # What is typed is listed

`write_message` run time after time on a file that is not there at first keeps everybody it
asked for, and `read_message` lists them in that order, as long as the book stays below the
2 GiB of a serialization (`listing_of_run`). The persons that can be asked for are those whose
fields are lines, with phone numbers that are not blank (`promptForAddress_iff`).
-/

namespace ChatApp.Tutorial

open Lib Lib.Wire Lib.Wire.Message

/-! ## The file -/

/-- The book of a file: everybody of `people`, written one after the other. -/
def Holds (file : Option Bytes) (people : List Person) : Prop :=
  (file = none ∧ people = []) ∨ file = some (serialize ({ people := people } : AddressBook))

theorem byteSizeLong_append (people more : List Person) :
    byteSizeLong ({ people := people ++ more } : AddressBook)
      = byteSizeLong ({ people := people } : AddressBook)
        + byteSizeLong ({ people := more } : AddressBook) := by
  simp [byteSizeLong, serialize, fields, encode]

/-- Who is asked for. -/
def prompted (typed : Bytes × Int32) : Person := (promptForAddress ⟨typed.1, true⟩ typed.2).1

theorem writeMessage_of_holds {file : Option Bytes} {people : List Person}
    {typed : Bytes × Int32} (hfile : Holds file people)
    (hsize : byteSizeLong ({ people := people ++ [prompted typed] } : AddressBook) < 2 ^ 31 - 16)
    (argv : Bytes) :
    (writeMessage argv file typed.1 typed.2).code = 0 ∧
      Holds (writeMessage argv file typed.1 typed.2).file (people ++ [prompted typed]) := by
  have hwrite : serializeToOstream { people := people ++ [prompted typed] }
      = (serialize ({ people := people ++ [prompted typed] } : AddressBook), true) :=
    if_pos (by unfold intMax; omega)
  rcases hfile with ⟨rfl, rfl⟩ | rfl
  · rw [List.nil_append] at hwrite
    unfold prompted at hwrite ⊢
    simp [writeMessage, Holds, hwrite]
  · have hle := byteSizeLong_append people [prompted typed]
    have hparse := (AddressBook.sound (m := { people := people }) (by omega)).parse_serialize
    unfold prompted at hwrite ⊢
    simp [writeMessage, Holds, hparse, hwrite]

theorem readMessage_of_holds {people : List Person}
    (hsize : byteSizeLong ({ people := people } : AddressBook) < 2 ^ 31 - 16) :
    readMessage (some (serialize ({ people := people } : AddressBook)))
      = { code := 0, file := some (serialize ({ people := people } : AddressBook))
          cout := listPeople { people := people } } := by
  have hparse := (AddressBook.sound (m := { people := people }) (by omega)).parse_serialize
  simp only [readMessage, hparse]
  rfl

/-- `write_message` as a step on the file. -/
def writeStep (argv : Bytes) (file : Option Bytes) (typed : Bytes × Int32) : Option Bytes × Exit :=
  ((writeMessage argv file typed.1 typed.2).file, writeMessage argv file typed.1 typed.2)

/-- What holds while `typed` is still to be typed: everybody of `log` is in the file, and all
of them fit. -/
def Kept (file : Option Bytes) (log : List (Entry (Option Bytes) (Bytes × Int32) Exit))
    (typed : List (Bytes × Int32)) : Prop :=
  (∀ e ∈ log, e.output.code = 0) ∧ Holds file (log.map fun e => prompted e.input) ∧
    byteSizeLong ({ people := (log.map fun e => prompted e.input) ++ typed.map prompted }
      : AddressBook) < 2 ^ 31 - 16

theorem kept_writeStep {argv : Bytes} {file : Option Bytes}
    {log : List (Entry (Option Bytes) (Bytes × Int32) Exit)} {t : Bytes × Int32}
    {typed : List (Bytes × Int32)} (h : Kept file log (t :: typed)) :
    Kept (writeStep argv file t).1 (log ++ [⟨file, t, (writeStep argv file t).2⟩]) typed := by
  obtain ⟨hcode, hfile, hsize⟩ := h
  have hsplit : (log.map fun e => prompted e.input) ++ (t :: typed).map prompted
      = ((log.map fun e => prompted e.input) ++ [prompted t]) ++ typed.map prompted := by simp
  rw [hsplit] at hsize
  have hle := byteSizeLong_append ((log.map fun e => prompted e.input) ++ [prompted t])
    (typed.map prompted)
  have hroom : byteSizeLong ({ people := (log.map fun e => prompted e.input) ++ [prompted t] }
      : AddressBook) < 2 ^ 31 - 16 := by omega
  have hwrite := writeMessage_of_holds hfile hroom
  refine ⟨forall_mem_concat hcode (hwrite argv).1, ?_, ?_⟩
  · rw [List.map_append]
    exact (hwrite argv).2
  · rw [List.map_append]
    exact hsize

/-- **Everybody is listed.** After any number of runs of `write_message`, whatever is typed in
them, `read_message` lists everybody who was asked for, in that order, if all of them take less
than 2 GiB. -/
theorem listing_of_run {argv : Bytes} {typed : List (Bytes × Int32)} {file : Option Bytes}
    {log : List (Entry (Option Bytes) (Bytes × Int32) Exit)} (hne : typed ≠ [])
    (hrun : run (total (writeStep argv)) none typed = .ok (file, log))
    (hsize : byteSizeLong ({ people := typed.map prompted } : AddressBook) < 2 ^ 31 - 16) :
    (∀ e ∈ log, e.output.code = 0) ∧ (readMessage file).code = 0 ∧
      (readMessage file).cout = typed.flatMap fun t => personLines (prompted t) := by
  have hkept : Kept file ([] ++ log) [] := by
    refine run_induction_of_ok (p := fun _ _ => True) (I := Kept) ?_
      ⟨by simp, .inl ⟨rfl, rfl⟩, hsize⟩ ((along_iff hrun).mpr fun _ _ => trivial) hrun
    intro file log t typed file' exit h _ hstep
    rw [total_eq_ok] at hstep
    have hnext : Kept (writeStep argv file t).1
        (log ++ [⟨file, t, (writeStep argv file t).2⟩]) typed :=
      kept_writeStep h
    rwa [hstep] at hnext
  obtain ⟨hcode, hfile, hfits⟩ := hkept
  have hpeople : (log.map fun e => prompted e.input) = typed.map prompted := by
    rw [← log_map_input hrun, List.map_map]
    rfl
  rw [List.nil_append, hpeople] at hfile
  rcases hfile with ⟨-, hempty⟩ | rfl
  · exact absurd (List.map_eq_nil_iff.mp hempty) hne
  · rw [readMessage_of_holds hsize]
    exact ⟨hcode, rfl, by rw [listPeople, List.flatMap_map]⟩

/-- A person with a phone, and one at the end of the input. -/
theorem listing_of_run_two_people : ∃ file log,
    run (total (writeStep (chars "book"))) none
      [(chars "-7\nAnn\na@b\n5550\nwork\n\n", 0), ([], 3)] = .ok (file, log) ∧
    (readMessage file).cout
      = chars "Person ID: -7\n  Name: Ann\n  E-mail address: a@b\n  Work phone #: 5550\n"
        ++ chars "Person ID: 3\n  Name: \n" := by
  obtain ⟨file, log, hrun⟩ := exists_run_total (writeStep (chars "book")) none
    [(chars "-7\nAnn\na@b\n5550\nwork\n\n", 0), ([], 3)]
  have hlisted := (listing_of_run (List.cons_ne_nil _ _) hrun (by decide +kernel)).2.2
  exact ⟨file, log, hrun, hlisted.trans (by decide +kernel)⟩

/-! ## What can be typed -/

namespace Cin

theorem getline_line {line : Bytes} (hline : newline ∉ line) (rest : Bytes) :
    getline ⟨line ++ newline :: rest, true⟩ = (line, ⟨rest, true⟩) := by
  have htake : (line ++ newline :: rest).takeWhile (· ≠ newline) = line := by
    rw [List.takeWhile_append_of_pos fun b hb => decide_eq_true (ne_of_mem_of_not_mem hb hline)]
    simp
  simp only [getline, Bool.not_true, Bool.false_eq_true, if_false, htake, List.drop_left]

theorem newline_not_mem_getline (c : Cin) : newline ∉ c.getline.1 := by
  unfold getline
  split
  · exact List.not_mem_nil
  · have hline : newline ∉ c.input.takeWhile (· ≠ newline) := by
      intro hmem
      have hne := List.mem_takeWhile_imp hmem
      exact absurd rfl (of_decide_eq_true hne)
    dsimp only
    split <;> exact hline

theorem ignore_newline (rest : Bytes) : ignore 256 ⟨newline :: rest, true⟩ = ⟨rest, true⟩ := by
  simp [ignore]

end Cin

theorem isDigit_digit {d : Nat} (hd : d < 10) : Cin.isDigit (0x30 + UInt8.ofNat d) = true := by
  interval_cases d <;> rfl

theorem toNat_digit {d : Nat} (hd : d < 10) : (0x30 + UInt8.ofNat d).toNat - 0x30 = d := by
  interval_cases d <;> rfl

theorem forall_digitsOf (n : Nat) : ∀ b ∈ digitsOf n, Cin.isDigit b = true := by
  unfold digitsOf
  split
  · simp [Cin.isDigit]
  · simp only [List.mem_map, List.mem_reverse, forall_exists_index, and_imp]
    rintro _ d hd rfl
    exact isDigit_digit (Nat.digits_lt_base (by norm_num) hd)

theorem valueOf_digitsOf (n : Nat) : Cin.valueOf (digitsOf n) = n := by
  unfold digitsOf
  split
  · rename_i hzero
    rw [hzero]
    rfl
  · have hdigits : ((Nat.digits 10 n).map fun d => (0x30 + UInt8.ofNat d).toNat - 0x30)
        = Nat.digits 10 n :=
      (List.map_congr_left fun d hd => toNat_digit (Nat.digits_lt_base (by norm_num) hd)).trans
        (List.map_id _)
    rw [Cin.valueOf, ← List.map_reverse, List.reverse_reverse, List.map_map]
    exact (congrArg (Nat.ofDigits 10) hdigits).trans (Nat.ofDigits_digits 10 n)

theorem digitsOf_ne_nil (n : Nat) : digitsOf n ≠ [] := by
  unfold digitsOf
  split
  · simp
  · rename_i hn
    simpa [Nat.digits_eq_nil_iff_eq_zero] using hn

theorem toInt_toInt (i : Int32) : Cin.toInt i.toInt = (i, true) := by
  have hle := i.le_toInt
  have hlt := i.toInt_lt
  rw [Cin.toInt, if_neg (by omega), if_neg (by omega), Int32.ofInt_toInt]

theorem takeWhile_digitsOf (n : Nat) (rest : Bytes) :
    (digitsOf n ++ newline :: rest).takeWhile Cin.isDigit = digitsOf n := by
  rw [List.takeWhile_append_of_pos (forall_digitsOf n), List.takeWhile_cons_of_neg (by decide),
    List.append_nil]

theorem notDigit_of_isSpace {b : UInt8} (h : Cin.isDigit b = true) :
    Cin.isSpace b = false ∧ b ≠ 0x2D ∧ b ≠ 0x2B := by
  simp only [Cin.isDigit, Bool.decide_and, Bool.and_eq_true, decide_eq_true_eq,
    UInt8.le_iff_toNat_le, UInt8.reduceToNat] at h
  simp only [Cin.isSpace, decide_eq_false_iff_not, ne_eq, UInt8.le_iff_toNat_le,
    ← UInt8.toNat_inj, UInt8.reduceToNat]
  omega

/-- What an `int` is printed as is read as that `int`. -/
theorem Cin.readInt_decimal (i : Int32) (rest : Bytes) (uninitialized : Int32) :
    readInt ⟨decimal i.toInt ++ newline :: rest, true⟩ uninitialized
      = (i, ⟨newline :: rest, true⟩) := by
  have htake := takeWhile_digitsOf i.toInt.natAbs rest
  have hvalue := valueOf_digitsOf i.toInt.natAbs
  have hne := digitsOf_ne_nil i.toInt.natAbs
  unfold decimal
  by_cases hneg : i.toInt < 0
  · -- a sign, and the digits
    simp [readInt, hneg, isSpace, htake, hne, hvalue, abs_of_neg hneg, toInt_toInt]
  · -- the first character is a digit
    obtain ⟨b, digits, hdigits⟩ := List.exists_cons_of_ne_nil hne
    have hb := notDigit_of_isSpace
      (forall_digitsOf i.toInt.natAbs b (by rw [hdigits]; exact List.mem_cons_self))
    rw [hdigits] at htake hvalue
    rw [List.cons_append] at htake
    simp [readInt, hneg, hdigits, htake, hvalue, hb, abs_of_nonneg (not_lt.mp hneg), toInt_toInt]

/-- A phone number that can be typed: a line that is not blank. -/
structure PhoneNumber.Typeable (phone : PhoneNumber) : Prop where
  isSome : phone.number.isSome
  line : ∀ number, phone.number = some number → number ≠ [] ∧ newline ∉ number
  type : phone.type ≠ some .unspecified

/-- A person that can be typed. -/
structure Person.Typeable (person : Person) : Prop where
  name_isSome : person.name.isSome
  name : ∀ name, person.name = some name → newline ∉ name
  id : person.id.isSome
  email : ∀ email, person.email = some email → email ≠ [] ∧ newline ∉ email
  phones : ∀ phone ∈ person.phones, phone.Typeable

/-- The answer that gives a phone type. -/
def phoneWord : Option PhoneType → Bytes
  | some .mobile => chars "mobile"
  | some .home => chars "home"
  | some .work => chars "work"
  | _ => []

def PhoneNumber.typed (phone : PhoneNumber) : Bytes :=
  phone.number.getD [] ++ newline :: (phoneWord phone.type ++ [newline])

/-- The answers that give a person. -/
def Person.typed (person : Person) : Bytes :=
  decimal (person.id.getD 0).toInt ++ newline :: (person.name.getD [] ++ newline ::
    (person.email.getD [] ++ newline :: (person.phones.flatMap PhoneNumber.typed ++ [newline])))

theorem phoneType_phoneWord {type : Option PhoneType} (h : type ≠ some .unspecified) :
    phoneType (phoneWord type) = type ∧ newline ∉ phoneWord type := by
  rcases type with _ | _ | _ | _ | _
  · decide
  · exact absurd rfl h
  · decide
  · decide
  · decide

/-- The numbers that are typed, and what is typed after them is left. -/
theorem askPhones_typed {phones : List PhoneNumber} {n : Nat}
    (hphones : ∀ phone ∈ phones, phone.Typeable) (rest : Bytes) (hlt : phones.length < n) :
    (askPhones n ⟨phones.flatMap PhoneNumber.typed ++ newline :: rest, true⟩).1 = phones ∧
      (askPhones n ⟨phones.flatMap PhoneNumber.typed ++ newline :: rest, true⟩).2.2
        = ⟨rest, true⟩ := by
  induction phones generalizing n with
  | nil =>
      obtain ⟨m, rfl⟩ := Nat.exists_eq_succ_of_ne_zero (Nat.ne_of_gt hlt)
      have hblank := Cin.getline_line List.not_mem_nil rest
      rw [List.nil_append] at hblank
      simp [askPhones, hblank]
  | cons phone phones ih =>
      obtain ⟨m, rfl⟩ := Nat.exists_eq_succ_of_ne_zero (Nat.ne_of_gt (Nat.zero_lt_of_lt hlt))
      rw [List.forall_mem_cons] at hphones
      obtain ⟨number, hnumber⟩ := Option.isSome_iff_exists.mp hphones.1.isSome
      have hline := hphones.1.line number hnumber
      have hword := phoneType_phoneWord hphones.1.type
      have htyped : (phone :: phones).flatMap PhoneNumber.typed ++ newline :: rest
          = number ++ newline :: (phoneWord phone.type ++ newline ::
              (phones.flatMap PhoneNumber.typed ++ newline :: rest)) := by
        simp [PhoneNumber.typed, hnumber]
      have hrest := ih hphones.2 (Nat.lt_of_succ_lt_succ hlt)
      rw [htyped]
      simp only [askPhones, Cin.getline_line hline.2, if_neg hline.1, Cin.getline_line hword.2,
        hword.1, hrest, and_true, ← hnumber]

theorem length_le_flatMap_typed (phones : List PhoneNumber) :
    phones.length ≤ (phones.flatMap PhoneNumber.typed).length := by
  induction phones with
  | nil => exact Nat.le_refl 0
  | cons phone phones ih =>
      simp only [List.flatMap_cons, List.length_append, List.length_cons, PhoneNumber.typed]
      omega

/-- **Who is typed is who is asked for**, whatever follows. -/
theorem promptForAddress_typed {person : Person} (h : person.Typeable) (rest : Bytes)
    (uninitialized : Int32) :
    (promptForAddress ⟨person.typed ++ rest, true⟩ uninitialized).1 = person ∧
      (promptForAddress ⟨person.typed ++ rest, true⟩ uninitialized).2.2 = ⟨rest, true⟩ := by
  obtain ⟨name, hname⟩ := Option.isSome_iff_exists.mp h.name_isSome
  obtain ⟨id, hid⟩ := Option.isSome_iff_exists.mp h.id
  have hemail : newline ∉ person.email.getD [] := by
    rcases hsome : person.email with _ | email
    · exact List.not_mem_nil
    · exact (h.email email hsome).2
  have hback : (if person.email.getD [] = [] then none else some (person.email.getD []))
      = person.email := by
    rcases hsome : person.email with _ | email
    · rfl
    · exact if_neg (h.email email hsome).1
  have htyped : person.typed ++ rest = decimal id.toInt ++ newline :: (name ++ newline ::
      (person.email.getD [] ++ newline ::
        (person.phones.flatMap PhoneNumber.typed ++ newline :: rest))) := by
    simp [Person.typed, hname, hid]
  have hrounds : person.phones.length
      < (person.phones.flatMap PhoneNumber.typed ++ newline :: rest).length + 1 := by
    have hlen := length_le_flatMap_typed person.phones
    rw [List.length_append]
    omega
  have hphones := askPhones_typed h.phones rest hrounds
  rw [htyped]
  simp only [promptForAddress, Cin.readInt_decimal, Cin.ignore_newline,
    Cin.getline_line (h.name name hname), Cin.getline_line hemail, hback, hphones, and_true]
  rw [← hname, ← hid]

theorem askPhones_typeable (n : Nat) (c : Cin) :
    ∀ phone ∈ (askPhones n c).1, phone.Typeable := by
  induction n generalizing c with
  | zero => simp [askPhones]
  | succ n ih =>
      simp only [askPhones]
      split
      · simp
      · rename_i hne
        refine List.forall_mem_cons.mpr ⟨⟨rfl, ?_, ?_⟩, ih _⟩
        · intro number hnumber
          rw [← Option.some.inj hnumber]
          exact ⟨hne, c.newline_not_mem_getline⟩
        · unfold phoneType
          split_ifs <;> simp

/-- **Who can be asked for**: just the persons that can be typed. -/
theorem promptForAddress_iff {person : Person} :
    (∃ typed, prompted typed = person) ↔ person.Typeable := by
  constructor
  · rintro ⟨typed, rfl⟩
    unfold prompted promptForAddress
    refine ⟨rfl, ?_, rfl, ?_, askPhones_typeable _ _⟩
    · intro name hname
      rw [← Option.some.inj hname]
      exact Cin.newline_not_mem_getline _
    · dsimp only
      split_ifs with hblank
      · simp
      · intro email hemail
        rw [← Option.some.inj hemail]
        exact ⟨hblank, Cin.newline_not_mem_getline _⟩
  · intro h
    have htyped := (promptForAddress_typed h [] 0).1
    rw [List.append_nil] at htyped
    exact ⟨(person.typed, 0), htyped⟩

end ChatApp.Tutorial
