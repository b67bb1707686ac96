import ChatApp.Lib.Simulation
import ChatApp.Tutorial.AddressBook
import Mathlib.Data.Nat.Digits.Defs

set_option autoImplicit false

/-! # The programs of the tutorial (`protobuf-tutorial/write_message.cpp`, `read_message.cpp`)

`write_message` reads an address book from a file, asks for a person on the standard input and
writes the book back; `read_message` lists what is in the file. The standard input is a stream
that is good until a read fails or meets its end; a file is its bytes, if it is there.

The rounds of the loop over the phone numbers are bounded by the input: a number takes a
character at least (`askPhones_of_lt`).
-/

namespace ChatApp.Tutorial

open Lib Lib.Wire Lib.Wire.Message

/-- The characters of a literal. -/
def chars (s : String) : Bytes := s.toUTF8.data.toList

def newline : UInt8 := 0x0A

/-! ## The standard input -/

/-- What is left of the input, and whether no read has failed or met the end. -/
structure Cin where
  input : Bytes
  good : Bool := true
  deriving Repr, DecidableEq

namespace Cin

/-- `getline(cin, s)` into an empty string. -/
def getline (c : Cin) : Bytes × Cin :=
  if !c.good then ([], c)
  else
    let line := c.input.takeWhile (· ≠ newline)
    match c.input.drop line.length with
    | [] => (line, ⟨[], false⟩)
    | _ :: rest => (line, ⟨rest, true⟩)

/-- `cin.ignore(n, '\n')`. -/
def ignore (n : Nat) (c : Cin) : Cin :=
  if !c.good then c
  else
    let skipped := (c.input.take n).takeWhile (· ≠ newline)
    if skipped.length = n then ⟨c.input.drop n, true⟩
    else
      match c.input.drop skipped.length with
      | [] => ⟨[], false⟩
      | _ :: rest => ⟨rest, true⟩

/-- `isspace` in the C locale. -/
def isSpace (b : UInt8) : Bool := b = 0x20 ∨ (0x09 ≤ b ∧ b ≤ 0x0D)

def isDigit (b : UInt8) : Bool := 0x30 ≤ b ∧ b ≤ 0x39

/-- The number that digits stand for. -/
def valueOf (digits : Bytes) : Nat :=
  Nat.ofDigits 10 (digits.reverse.map fun b => b.toNat - 0x30)

/-- An `int` for a number, the nearest if there is none, and whether there is one. -/
def toInt (n : Int) : Int32 × Bool :=
  if n < -2 ^ 31 then (Int32.ofInt (-2 ^ 31), false)
  else if 2 ^ 31 ≤ n then (Int32.ofInt (2 ^ 31 - 1), false)
  else (Int32.ofInt n, true)

/-- `cin >> id` for an `int id` that is not initialized: it keeps what it holds if the stream
is not good or has nothing but blanks left, and is set to zero if no number follows. -/
def readInt (c : Cin) (uninitialized : Int32) : Int32 × Cin :=
  if !c.good then (uninitialized, c)
  else
    match c.input.dropWhile isSpace with
    | [] => (uninitialized, ⟨[], false⟩)
    | b :: rest =>
        let signed := b = 0x2D ∨ b = 0x2B
        let text := if signed then rest else b :: rest
        let digits := text.takeWhile isDigit
        let rest := text.drop digits.length
        if digits = [] then (0, ⟨rest, false⟩)
        else
          let n : Int := if b = 0x2D then -(valueOf digits : Int) else valueOf digits
          ((toInt n).1, ⟨rest, (toInt n).2 && !rest.isEmpty⟩)

end Cin

/-! ## Asking for a person -/

/-- The phone type that is typed. -/
def phoneType (type : Bytes) : Option PhoneType :=
  if type = chars "mobile" then some .mobile
  else if type = chars "home" then some .home
  else if type = chars "work" then some .work
  else none

/-- The loop over the phone numbers: the numbers, what is printed, and the stream. The first
argument bounds the rounds. -/
def askPhones : Nat → Cin → List PhoneNumber × Bytes × Cin
  | 0, c => ([], [], c)
  | rounds + 1, c =>
      let (number, c) := c.getline
      let asked := chars "Enter a phone number (or leave blank to finish): "
      if number = [] then ([], asked, c)
      else
        let (type, c) := c.getline
        let asked := asked ++ chars "Is this a mobile, home, or work phone? "
          ++ if phoneType type = none then chars "unknown phone type. Using default.\n" else []
        let (phones, printed, c) := askPhones rounds c
        ({ number := some number, type := phoneType type } :: phones, asked ++ printed, c)

def promptForAddress (c : Cin) (uninitialized : Int32) : Person × Bytes × Cin :=
  let (id, c) := c.readInt uninitialized
  let c := c.ignore 256
  let (name, c) := c.getline
  let (email, c) := c.getline
  let (phones, printed, c) := askPhones (c.input.length + 1) c
  ({ name := some name
     id := some id
     email := if email = [] then none else some email
     phones := phones },
    chars "Enter person ID number: " ++ chars "Enter name: "
      ++ chars "Enter email address (blank for none): " ++ printed, c)

theorem Cin.length_getline_le (c : Cin) : c.getline.2.input.length + c.getline.1.length
    ≤ c.input.length := by
  unfold getline
  split
  · simp
  · have hle := (c.input.takeWhile_prefix (· ≠ newline)).length_le
    have hlen := List.length_drop (i := (c.input.takeWhile (· ≠ newline)).length) (l := c.input)
    dsimp only
    split <;> rename_i hdrop <;> rw [hdrop] at hlen <;>
      simp only [List.length_nil, List.length_cons] at hlen ⊢ <;> omega

/-- The loop ends: more rounds than the input has characters change nothing. -/
theorem askPhones_of_lt : ∀ {n m : Nat} {c : Cin}, c.input.length < n → n ≤ m →
    askPhones m c = askPhones n c
  | n + 1, m + 1, c, hlt, hle => by
      simp only [askPhones]
      split
      · rfl
      · rename_i hnumber
        have hpos := List.length_pos_of_ne_nil hnumber
        have h1 := c.length_getline_le
        have h2 := c.getline.2.length_getline_le
        rw [askPhones_of_lt (by omega) (by omega : n ≤ m)]

/-! ## The programs -/

/-- How a program ends: what `main` returns, the file, and what is printed. -/
structure Exit where
  code : Int
  file : Option Bytes
  cout : Bytes := []
  cerr : Bytes := []
  deriving Repr, DecidableEq

/-- The largest size that is serialized. -/
def intMax : Nat := 2 ^ 31 - 1

/-- `SerializeToOstream` to a file that was truncated: its bytes, and whether they are those of
the message. -/
def serializeToOstream (m : AddressBook) : Bytes × Bool :=
  if byteSizeLong m ≤ intMax then (serialize m, true) else ([], false)

/-- `write_message` on the file with the name `argv`. -/
def writeMessage (argv : Bytes) (file : Option Bytes) (stdin : Bytes) (uninitialized : Int32) :
    Exit :=
  let (addressBook, parsed, notFound) : AddressBook × Bool × Bytes :=
    match file with
    | none => ({}, true, argv ++ chars ": File not found. Creating a new file.\n")
    | some bs => ((parseFromArray bs).1, (parseFromArray bs : AddressBook × Bool).2, [])
  if !parsed then
    { code := -1, file := file, cout := notFound, cerr := chars "Failed to parse address book.\n" }
  else
    let (person, printed, _) := promptForAddress ⟨stdin, true⟩ uninitialized
    let (output, written) := serializeToOstream { people := addressBook.people ++ [person] }
    if !written then
      { code := -1, file := some output, cout := notFound ++ printed
        cerr := chars "Failed to write to address book.\n" }
    else { code := 0, file := some output, cout := notFound ++ printed }

/-- The digits of a number. -/
def digitsOf (n : Nat) : Bytes :=
  if n = 0 then [0x30] else (Nat.digits 10 n).reverse.map fun d => 0x30 + UInt8.ofNat d

/-- `cout << n`. -/
def decimal (n : Int) : Bytes := (if n < 0 then [0x2D] else []) ++ digitsOf n.natAbs

def phoneLine (phone : PhoneNumber) : Bytes :=
  (match phone.type.getD .home with
    | .mobile => chars "  Mobile phone #: "
    | .home => chars "  Home phone #: "
    | .work => chars "  Work phone #: "
    | .unspecified => [])
  ++ phone.number.getD [] ++ [newline]

/-- One round of the loop in `ListPeople`. -/
def personLines (person : Person) : Bytes :=
  chars "Person ID: " ++ decimal (person.id.getD 0).toInt ++ [newline]
    ++ chars "  Name: " ++ person.name.getD [] ++ [newline]
    ++ (match person.email with
        | some email => chars "  E-mail address: " ++ email ++ [newline]
        | none => [])
    ++ person.phones.flatMap phoneLine

def listPeople (addressBook : AddressBook) : Bytes := addressBook.people.flatMap personLines

/-- `read_message`. A file that is not there cannot be read to its end. -/
def readMessage (file : Option Bytes) : Exit :=
  match file with
  | none => { code := -1, file := file, cerr := chars "Failed to parse address book.\n" }
  | some bs =>
      let (addressBook, parsed) : AddressBook × Bool := parseFromArray bs
      if !parsed then
        { code := -1, file := file, cerr := chars "Failed to parse address book.\n" }
      else { code := 0, file := file, cout := listPeople addressBook }

end ChatApp.Tutorial
