import ChatApp.Console.PromptLine

set_option autoImplicit false

/-! # What a read returns

`read` takes one result of `getchar` after another and returns at a newline, with the console as
it was before: no prompt, and nothing typed. So every read starts from an empty console, and a
line that has no newline in it is returned as `edit` has it (`read_line`).

What other threads write meanwhile goes through the console's prompt and input only to print
them, and is left out.
-/

namespace ChatApp

open Lib

namespace Console

/-- The loop of `read`, over what `getchar` returns: the string returned, the console, and what
has not been taken. `none`: the loop has taken everything and is waiting for more. -/
def readLoop (c : Console) : List Int → Option (Bytes × Console × List Int)
  | [] => none
  | nextChar :: getchars =>
      match c.readChar nextChar with
      | (c, _, some line) => some (line, c, getchars)
      | (c, _, none) => readLoop c getchars

def read (c : Console) (prompt : Bytes) (getchars : List Int) :
    Option (Bytes × Console × List Int) :=
  readLoop (c.readPrompt prompt).1 getchars

/-- What `getchar` returns for bytes. -/
def charsOf (bs : Bytes) : List Int := bs.map fun b => (b.toNat : Int)

@[simp] theorem charsOf_cons (b : UInt8) (bs : Bytes) :
    charsOf (b :: bs) = (b.toNat : Int) :: charsOf bs := rfl

theorem charsOf_append (bs bs' : Bytes) : charsOf (bs ++ bs') = charsOf bs ++ charsOf bs' :=
  List.map_append

variable {c : Console} {prompt : Bytes} {line : Bytes} {getchars : List Int}

theorem readLoop_cons_of_none {c' : Console} {out : Bytes} {nextChar : Int}
    (h : c.readChar nextChar = (c', out, none)) :
    readLoop c (nextChar :: getchars) = readLoop c' getchars := by
  rw [readLoop, h]

theorem readLoop_cons_of_some {c' : Console} {out : Bytes} {nextChar : Int}
    (h : c.readChar nextChar = (c', out, some line)) :
    readLoop c (nextChar :: getchars) = some (line, c', getchars) := by
  rw [readLoop, h]

/-- A key other than the newline is edited into the line. -/
theorem readLoop_key (prompt keys : Bytes) {key : UInt8} (h : key ≠ 0x0A) :
    readLoop ⟨prompt, edit keys⟩ ((key.toNat : Int) :: getchars)
      = readLoop ⟨prompt, edit (keys ++ [key])⟩ getchars := by
  have hread := readChar_toNat ⟨prompt, edit keys⟩ key
  by_cases hdel : key = 0x7F
  · rw [hdel, edit_del]
    rw [if_pos hdel] at hread
    by_cases hnil : edit keys = []
    · rw [if_pos hnil, hdel] at hread
      rw [readLoop_cons_of_none hread, hnil]
      rfl
    · rw [if_neg hnil, hdel] at hread
      exact readLoop_cons_of_none hread
  · rw [if_neg hdel, if_neg h] at hread
    rw [edit_char keys hdel]
    exact readLoop_cons_of_none hread

theorem readLoop_keys (prompt keys : Bytes) (h : 0x0A ∉ line) (getchars : List Int) :
    readLoop ⟨prompt, edit keys⟩ (charsOf line ++ getchars)
      = readLoop ⟨prompt, edit (keys ++ line)⟩ getchars := by
  induction line generalizing keys with
  | nil =>
      rw [List.append_nil]
      rfl
  | cons key line ih =>
      rw [List.mem_cons, not_or] at h
      calc readLoop ⟨prompt, edit keys⟩ (charsOf (key :: line) ++ getchars)
          = readLoop ⟨prompt, edit (keys ++ [key])⟩ (charsOf line ++ getchars) :=
            readLoop_key prompt keys (Ne.symm h.1)
        _ = readLoop ⟨prompt, edit (keys ++ [key] ++ line)⟩ getchars := ih _ h.2
        _ = readLoop ⟨prompt, edit (keys ++ key :: line)⟩ getchars := by
            rw [List.append_assoc, List.singleton_append]

/-- **A read returns the line as it was edited**, and leaves the console empty. -/
theorem read_line (prompt : Bytes) (h : 0x0A ∉ line) :
    read {} prompt (charsOf line ++ kNewLine :: getchars) = some (edit line, {}, getchars) := by
  have hkeys := readLoop_keys prompt [] h (kNewLine :: getchars)
  have hread : readChar ⟨prompt, edit line⟩ kNewLine = ({}, [0x0A], some (edit line)) :=
    readChar_toNat ⟨prompt, edit line⟩ 0x0A
  rw [List.nil_append, readLoop_cons_of_some hread] at hkeys
  exact hkeys

end Console

end ChatApp
