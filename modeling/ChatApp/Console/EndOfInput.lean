import ChatApp.Console.Lines

set_option autoImplicit false

/-! # Reading to the end of the input

At the end of the input `getchar` returns `EOF`, again and again. To `read` that is a character
like any other: it is cut to a byte, typed behind the line, and the loop goes on. So a read
returns exactly if there is a newline to come (`readEnds_iff`), and what it returns has nothing
of an `EOF` in it; and a loop that reads until it is content ends exactly if it is content with
one of the lines the input completes (`promptUntil_ends_iff`).
-/

namespace ChatApp

open Lib

namespace Console

def eof : Int := -1

/-- The first results of `getchar`: the input, and `EOF` from then on. -/
def getchars (input : Bytes) (n : Nat) : List Int := charsOf input ++ List.replicate n eof

/-- Read until `accept` has a use for a line. `accept k` is asked about the line with the number
`k`, and has a text to write if it has none. The first argument bounds the rounds. -/
def promptUntil {α : Type} (prompt : Bytes) (accept : Nat → Bytes → Except Bytes α) :
    Nat → Console → List Int → Option (α × List Bytes × Console × List Int)
  | 0, _, _ => none
  | rounds + 1, c, getchars => do
      let (line, c, getchars) ← c.read prompt getchars
      match accept 0 line with
      | .ok a => return (a, [], c, getchars)
      | .error complaint =>
          let (a, written, c, getchars) ←
            promptUntil prompt (fun k => accept (k + 1)) rounds c getchars
          return (a, complaint :: written, c, getchars)

/-! ## The lines of an input -/

/-- The lines that a newline completes. -/
def completeLines (input : Bytes) : List Bytes := (input.splitOn 0x0A).dropLast

variable {input line tail : Bytes}

theorem completeLines_of_not_mem (h : 0x0A ∉ input) : completeLines input = [] := by
  rw [completeLines, List.splitOn_eq_singleton h]
  rfl

theorem completeLines_cons (h : 0x0A ∉ line) :
    completeLines (line ++ 0x0A :: tail) = line :: completeLines tail := by
  calc completeLines (line ++ 0x0A :: tail) = (line :: tail.splitOn 0x0A).dropLast := by
        rw [completeLines, List.splitOn_append_cons_self_of_not_mem h]
    _ = line :: completeLines tail := List.dropLast_cons_of_ne_nil (List.splitOn_ne_nil _ _)

/-- Induction on the lines of an input: a last line without a newline, or a line with one before
other lines. -/
theorem lines_induction {motive : Bytes → Prop}
    (last : ∀ input, 0x0A ∉ input → motive input)
    (cons : ∀ line tail, 0x0A ∉ line → motive tail → motive (line ++ 0x0A :: tail))
    (input : Bytes) : motive input := by
  induction hlen : input.length using Nat.strong_induction_on generalizing input with
  | _ n ih =>
      by_cases hmem : (0x0A : UInt8) ∈ input
      · obtain ⟨line, tail, rfl, hline⟩ := List.eq_append_cons_of_mem hmem
        refine cons line tail hline (ih tail.length ?_ tail rfl)
        rw [← hlen, List.length_append, List.length_cons]
        omega
      · exact last input hmem

theorem getchars_cons (line tail : Bytes) (n : Nat) :
    getchars (line ++ 0x0A :: tail) n = charsOf line ++ kNewLine :: getchars tail n := by
  calc getchars (line ++ 0x0A :: tail) n
      = charsOf line ++ charsOf (0x0A :: tail) ++ List.replicate n eof := by
        rw [getchars, charsOf_append]
    _ = charsOf line ++ kNewLine :: getchars tail n := by
        rw [charsOf_cons, List.append_assoc]
        rfl

/-! ## One read -/

/-- An `EOF` is typed behind the line. -/
theorem readChar_eof (c : Console) :
    c.readChar eof = ({ c with userInput := c.userInput ++ [0xFF] }, [0xFF], none) := rfl

theorem readLoop_eof (c : Console) (n : Nat) : readLoop c (List.replicate n eof) = none := by
  induction n generalizing c with
  | zero => rfl
  | succ n ih =>
      rw [List.replicate_succ, readLoop_cons_of_none (readChar_eof c)]
      exact ih _

/-- **Without a newline to come a read does not return.** -/
theorem read_of_not_mem (prompt : Bytes) (h : 0x0A ∉ input) (n : Nat) :
    read {} prompt (getchars input n) = none :=
  (readLoop_keys prompt [] h _).trans (readLoop_eof _ n)

/-- Otherwise it returns the first line. -/
theorem read_of_line (prompt : Bytes) (h : 0x0A ∉ line) (tail : Bytes) (n : Nat) :
    read {} prompt (getchars (line ++ 0x0A :: tail) n)
      = some (edit line, {}, getchars tail n) := by
  rw [getchars_cons]
  exact read_line prompt h

/-- The read returns after finitely many characters. -/
def ReadEnds (prompt input : Bytes) : Prop :=
  ∃ n out, read {} prompt (getchars input n) = some out

/-- The string returned is a line of the input, as it was edited, and what has not been taken is
the rest of the input: no `EOF` is in the string. -/
def NoEofReturned (prompt input : Bytes) : Prop :=
  ∀ n line c rest, read {} prompt (getchars input n) = some (line, c, rest) →
    ∃ keys tail, input = keys ++ 0x0A :: tail ∧ line = edit keys ∧ rest = getchars tail n

theorem noEofReturned (prompt input : Bytes) : NoEofReturned prompt input := by
  intro n line c rest hread
  by_cases hmem : (0x0A : UInt8) ∈ input
  · obtain ⟨keys, tail, rfl, hkeys⟩ := List.eq_append_cons_of_mem hmem
    rw [read_of_line prompt hkeys, Option.some.injEq, Prod.mk.injEq, Prod.mk.injEq] at hread
    exact ⟨keys, tail, rfl, hread.1.symm, hread.2.2.symm⟩
  · rw [read_of_not_mem prompt hmem] at hread
    cases hread

theorem readEnds_iff (prompt input : Bytes) : ReadEnds prompt input ↔ 0x0A ∈ input := by
  constructor
  · rintro ⟨n, out, hread⟩
    by_contra hmem
    rw [read_of_not_mem prompt hmem] at hread
    cases hread
  · intro hmem
    obtain ⟨line, tail, rfl, hline⟩ := List.eq_append_cons_of_mem hmem
    exact ⟨0, _, read_of_line prompt hline tail 0⟩

/-! ## A loop of reads -/

section PromptUntil

variable {α : Type} (prompt : Bytes)

theorem promptUntil_of_not_mem (accept : Nat → Bytes → Except Bytes α) (h : 0x0A ∉ input)
    (rounds n : Nat) : promptUntil prompt accept rounds {} (getchars input n) = none := by
  cases rounds with
  | zero => rfl
  | succ rounds =>
      rw [promptUntil, read_of_not_mem prompt h]
      rfl

theorem promptUntil_of_line (accept : Nat → Bytes → Except Bytes α) (h : 0x0A ∉ line)
    (tail : Bytes) (rounds n : Nat) :
    promptUntil prompt accept (rounds + 1) {} (getchars (line ++ 0x0A :: tail) n)
      = match accept 0 (edit line) with
        | .ok a => some (a, [], {}, getchars tail n)
        | .error complaint =>
            (promptUntil prompt (fun k => accept (k + 1)) rounds {} (getchars tail n)).map
              fun out => (out.1, complaint :: out.2.1, out.2.2) := by
  rw [promptUntil, read_of_line prompt h]
  show (match accept 0 (edit line) with | .ok a => _ | .error complaint => _) = _
  cases accept 0 (edit line) with
  | ok a => rfl
  | error complaint =>
      cases promptUntil prompt (fun k => accept (k + 1)) rounds {} (getchars tail n) <;> rfl

/-- The loop ends after finitely many rounds and characters. -/
def PromptEnds (accept : Nat → Bytes → Except Bytes α) (input : Bytes) : Prop :=
  ∃ rounds n out, promptUntil prompt accept rounds {} (getchars input n) = some out

/-- The loop ends in its first round, or as if it had started behind the first line. -/
theorem promptEnds_cons (accept : Nat → Bytes → Except Bytes α) (h : 0x0A ∉ line) (tail : Bytes) :
    PromptEnds prompt accept (line ++ 0x0A :: tail) ↔
      (∃ a, accept 0 (edit line) = .ok a) ∨
        PromptEnds prompt (fun k => accept (k + 1)) tail := by
  cases haccept : accept 0 (edit line) with
  | ok a =>
      refine iff_of_true ⟨1, 0, (a, [], {}, getchars tail 0), ?_⟩ (.inl ⟨a, rfl⟩)
      rw [promptUntil_of_line prompt accept h, haccept]
  | error complaint =>
      constructor
      · -- A loop that ends has gone at least one round, and that round has complained.
        rintro ⟨rounds, n, out, hout⟩
        cases rounds with
        | zero => cases hout
        | succ rounds =>
            rw [promptUntil_of_line prompt accept h, haccept] at hout
            obtain ⟨out', hout', -⟩ := Option.map_eq_some_iff.mp hout
            exact .inr ⟨rounds, n, out', hout'⟩
      · rintro (⟨a, ha⟩ | ⟨rounds, n, out, hout⟩)
        · cases ha
        · refine ⟨rounds + 1, n, (out.1, complaint :: out.2.1, out.2.2), ?_⟩
          rw [promptUntil_of_line prompt accept h, haccept, hout]
          rfl

/-- **The loop ends exactly if one of the lines is accepted** in its round. -/
theorem promptUntil_ends_iff (accept : Nat → Bytes → Except Bytes α) (input : Bytes) :
    PromptEnds prompt accept input ↔
      ∃ k line, (completeLines input)[k]? = some line ∧ ∃ a, accept k (edit line) = .ok a := by
  induction input using lines_induction generalizing accept with
  | last input hinput =>
      constructor
      · rintro ⟨rounds, n, out, hout⟩
        rw [promptUntil_of_not_mem prompt accept hinput] at hout
        cases hout
      · rintro ⟨k, line, hline, -⟩
        rw [completeLines_of_not_mem hinput] at hline
        cases hline
  | cons line tail hline ih =>
      rw [promptEnds_cons prompt accept hline, ih, completeLines_cons hline]
      constructor
      · rintro (haccept | ⟨k, line', hline', haccept⟩)
        · exact ⟨0, line, rfl, haccept⟩
        · exact ⟨k + 1, line', hline', haccept⟩
      · rintro ⟨k, line', hline', haccept⟩
        cases k with
        | zero =>
            obtain rfl : line = line' := Option.some.inj hline'
            exact .inl haccept
        | succ k => exact .inr ⟨k, line', hline', haccept⟩

end PromptUntil

end Console

end ChatApp
