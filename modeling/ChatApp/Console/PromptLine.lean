import ChatApp.Console.Console

set_option autoImplicit false

/-! # The prompt line

What the terminal should show is said by a `Transcript` of what happened: the lines that have
been written or completed, and the line being edited, which is the prompt and the characters
typed that no DEL has cancelled (`edit`). It knows nothing of carriage returns and backspaces.

The terminal follows it, step by step (`ConsoleSession.Tracks.step`), but for one thing. `write`
erases the line with as many blanks as `setw` is told to print, and `setw` takes an `int`: a
line of `2 ^ 31` characters or more is not erased as far as it goes. The rows above are those of
the transcript if and only if no write leaves something of the line behind its own text
(`ConsoleSession.intact_iff`).
-/

namespace ChatApp

open Lib

/-! ## What should be shown -/

/-- One key, the last of those typed coming first: the characters kept so far, and the number of
DELs that are still to cancel one. -/
def cancel (key : UInt8) (kept : Bytes × Nat) : Bytes × Nat :=
  if key = 0x7F then (kept.1, kept.2 + 1)
  else match kept.2 with
    | 0 => (key :: kept.1, 0)
    | dels + 1 => (kept.1, dels)

/-- The characters typed that no later DEL has cancelled. A DEL cancels the last character
before it that is not cancelled yet, if there is one. -/
def edit (keys : Bytes) : Bytes := (keys.foldr cancel ([], 0)).1

@[simp] theorem edit_nil : edit [] = [] := rfl

/-- DELs behind the keys, and characters kept behind these: the DELs take as many of the
characters that the keys leave. -/
theorem foldr_cancel (keys kept : Bytes) (dels : Nat) :
    keys.foldr cancel (kept, dels)
      = ((edit keys).take ((edit keys).length - dels) ++ kept,
          (keys.foldr cancel ([], 0)).2 + (dels - (edit keys).length)) := by
  induction keys with
  | nil => simp
  | cons key keys ih =>
      unfold edit at ih ⊢
      rw [List.foldr_cons, List.foldr_cons, ih]
      rcases hkeys : keys.foldr cancel ([], 0) with ⟨line, rest⟩
      unfold cancel
      by_cases hdel : key = 0x7F
      · rw [if_pos hdel, if_pos hdel]
        simp only [Prod.mk.injEq, true_and]
        omega
      · rw [if_neg hdel, if_neg hdel]
        cases rest with
        | succ rest =>
            -- The key is cancelled by a DEL of its own.
            simp only [Nat.succ_add]
        | zero =>
            rcases Nat.lt_or_ge line.length dels with hlt | hle
            · -- The DELs behind have taken the whole line, and take the key too.
              have hpos : 0 + (dels - line.length) = (dels - line.length - 1) + 1 := by omega
              have hnone : line.length - dels = 0 := by omega
              have hnone' : (key :: line).length - dels = 0 := by
                rw [List.length_cons]
                omega
              simp only [hpos, hnone, hnone', List.take_zero, Prod.mk.injEq, true_and]
              rw [List.length_cons]
              omega
            · have hzero : 0 + (dels - line.length) = 0 := by omega
              have hzero' : 0 + (dels - (key :: line).length) = 0 := by
                rw [List.length_cons]
                omega
              have htake : (key :: line).length - dels = (line.length - dels) + 1 := by
                rw [List.length_cons]
                omega
              simp only [hzero, hzero', htake, List.take_succ_cons, List.cons_append]

/-- A DEL takes the last character there is. -/
theorem edit_del (keys : Bytes) : edit (keys ++ [0x7F]) = (edit keys).dropLast := by
  have hstep : cancel 0x7F ([], 0) = ([], 1) := rfl
  rw [edit, List.foldr_append, List.foldr_cons, List.foldr_nil, hstep, foldr_cancel]
  simp [List.dropLast_eq_take]

/-- Any other character comes behind them. -/
theorem edit_char (keys : Bytes) {c : UInt8} (h : c ≠ 0x7F) :
    edit (keys ++ [c]) = edit keys ++ [c] := by
  have hstep : cancel c ([], 0) = ([c], 0) := by
    unfold cancel
    rw [if_neg h]
  rw [edit, List.foldr_append, List.foldr_cons, List.foldr_nil, hstep, foldr_cancel]
  simp

/-- What happened: the lines written and completed, in order, the prompt of the read under way
and the keys typed in it, and the strings that reads have returned. -/
structure Transcript where
  lines : List Bytes := []
  prompt : Bytes := []
  keys : Bytes := []
  returned : List Bytes := []
  deriving Repr, DecidableEq

def Transcript.after (t : Transcript) : ConsoleEvent → Transcript
  | .read prompt => { t with prompt := prompt, keys := [] }
  | .typed c =>
      if c = 0x0A then
        { lines := t.lines ++ [t.prompt ++ edit t.keys]
          returned := t.returned ++ [edit t.keys] }
      else { t with keys := t.keys ++ [c] }
  | .write s => { t with lines := t.lines ++ [s] }

theorem Transcript.after_typed (t : Transcript) {c : UInt8} (h : c ≠ 0x0A) :
    t.after (.typed c) = { t with keys := t.keys ++ [c] } := if_neg h

def transcript (events : List ConsoleEvent) : Transcript := events.foldl Transcript.after {}

/-- Prompts and written strings are printable, and so are the keys that are no DEL and no
newline. -/
def ConsoleEvent.Printable : ConsoleEvent → Prop
  | .read prompt => ∀ c ∈ prompt, Lib.Printable c
  | .typed c => c = 0x7F ∨ c = 0x0A ∨ Lib.Printable c
  | .write s => ∀ c ∈ s, Lib.Printable c

instance : DecidablePred ConsoleEvent.Printable
  | .read prompt => inferInstanceAs (Decidable (∀ c ∈ prompt, Lib.Printable c))
  | .typed c => inferInstanceAs (Decidable (c = 0x7F ∨ c = 0x0A ∨ Lib.Printable c))
  | .write s => inferInstanceAs (Decidable (∀ c ∈ s, Lib.Printable c))

namespace ConsoleSession

variable {s : ConsoleSession} {t : Transcript}
  {log : List (Entry ConsoleSession ConsoleEvent (Option Bytes))}

/-- The line being edited. -/
def line (s : ConsoleSession) : Bytes := s.console.prompt ++ s.console.userInput

/-- The last row is the prompt and the input, with the cursor behind it; these are what the
transcript says; and what reads have returned is what the transcript says and what the last row
showed behind the prompt. -/
structure Tracks (t : Transcript) (s : ConsoleSession)
    (log : List (Entry ConsoleSession ConsoleEvent (Option Bytes))) : Prop where
  lastRow : s.screen.Reads blank s.line
  prompt : s.console.prompt = t.prompt
  input : s.console.userInput = edit t.keys
  idle : s.reading = false → s.line = []
  printable : ∀ c ∈ s.line, Printable c
  returned : log.filterMap Entry.output = t.returned
  displayed : ∀ e ∈ log, ∀ text ∈ e.output,
    e.before.screen.Reads blank (e.before.console.prompt ++ text)

/-- **The prompt line is intact**: the terminal shows the transcript. -/
structure Intact (t : Transcript) (s : ConsoleSession)
    (log : List (Entry ConsoleSession ConsoleEvent (Option Bytes))) : Prop
    extends Tracks t s log where
  above : List.Forall₂ (Shows blank) s.screen.above t.lines

/-- A write leaves nothing of the line: what the blanks of `setw` and the string written do not
reach over is blank itself. -/
def Erases (s : ConsoleSession) : ConsoleEvent → Prop
  | .write str => ∀ c ∈ s.line.drop (max (toInt32 s.line.length).toNat str.length), c = blank
  | .read _ => True
  | .typed _ => True

/-- A line that an `int` can count is erased. -/
theorem erases_of_length_lt (h : s.line.length < 2 ^ 31) (e : ConsoleEvent) : s.Erases e := by
  cases e with
  | read prompt => trivial
  | typed c => trivial
  | write str =>
      intro c hc
      rw [toInt32_of_lt h, Int.toNat_natCast, List.drop_of_length_le (Nat.le_max_left _ _)] at hc
      cases hc

/-! ## What is printed -/

theorem display_of_printable (screen : Screen UInt8) {out : Bytes}
    (h : ∀ c ∈ out, Printable c) : display screen out = screen.feed blank (out.map .put) := by
  rw [display, map_ofByte_of_printable h]

/-- A write over a line: the text in its place, a new line, and the line again. -/
theorem display_write_of_ne_nil {str : Bytes} (hstr : ∀ c ∈ str, Printable c)
    (hline : ∀ c ∈ s.line, Printable c) (hne : s.line ≠ []) :
    display s.screen (s.console.write str)
      = ((s.screen.feed blank (Screen.replacing blank (toInt32 s.line.length).toNat str)).step
          blank .newline).feed blank (s.line.map .put) := by
  have hlen : s.console.prompt.length + s.console.userInput.length = s.line.length :=
    List.length_append.symm
  have hsize : ¬s.line.length = 0 := by
    rw [List.length_eq_zero_iff]
    exact hne
  have hout : s.console.write str
      = 0x0D :: Console.setw s.line.length ++ 0x0D :: str ++ 0x0A :: s.line := by
    unfold Console.write
    rw [hlen, if_neg hsize]
    rfl
  -- `setw` pads the empty text to the width that the length is as an `int`.
  have hsetw : (Console.setw s.line.length).map Control.ofByte
      = (List.replicate (toInt32 s.line.length).toNat blank).map .put := by
    rw [Console.setw, List.map_replicate, List.map_replicate]
    rfl
  unfold display
  rw [hout, List.map_append, List.map_append, List.map_cons, List.map_cons, List.map_cons, hsetw,
    map_ofByte_of_printable hstr, map_ofByte_of_printable hline, Screen.feed_append]
  generalize (toInt32 s.line.length).toNat = width
  rfl

/-- A write when nothing is being edited. -/
theorem display_write_of_nil {str : Bytes} (hstr : ∀ c ∈ str, Printable c)
    (hnil : s.line = []) :
    display s.screen (s.console.write str)
      = (s.screen.feed blank (str.map .put)).step blank .newline := by
  have hlen : s.console.prompt.length + s.console.userInput.length = s.line.length :=
    List.length_append.symm
  have hout : s.console.write str = str ++ [0x0A] := by
    unfold Console.write
    rw [hlen, hnil]
    rfl
  unfold display
  rw [hout, List.map_append, map_ofByte_of_printable hstr, Screen.feed_append]
  rfl

/-! ## The steps -/

theorem forall₂_concat {α β : Type} {R : α → β → Prop} {as : List α} {bs : List β} {a : α}
    {b : β} : List.Forall₂ R (as ++ [a]) (bs ++ [b]) ↔ List.Forall₂ R as bs ∧ R a b := by
  rw [← List.forall₂_reverse_iff, List.reverse_append, List.reverse_append,
    List.reverse_singleton, List.reverse_singleton, List.singleton_append, List.singleton_append,
    List.forall₂_cons, List.forall₂_reverse_iff, and_comm]

/-- The fields of `Tracks` on what has been returned, after a step that returns nothing. -/
theorem Tracks.returned_of_none (h : Tracks t s log) (e : ConsoleEvent) :
    (log ++ [Entry.mk s e none]).filterMap Entry.output = t.returned ∧
      ∀ d ∈ log ++ [Entry.mk s e none], ∀ text ∈ d.output,
        d.before.screen.Reads blank (d.before.console.prompt ++ text) := by
  constructor
  · rw [List.filterMap_append, h.returned]
    exact List.append_nil _
  · refine forall_mem_concat h.displayed ?_
    intro text htext
    cases htext

/-- The prompt of a read comes on the empty row. -/
theorem Tracks.read (h : Tracks t s log) (hidle : s.reading = false) {prompt : Bytes}
    (hprompt : ∀ c ∈ prompt, Printable c) :
    let s' : ConsoleSession :=
      ⟨{ s.console with prompt := prompt }, true, display s.screen prompt⟩
    Tracks (t.after (.read prompt)) s' (log ++ [⟨s, .read prompt, none⟩]) ∧
      s'.screen.above = s.screen.above := by
  intro s'
  have hnil : s.console.prompt = [] ∧ s.console.userInput = [] :=
    List.append_eq_nil_iff.mp (h.idle hidle)
  have hline : s'.line = prompt := by
    show prompt ++ s.console.userInput = prompt
    rw [hnil.2, List.append_nil]
  have htype := h.lastRow.type prompt
  rw [← display_of_printable s.screen hprompt, h.idle hidle, List.nil_append] at htype
  have hreturned := h.returned_of_none (.read prompt)
  refine ⟨⟨?_, rfl, hnil.2, ?_, ?_, hreturned.1, hreturned.2⟩, htype.2⟩
  · rw [hline]
    exact htype.1
  · intro hidle'
    cases hidle'
  · rw [hline]
    exact hprompt

/-- A DEL rubs out the last character, if there is one. -/
theorem Tracks.del (h : Tracks t s log) (hreading : s.reading = true) :
    let read := s.console.readChar (0x7F : UInt8).toNat
    let s' : ConsoleSession := ⟨read.1, read.2.2.isNone, display s.screen read.2.1⟩
    read.2.2 = none ∧ Tracks (t.after (.typed 0x7F)) s' (log ++ [⟨s, .typed 0x7F, none⟩]) ∧
      s'.screen.above = s.screen.above := by
  intro read s'
  have hread : read = _ := Console.readChar_toNat s.console 0x7F
  rw [if_pos rfl] at hread
  have hkeys : (t.after (.typed 0x7F)).keys = t.keys ++ [0x7F] := rfl
  have hreturned := h.returned_of_none (.typed 0x7F)
  by_cases hnil : s.console.userInput = []
  · rw [if_pos hnil] at hread
    -- Nothing typed is left to rub out: neither the console nor the screen changes.
    have hs' : s' = s := by
      unfold s'
      rw [hread]
      show (⟨s.console, true, s.screen⟩ : ConsoleSession) = s
      rw [← hreading]
    rw [hs']
    refine ⟨by rw [hread], ⟨h.lastRow, h.prompt, ?_, h.idle, h.printable, hreturned.1,
      hreturned.2⟩, rfl⟩
    rw [hkeys, edit_del, ← h.input, hnil]
    rfl
  · rw [if_neg hnil] at hread
    -- The last character of the line is the last one typed.
    have hsplit : s.line
        = (s.console.prompt ++ s.console.userInput.dropLast) ++
            [s.console.userInput.getLast hnil] := by
      rw [List.append_assoc, List.dropLast_append_getLast hnil]
      rfl
    have hlast := h.lastRow
    rw [hsplit] at hlast
    have hs' : s' = ⟨{ s.console with userInput := s.console.userInput.dropLast }, true,
        s.screen.feed blank [.backspace, .put blank, .backspace]⟩ := by
      unfold s'
      rw [hread]
      rfl
    rw [hs']
    refine ⟨by rw [hread], ⟨hlast.rubOut.1, h.prompt, ?_, ?_, ?_, hreturned.1, hreturned.2⟩,
      hlast.rubOut.2⟩
    · rw [hkeys, edit_del, ← h.input]
    · intro hidle
      cases hidle
    · intro c hc
      apply h.printable
      rw [hsplit]
      exact List.mem_append_left _ hc

/-- A newline completes the line: it is the last of the rows above, and is returned without the
prompt. -/
theorem Tracks.newline (h : Tracks t s log) :
    let read := s.console.readChar (0x0A : UInt8).toNat
    let s' : ConsoleSession := ⟨read.1, read.2.2.isNone, display s.screen read.2.1⟩
    Tracks (t.after (.typed 0x0A)) s' (log ++ [⟨s, .typed 0x0A, read.2.2⟩]) ∧
      s'.screen.above = s.screen.above ++ [s.screen.row] := by
  intro read s'
  have hread : read = ({ prompt := [], userInput := [] }, [0x0A], some s.console.userInput) :=
    Console.readChar_toNat s.console 0x0A
  have hs' : s' = ⟨{ prompt := [], userInput := [] }, false, s.screen.step blank .newline⟩ := by
    unfold s'
    rw [hread]
    rfl
  have hafter : t.after (.typed 0x0A)
      = { lines := t.lines ++ [t.prompt ++ edit t.keys]
          returned := t.returned ++ [edit t.keys] } := rfl
  rw [hs', hread, hafter]
  refine ⟨⟨Screen.reads_newline _, rfl, rfl, fun _ => rfl, List.forall_mem_nil _, ?_, ?_⟩, rfl⟩
  · rw [List.filterMap_append, h.returned, ← h.input]
    rfl
  · -- The line that was completed here stood on the row it was edited on.
    refine forall_mem_concat h.displayed ?_
    intro text htext
    cases htext
    exact h.lastRow

/-- Any other character comes behind the line. -/
theorem Tracks.char (h : Tracks t s log) {c : UInt8} (hc : Printable c)
    (hdel : c ≠ 0x7F) (hnewline : c ≠ 0x0A) :
    let read := s.console.readChar c.toNat
    let s' : ConsoleSession := ⟨read.1, read.2.2.isNone, display s.screen read.2.1⟩
    read.2.2 = none ∧ Tracks (t.after (.typed c)) s' (log ++ [⟨s, .typed c, none⟩]) ∧
      s'.screen.above = s.screen.above := by
  intro read s'
  have hread : read
      = ({ s.console with userInput := s.console.userInput ++ [c] }, [c], none) := by
    unfold read
    rw [Console.readChar_toNat, if_neg hdel, if_neg hnewline]
  have hs' : s' = ⟨{ s.console with userInput := s.console.userInput ++ [c] }, true,
      display s.screen [c]⟩ := by
    unfold s'
    rw [hread]
    rfl
  have hcell : ∀ d ∈ [c], Printable d := by
    intro d hd
    rw [List.mem_singleton.mp hd]
    exact hc
  have htype := h.lastRow.type [c]
  rw [← display_of_printable s.screen hcell] at htype
  -- Typing at the end of the prompt line is typing at the end of the user's input.
  have hline : s.line ++ [c] = s.console.prompt ++ (s.console.userInput ++ [c]) :=
    List.append_assoc ..
  rw [hline] at htype
  have hreturned := h.returned_of_none (.typed c)
  rw [hs', t.after_typed hnewline]
  refine ⟨by rw [hread], ⟨htype.1, h.prompt, ?_, ?_, ?_, hreturned.1, hreturned.2⟩, htype.2⟩
  · show s.console.userInput ++ [c] = edit (t.keys ++ [c])
    rw [edit_char t.keys hdel, h.input]
  · intro hidle
    cases hidle
  · intro d hd
    rw [line, ← hline] at hd
    rcases List.mem_append.mp hd with hd | hd
    · exact h.printable d hd
    · exact hcell d hd

/-- A write puts its text above the line, and the line again below. The text's row shows the
text if and only if the line was erased. -/
theorem Tracks.write (h : Tracks t s log) {str : Bytes} (hstr : ∀ c ∈ str, Printable c) :
    let s' : ConsoleSession := { s with screen := display s.screen (s.console.write str) }
    Tracks (t.after (.write str)) s' (log ++ [⟨s, .write str, none⟩]) ∧
      ∃ row, s'.screen.above = s.screen.above ++ [row] ∧
        (Shows blank row str ↔ s.Erases (.write str)) := by
  intro s'
  have hreturned := h.returned_of_none (.write str)
  by_cases hnil : s.line = []
  -- Without a line nothing has to be erased, and the text stands on a fresh row.
  · have hscreen : s'.screen = _ := display_write_of_nil hstr hnil
    have htype := h.lastRow.type str
    have hlast : s'.screen.Reads blank s.line := by
      rw [hscreen, hnil]
      exact Screen.reads_newline _
    refine ⟨⟨hlast, h.prompt, h.input, h.idle, h.printable, hreturned.1, hreturned.2⟩,
      (s.screen.feed blank (str.map .put)).row, ?_, ?_⟩
    · rw [hscreen, Screen.above_newline, htype.2]
    · rw [hnil, List.nil_append] at htype
      refine iff_of_true htype.1.row ?_
      intro c hc
      rw [hnil, List.drop_nil] at hc
      cases hc
  · have hscreen : s'.screen = _ := display_write_of_ne_nil hstr h.printable hnil
    -- Below the text's row the line is typed again on a fresh row.
    have htype := (Screen.reads_newline
      (s.screen.feed blank (Screen.replacing blank (toInt32 s.line.length).toNat str))
      : Screen.Reads blank _ []).type s.line
    have hlast : s'.screen.Reads blank s.line := by
      rw [hscreen]
      exact htype.1
    refine ⟨⟨hlast, h.prompt, h.input, h.idle, h.printable, hreturned.1, hreturned.2⟩,
      (s.screen.feed blank (Screen.replacing blank (toInt32 s.line.length).toNat str)).row,
      ?_, ?_⟩
    · rw [hscreen, htype.2, Screen.above_newline, Screen.above_feed_replacing]
    · exact h.lastRow.replacing_iff _ _

/-- **The step lemma.** The terminal follows the transcript, and the rows above show its lines
after the step if and only if they did before it and the step erased what it had to. -/
theorem Tracks.step {s' : ConsoleSession} {e : ConsoleEvent} {out : Option Bytes}
    (h : Tracks t s log) (hprintable : e.Printable) (hstep : s.step e = .ok (s', out)) :
    Tracks (t.after e) s' (log ++ [⟨s, e, out⟩]) ∧
      (List.Forall₂ (Shows blank) s'.screen.above (t.after e).lines ↔
        List.Forall₂ (Shows blank) s.screen.above t.lines ∧ s.Erases e) := by
  unfold ConsoleSession.step at hstep
  cases e with
  | read prompt =>
      by_cases hreading : s.reading = true
      · simp [hreading] at hstep
      · have hidle : s.reading = false := by simpa using hreading
        simp only [hidle, Bool.false_eq_true, if_false, pure_eq_ok, Except.ok.injEq,
          Prod.mk.injEq] at hstep
        rcases hstep with ⟨rfl, rfl⟩
        have hread := h.read hidle hprintable
        refine ⟨hread.1, ?_⟩
        show List.Forall₂ _ (display s.screen prompt).above t.lines ↔ _ ∧ True
        rw [and_true]
        exact iff_of_eq (congrArg (List.Forall₂ (Shows blank) · t.lines) hread.2)
  | typed c =>
      by_cases hreading : s.reading = true
      · simp only [hreading, if_true, pure_eq_ok, Except.ok.injEq, Prod.mk.injEq] at hstep
        rcases hstep with ⟨rfl, rfl⟩
        -- A key that returns nothing leaves the rows above, and the lines, as they are.
        have hkey (hsame : (display s.screen (s.console.readChar c.toNat).2.1).above
              = s.screen.above) (hlines : (t.after (.typed c)).lines = t.lines) :
            List.Forall₂ (Shows blank) (display s.screen (s.console.readChar c.toNat).2.1).above
                (t.after (.typed c)).lines ↔
              List.Forall₂ (Shows blank) s.screen.above t.lines ∧ True := by
          rw [and_true, hsame, hlines]
        by_cases hdel : c = 0x7F
        · subst hdel
          rcases h.del hreading with ⟨hnone, htracks, habove⟩
          rw [hnone] at htracks ⊢
          exact ⟨htracks, hkey habove rfl⟩
        · by_cases hnewline : c = 0x0A
          · subst hnewline
            rcases h.newline with ⟨htracks, habove⟩
            refine ⟨htracks, ?_⟩
            show List.Forall₂ _ (display s.screen _).above
              (t.lines ++ [t.prompt ++ edit t.keys]) ↔ _ ∧ True
            rw [← h.input, ← h.prompt, and_true]
            exact (iff_of_eq (congrArg (List.Forall₂ (Shows blank) · _) habove)).trans
              (forall₂_concat.trans (and_iff_left h.lastRow.row))
          · have hc : Printable c := by
              rcases hprintable with hc | hc | hc
              · exact absurd hc hdel
              · exact absurd hc hnewline
              · exact hc
            rcases h.char hc hdel hnewline with ⟨hnone, htracks, habove⟩
            have hlines : (t.after (.typed c)).lines = t.lines := by
              rw [t.after_typed hnewline]
            rw [hnone] at htracks ⊢
            exact ⟨htracks, hkey habove hlines⟩
      · simp [hreading] at hstep
  | write str =>
      simp only [pure_eq_ok, Except.ok.injEq, Prod.mk.injEq] at hstep
      rcases hstep with ⟨rfl, rfl⟩
      rcases h.write hprintable with ⟨htracks, row, habove, hrow⟩
      refine ⟨htracks, ?_⟩
      show List.Forall₂ _ (display s.screen _).above (t.lines ++ [str]) ↔ _
      rw [← hrow]
      exact (iff_of_eq (congrArg (List.Forall₂ (Shows blank) · _) habove)).trans forall₂_concat

/-! ## Runs -/

theorem transcript_concat (events : List ConsoleEvent) (e : ConsoleEvent) :
    transcript (events ++ [e]) = (transcript events).after e := List.foldl_concat ..

/-- What holds along a run of which `rest` is still to come. -/
structure Inv (s : ConsoleSession) (log : List (Entry ConsoleSession ConsoleEvent (Option Bytes)))
    (rest : List ConsoleEvent) : Prop where
  tracks : Tracks (transcript (log.map Entry.input)) s log
  above : List.Forall₂ (Shows blank) s.screen.above (transcript (log.map Entry.input)).lines ↔
    ∀ e ∈ log, e.before.Erases e.input
  printable : ∀ e ∈ rest, e.Printable

theorem Inv.start {events : List ConsoleEvent} (h : ∀ e ∈ events, e.Printable) :
    Inv {} [] events where
  tracks :=
    { lastRow := Screen.reads_nil []
      prompt := rfl
      input := rfl
      idle := fun _ => rfl
      printable := List.forall_mem_nil _
      returned := rfl
      displayed := List.forall_mem_nil _ }
  above := iff_of_true .nil (List.forall_mem_nil _)
  printable := h

theorem Inv.step {s' : ConsoleSession} {e : ConsoleEvent} {rest : List ConsoleEvent}
    {out : Option Bytes} (h : Inv s log (e :: rest)) (hstep : s.step e = .ok (s', out)) :
    Inv s' (log ++ [⟨s, e, out⟩]) rest := by
  rcases h.tracks.step (h.printable e List.mem_cons_self) hstep with ⟨htracks, habove⟩
  have hmap : (log ++ [Entry.mk s e out]).map Entry.input = log.map Entry.input ++ [e] := by
    rw [List.map_append]
    rfl
  rw [← transcript_concat, ← hmap] at htracks habove
  refine ⟨htracks, ?_, fun d hd => h.printable d (List.mem_cons_of_mem _ hd)⟩
  rw [habove, h.above]
  simp only [List.mem_append, List.mem_singleton, or_imp, forall_and, forall_eq]

/-- What holds at the end of a run. -/
theorem inv_of_run {events : List ConsoleEvent} {s' : ConsoleSession}
    {log : List (Entry ConsoleSession ConsoleEvent (Option Bytes))}
    (hrun : run step {} events = .ok (s', log)) (hprintable : ∀ e ∈ events, e.Printable) :
    Tracks (transcript events) s' log ∧
      (List.Forall₂ (Shows blank) s'.screen.above (transcript events).lines ↔
        ∀ e ∈ log, e.before.Erases e.input) := by
  have hinv := run_induction_of_ok (p := fun _ _ => True) (I := Inv)
    (fun s log e rest s' out hI _ hstep => hI.step hstep) (Inv.start hprintable)
    ((along_iff hrun).mpr fun _ _ => trivial) hrun
  have htracks := hinv.tracks
  have habove := hinv.above
  rw [List.nil_append, log_map_input hrun] at htracks habove
  exact ⟨htracks, habove⟩

/-- **The prompt line is intact after every run of steps on printable text in which every write
erases the line, and after no other.** -/
theorem intact_iff {events : List ConsoleEvent} {s' : ConsoleSession}
    {log : List (Entry ConsoleSession ConsoleEvent (Option Bytes))}
    (hrun : run step {} events = .ok (s', log)) (hprintable : ∀ e ∈ events, e.Printable) :
    Intact (transcript events) s' log ↔ ∀ e ∈ log, e.before.Erases e.input := by
  rcases inv_of_run hrun hprintable with ⟨htracks, habove⟩
  rw [← habove]
  constructor
  · intro hintact
    exact hintact.above
  · intro hshows
    exact ⟨htracks, hshows⟩

/-- "ok" typed with a slip, while another thread writes "hi". -/
theorem intact_slip :
    let events := [ConsoleEvent.read [0x3E], .typed 0x6F, .typed 0x6F, .write [0x68, 0x69],
      .typed 0x7F, .typed 0x6B, .typed 0x0A]
    ∃ s' log, run step {} events = .ok (s', log) ∧ Intact (transcript events) s' log := by
  intro events
  have hok : (run step {} events).map
      (fun out => out.2.all fun e => decide (e.before.line.length < 2 ^ 31)) = .ok true := by
    decide +kernel
  rcases map_eq_ok.mp hok with ⟨⟨s', log⟩, hrun, hall⟩
  refine ⟨s', log, hrun, (intact_iff hrun (by decide +kernel)).mpr ?_⟩
  intro e he
  have hshort := of_decide_eq_true (List.all_eq_true.mp hall e he)
  exact erases_of_length_lt hshort e.input

/-- A write while the prompt has `2 ^ 31` characters: the width of `setw` is negative, and the
prompt is still there behind the text. -/
theorem exists_run_long_prompt {prompt : Bytes} (hlen : prompt.length = 2 ^ 31)
    (hprompt : ∀ c ∈ prompt, c = 0x61) :
    ∃ s' log, run step {} [.read prompt, .write [0x62]] = .ok (s', log) ∧
      ∃ e ∈ log, ¬e.before.Erases e.input := by
  have hstep1 : step {} (.read prompt)
      = .ok (⟨⟨prompt, []⟩, true, display {} prompt⟩, none) := rfl
  let s1 : ConsoleSession := ⟨⟨prompt, []⟩, true, display {} prompt⟩
  let s2 : ConsoleSession := { s1 with screen := display s1.screen (s1.console.write [0x62]) }
  have hstep2 : step s1 (.write [0x62]) = .ok (s2, none) := rfl
  have hrun : run step {} [.read prompt, .write [0x62]]
      = .ok (s2, [⟨{}, .read prompt, none⟩, ⟨s1, .write [0x62], none⟩]) := by
    simp only [run, hstep1, ok_bind, pure_eq_ok]
    rw [hstep2]
    rfl
  refine ⟨s2, _, hrun, ⟨s1, .write [0x62], none⟩, by simp, ?_⟩
  intro herases
  have hline : s1.line = prompt := List.append_nil _
  -- `setw` is given a negative width.
  have hint : (toInt32 prompt.length).toNat = 0 := by
    rw [hlen]
    decide
  have hdrop : prompt.drop 1 ≠ [] := by
    intro hnil
    have hle := List.drop_eq_nil_iff.mp hnil
    omega
  have hmem := List.head_mem hdrop
  have hblank : (prompt.drop 1).head hdrop = blank := by
    apply herases
    show _ ∈ s1.line.drop (max (toInt32 s1.line.length).toNat 1)
    rw [hline, hint]
    exact hmem
  have hchar := hprompt _ (List.mem_of_mem_drop hmem)
  rw [hblank] at hchar
  exact absurd hchar (by decide)

/-- The row of the text does not show the text. -/
theorem not_intact_long_prompt :
    let events := [ConsoleEvent.read (List.replicate (2 ^ 31) 0x61), .write [0x62]]
    ∃ s' log, run step {} events = .ok (s', log) ∧ (∀ e ∈ events, e.Printable) ∧
      ¬Intact (transcript events) s' log := by
  intro events
  have hprintable : ∀ e ∈ events, e.Printable := by
    intro e he
    rcases List.mem_cons.mp he with rfl | he
    · intro c hc
      rw [List.eq_of_mem_replicate hc]
      decide
    · rw [List.mem_singleton.mp he]
      decide +kernel
  rcases exists_run_long_prompt List.length_replicate
    (fun c hc => List.eq_of_mem_replicate hc) with ⟨s', log, hrun, e, he, hnot⟩
  refine ⟨s', log, hrun, hprintable, ?_⟩
  intro hintact
  exact hnot ((inv_of_run hrun hprintable).2.mp hintact.above e he)

end ConsoleSession

end ChatApp
