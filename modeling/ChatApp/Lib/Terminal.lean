import Mathlib.Tactic

set_option autoImplicit false

/-! # A terminal

Rows of cells and a cursor in the last row. What is written to it is a sequence of
`Control`s: a cell, a new line, a carriage return or a backspace. Rows do not wrap, and the
cursor never leaves the last row, so the rows above are history.

`Screen.Reads s line` says that the last row shows `line` and the cursor is right behind it.
There is one rule for each thing a line editor does: to type (`Reads.type`), to rub out the
last character (`Reads.rubOut`), to finish the line (`reads_newline`), and to put another text
in the place of the line (`Reads.replacing_iff`).
-/

namespace ChatApp.Lib

/-- What a terminal is told. -/
inductive Control (α : Type)
  | put (c : α)
  | newline
  | carriageReturn
  | backspace
  deriving Repr, DecidableEq

/-- The rows above the last one, the last one, and the column of the cursor in it. -/
structure Screen (α : Type) where
  above : List (List α) := []
  row : List α := []
  col : Nat := 0
  deriving Repr, DecidableEq

variable {α : Type} {blank : α}

/-- The row with `c` in column `col`. -/
def overwrite (blank : α) (row : List α) (col : Nat) (c : α) : List α :=
  row.take col ++ List.replicate (col - row.length) blank ++ c :: row.drop (col + 1)

/-- The row shows `line`: there is nothing behind it but blanks. -/
def Shows (blank : α) (row line : List α) : Prop := ∃ k, row = line ++ List.replicate k blank

theorem Shows.refl (line : List α) : Shows blank line line := ⟨0, by simp⟩

namespace Screen

def step (blank : α) (s : Screen α) : Control α → Screen α
  | .put c => { s with row := overwrite blank s.row s.col c, col := s.col + 1 }
  | .newline => { above := s.above ++ [s.row] }
  | .carriageReturn => { s with col := 0 }
  | .backspace => { s with col := s.col - 1 }

/-- The screen after a sequence of controls. -/
def feed (blank : α) (s : Screen α) (cs : List (Control α)) : Screen α :=
  cs.foldl (step blank) s

@[simp] theorem feed_nil (s : Screen α) : s.feed blank [] = s := rfl

@[simp] theorem feed_cons (s : Screen α) (c : Control α) (cs : List (Control α)) :
    s.feed blank (c :: cs) = (s.step blank c).feed blank cs := rfl

theorem feed_append (s : Screen α) (cs ds : List (Control α)) :
    s.feed blank (cs ++ ds) = (s.feed blank cs).feed blank ds := List.foldl_append

/-- Cells written in a row go over those that were there. -/
theorem feed_put (s : Screen α) (cells : List α) (hcol : s.col ≤ s.row.length) :
    s.feed blank (cells.map .put)
      = { s with
          row := s.row.take s.col ++ cells ++ s.row.drop (s.col + cells.length)
          col := s.col + cells.length } := by
  induction cells generalizing s with
  | nil => simp
  | cons c cells ih =>
      have hrow : overwrite blank s.row s.col c
          = s.row.take s.col ++ (c :: s.row.drop (s.col + 1)) := by
        unfold overwrite
        rw [Nat.sub_eq_zero_of_le hcol]
        simp
      have hlen : (s.row.take s.col).length = s.col := List.length_take_of_le hcol
      have htake : (overwrite blank s.row s.col c).take (s.col + 1) = s.row.take s.col ++ [c] := by
        rw [hrow, List.take_append, hlen]
        simp [List.take_take]
      have hdrop : (overwrite blank s.row s.col c).drop (s.col + 1 + cells.length)
          = s.row.drop (s.col + (cells.length + 1)) := by
        rw [hrow, List.drop_append, hlen, List.drop_eq_nil_of_le (by rw [hlen]; omega),
          List.nil_append, show s.col + 1 + cells.length - s.col = cells.length + 1 by omega,
          List.drop_succ_cons, List.drop_drop]
        congr 1
        omega
      -- The cursor has not left the row, which is what the hypothesis asks of the next step.
      have hwidth : s.col + 1 ≤ (overwrite blank s.row s.col c).length := by
        rw [hrow, List.length_append, hlen, List.length_cons]
        omega
      rw [List.map_cons, feed_cons]
      show ({ s with row := overwrite blank s.row s.col c, col := s.col + 1 } : Screen α).feed
        blank (cells.map .put) = _
      rw [ih _ hwidth]
      simp only [htake, hdrop, List.length_cons, mk.injEq, true_and]
      refine ⟨?_, by omega⟩
      simp

/-- The last row shows `line`, and the cursor is right behind it. -/
structure Reads (blank : α) (s : Screen α) (line : List α) : Prop where
  row : Shows blank s.row line
  col : s.col = line.length

variable {s : Screen α} {line : List α}

theorem Reads.col_le (h : s.Reads blank line) : s.col ≤ s.row.length := by
  rcases h.row with ⟨k, hk⟩
  rw [hk, h.col, List.length_append]
  omega

/-- The cells in front of the cursor are the line, and those behind it are blank. -/
theorem Reads.take_col (h : s.Reads blank line) : s.row.take s.col = line := by
  rcases h.row with ⟨k, hk⟩
  rw [hk, h.col, List.take_left]

theorem Reads.drop_col (h : s.Reads blank line) (n : Nat) :
    ∃ k, s.row.drop (s.col + n) = List.replicate k blank := by
  rcases h.row with ⟨k, hk⟩
  refine ⟨k - n, ?_⟩
  rw [hk, h.col, ← List.drop_drop, List.drop_left, List.drop_replicate]

/-- An empty row, as after a new line. -/
theorem reads_nil (above : List (List α)) : (⟨above, [], 0⟩ : Screen α).Reads blank [] :=
  ⟨Shows.refl [], rfl⟩

/-! ## What a line editor does -/

/-- **To type**: the cells come behind the line. -/
theorem Reads.type (h : s.Reads blank line) (cells : List α) :
    (s.feed blank (cells.map .put)).Reads blank (line ++ cells) ∧
      (s.feed blank (cells.map .put)).above = s.above := by
  rcases h.drop_col cells.length with ⟨k, hk⟩
  rw [feed_put s cells h.col_le]
  refine ⟨⟨⟨k, ?_⟩, ?_⟩, rfl⟩
  · show s.row.take s.col ++ cells ++ s.row.drop (s.col + cells.length) = _
    rw [h.take_col, hk]
  · show s.col + cells.length = (line ++ cells).length
    rw [h.col, List.length_append]

/-- **To rub out the last character**: one column back, a blank over it, and back again. -/
theorem Reads.rubOut {c : α} (h : s.Reads blank (line ++ [c])) :
    (s.feed blank [.backspace, .put blank, .backspace]).Reads blank line ∧
      (s.feed blank [.backspace, .put blank, .backspace]).above = s.above := by
  rcases h.row with ⟨k, hk⟩
  have hcol : s.col - 1 = line.length := by
    rw [h.col, List.length_append]
    rfl
  have hcells : s.row = line ++ c :: List.replicate k blank := by
    rw [hk, List.append_assoc, List.singleton_append]
  -- The blank over the last character joins those behind the line.
  have hrow : overwrite blank s.row (s.col - 1) blank
      = line ++ List.replicate (k + 1) blank := by
    have hgap : line.length - (line ++ c :: List.replicate k blank).length = 0 := by
      rw [List.length_append]
      omega
    unfold overwrite
    rw [hcol, hcells, hgap, List.take_left, ← List.drop_drop, List.drop_left]
    simp [List.replicate_succ]
  refine ⟨⟨⟨k + 1, hrow⟩, ?_⟩, rfl⟩
  show s.col - 1 + 1 - 1 = line.length
  omega

/-- **To finish the line**: it is the last of the rows above, and the next row is empty. -/
theorem reads_newline (s : Screen α) : (s.step blank .newline).Reads blank [] := reads_nil _

@[simp] theorem above_newline (s : Screen α) :
    (s.step blank .newline).above = s.above ++ [s.row] := rfl

/-- Back to the first column, `width` blanks, back again, and the text. -/
def replacing (blank : α) (width : Nat) (cells : List α) : List (Control α) :=
  .carriageReturn :: (List.replicate width blank).map .put ++ .carriageReturn :: cells.map .put

theorem feed_replacing (s : Screen α) (width : Nat) (cells : List α) :
    s.feed blank (replacing blank width cells)
      = { s with
          row := cells ++ (List.replicate width blank ++ s.row.drop width).drop cells.length
          col := cells.length } := by
  -- First the blanks go over the row, then the text goes over the blanks.
  have hblanks : ({ s with col := 0 } : Screen α).feed blank
        ((List.replicate width blank).map .put)
      = { s with row := List.replicate width blank ++ s.row.drop width, col := width } := by
    rw [feed_put _ _ (Nat.zero_le _)]
    simp
  have hcells : ({ s with row := List.replicate width blank ++ s.row.drop width, col := 0 } :
        Screen α).feed blank (cells.map .put)
      = { s with
          row := cells ++ (List.replicate width blank ++ s.row.drop width).drop cells.length
          col := cells.length } := by
    rw [feed_put _ _ (Nat.zero_le _)]
    simp
  unfold replacing
  rw [List.cons_append, feed_cons, feed_append]
  show Screen.feed blank (Screen.step blank
    (({ s with col := 0 } : Screen α).feed blank _) .carriageReturn) _ = _
  rw [hblanks]
  exact hcells

/-- **To put a text in the place of the line**: the line is gone if and only if the blanks and
the text reach over all of it that is not blank itself. -/
theorem Reads.replacing_iff (h : s.Reads blank line) (width : Nat) (cells : List α) :
    Shows blank (s.feed blank (replacing blank width cells)).row cells ↔
      ∀ c ∈ line.drop (max width cells.length), c = blank := by
  rcases h.row with ⟨k, hk⟩
  -- Behind the text: what is left of the blanks, then of the line, then of what was behind it.
  have hrest : (List.replicate width blank ++ s.row.drop width).drop cells.length
      = List.replicate (width - cells.length) blank ++
          (line.drop (max width cells.length) ++
            List.replicate (k - (max width cells.length - line.length)) blank) := by
    have hmax : width + (cells.length - width) = max width cells.length := by omega
    rw [List.drop_append, List.drop_replicate, List.length_replicate, List.drop_drop, hmax, hk,
      List.drop_append, List.drop_replicate]
  rw [feed_replacing, hrest]
  constructor
  · rintro ⟨n, hn⟩ c hc
    have hblank := List.append_cancel_left hn
    apply List.eq_of_mem_replicate (n := n)
    rw [← hblank]
    exact List.mem_append_right _ (List.mem_append_left _ hc)
  · intro hover
    refine ⟨_, congrArg (cells ++ ·) (List.eq_replicate_of_mem ?_)⟩
    intro c hc
    rcases List.mem_append.mp hc with hc | hc
    · exact List.eq_of_mem_replicate hc
    · rcases List.mem_append.mp hc with hc | hc
      · exact hover c hc
      · exact List.eq_of_mem_replicate hc

theorem above_feed_replacing (s : Screen α) (width : Nat) (cells : List α) :
    (s.feed blank (replacing blank width cells)).above = s.above := by
  rw [feed_replacing]

end Screen

/-! ## Bytes -/

/-- What a terminal makes of a byte. -/
def Control.ofByte : UInt8 → Control UInt8
  | 0x0A => .newline
  | 0x0D => .carriageReturn
  | 0x08 => .backspace
  | c => .put c

/-- A character that takes one cell. -/
def Printable (c : UInt8) : Prop := 0x20 ≤ c ∧ c < 0x7F

instance : DecidablePred Printable := fun c => inferInstanceAs (Decidable (0x20 ≤ c ∧ c < 0x7F))

theorem Printable.ofByte {c : UInt8} (h : Printable c) : Control.ofByte c = .put c := by
  rcases h with ⟨hge, hlt⟩
  rw [UInt8.le_iff_toNat_le] at hge
  unfold Control.ofByte
  split
  · exact absurd hge (by decide)
  · exact absurd hge (by decide)
  · exact absurd hge (by decide)
  · rfl

theorem map_ofByte_of_printable {cs : List UInt8} (h : ∀ c ∈ cs, Printable c) :
    cs.map Control.ofByte = cs.map .put :=
  List.map_congr_left fun c hc => (h c hc).ofByte

end ChatApp.Lib
