import ChatApp.Lib.Bytes

set_option autoImplicit false

/-! # Runs of a step function

A system is a step function that takes an input, may fail, and gives an output. `run` takes
the inputs of a list one after the other and keeps a log: for each step the state before it,
the input and the output. A condition on every step of a run is `Along`, or a property of
the log's entries (`along_iff`).

`run_induction` is the invariant rule. The invariant relates the state to the log so far and
to the inputs still to come, and the rule also says that the run does not fail.
-/

namespace ChatApp.Lib

/-- One step of a run: the state before it, its input and its output. -/
structure Entry (σ α β : Type) where
  before : σ
  input : α
  output : β

variable {ε σ α β : Type}

/-- The final state and the log of a run. -/
def run (step : σ → α → Except ε (σ × β)) :
    σ → List α → Except ε (σ × List (Entry σ α β))
  | s, [] => .ok (s, [])
  | s, a :: as => do
      let (s', b) ← step s a
      let (s'', log) ← run step s' as
      return (s'', ⟨s, a, b⟩ :: log)

/-- Every step the run takes meets `p`, a condition on the state before it and its input. -/
def Along (step : σ → α → Except ε (σ × β)) (p : σ → α → Prop) : σ → List α → Prop
  | _, [] => True
  | s, a :: as => p s a ∧ ∀ s' b, step s a = .ok (s', b) → Along step p s' as

/-- A condition on the steps of a run can be checked by taking them. -/
instance Along.decidable (step : σ → α → Except ε (σ × β)) (p : σ → α → Prop)
    [∀ s a, Decidable (p s a)] : ∀ s as, Decidable (Along step p s as)
  | _, [] => .isTrue trivial
  | s, a :: as =>
      match h : step s a with
      | .error _ => decidable_of_iff (p s a) (by simp [Along, h])
      | .ok (s', _) =>
          have := Along.decidable step p s' as
          decidable_of_iff (p s a ∧ Along step p s' as) (by simp [Along, h])

/-- What holds of the entries so far, and of the next one, holds of the longer log. -/
theorem forall_mem_concat {γ : Type} {P : γ → Prop} {l : List γ} {a : γ} (hl : ∀ d ∈ l, P d)
    (ha : P a) : ∀ d ∈ l ++ [a], P d :=
  List.forall_mem_append.mpr ⟨hl, List.forall_mem_singleton.mpr ha⟩

variable {step : σ → α → Except ε (σ × β)} {p q : σ → α → Prop}

/-- A run over `a :: as`: a step, and the run of the rest from where it led. -/
theorem run_cons_eq_ok {s s'' : σ} {a : α} {as : List α} {log : List (Entry σ α β)} :
    run step s (a :: as) = .ok (s'', log) ↔
      ∃ s' b log', step s a = .ok (s', b) ∧ run step s' as = .ok (s'', log') ∧
        log = ⟨s, a, b⟩ :: log' := by
  rw [run, bind_eq_ok]
  constructor
  · rintro ⟨⟨s', b⟩, hstep, h⟩
    obtain ⟨⟨t, log'⟩, hrun, h⟩ := bind_eq_ok.mp h
    simp only [pure_eq_ok, Except.ok.injEq, Prod.mk.injEq] at h
    exact ⟨s', b, log', hstep, h.1 ▸ hrun, h.2.symm⟩
  · rintro ⟨s', b, log', hstep, hrun, rfl⟩
    exact ⟨_, hstep, bind_eq_ok.mpr ⟨_, hrun, rfl⟩⟩

/-- A run over `as ++ bs`: one over `as`, and the run over `bs` from where it led. -/
theorem run_append_eq_ok {s s'' : σ} {as bs : List α} {log : List (Entry σ α β)} :
    run step s (as ++ bs) = .ok (s'', log) ↔
      ∃ s' log₁ log₂, run step s as = .ok (s', log₁) ∧ run step s' bs = .ok (s'', log₂) ∧
        log = log₁ ++ log₂ := by
  induction as generalizing s log with
  | nil => simp [run]
  | cons a as ih =>
      rw [List.cons_append, run_cons_eq_ok]
      constructor
      · rintro ⟨t, b, log', hstep, hrest, rfl⟩
        obtain ⟨s', log₁, log₂, h₁, h₂, rfl⟩ := ih.mp hrest
        exact ⟨s', ⟨s, a, b⟩ :: log₁, log₂, run_cons_eq_ok.mpr ⟨t, b, log₁, hstep, h₁, rfl⟩, h₂,
          rfl⟩
      · rintro ⟨s', log₁, log₂, h₁, h₂, rfl⟩
        obtain ⟨t, b, log', hstep, hrest, rfl⟩ := run_cons_eq_ok.mp h₁
        exact ⟨t, b, log' ++ log₂, hstep, ih.mpr ⟨s', log', log₂, hrest, h₂, rfl⟩, rfl⟩

/-- On a run that came to its end, a condition along the run is one on the log's entries. -/
theorem along_iff {s s' : σ} {as : List α} {log : List (Entry σ α β)}
    (h : run step s as = .ok (s', log)) :
    Along step p s as ↔ ∀ e ∈ log, p e.before e.input := by
  induction as generalizing s log with
  | nil =>
      obtain ⟨rfl, rfl⟩ : s = s' ∧ [] = log := by simpa [run] using h
      simp [Along]
  | cons a as ih =>
      obtain ⟨t, b, log', hstep, hrun, rfl⟩ := run_cons_eq_ok.mp h
      have hrest : (∀ s' b', step s a = .ok (s', b') → Along step p s' as) ↔
          Along step p t as := by
        constructor
        · intro h
          exact h t b hstep
        · intro h s' b' hs'
          rw [hstep, Except.ok.injEq, Prod.mk.injEq] at hs'
          exact hs'.1 ▸ h
      rw [Along, hrest, ih hrun, List.forall_mem_cons]

/-- Every entry of a log is a step the system took. -/
theorem step_of_mem_log {s s' : σ} {as : List α} {log : List (Entry σ α β)}
    (h : run step s as = .ok (s', log)) {e : Entry σ α β} (he : e ∈ log) :
    ∃ t, step e.before e.input = .ok (t, e.output) := by
  induction as generalizing s log with
  | nil =>
      obtain ⟨-, rfl⟩ : s = s' ∧ [] = log := by simpa [run] using h
      cases he
  | cons a as ih =>
      obtain ⟨t, b, log', hstep, hrun, rfl⟩ := run_cons_eq_ok.mp h
      rcases List.mem_cons.mp he with rfl | he
      · exact ⟨t, hstep⟩
      · exact ih hrun he

/-- The inputs in a log are those of the run. -/
theorem log_map_input {s s' : σ} {as : List α} {log : List (Entry σ α β)}
    (h : run step s as = .ok (s', log)) : log.map Entry.input = as := by
  induction as generalizing s log with
  | nil =>
      obtain ⟨-, rfl⟩ : s = s' ∧ [] = log := by simpa [run] using h
      rfl
  | cons a as ih =>
      obtain ⟨t, b, log', hstep, hrun, rfl⟩ := run_cons_eq_ok.mp h
      rw [List.map_cons, ih hrun]

/-- The steps before an entry are a run to the state the entry starts from. -/
theorem run_of_log_eq {s s' : σ} {as : List α} {e : Entry σ α β} {log₁ log₂ : List (Entry σ α β)}
    (h : run step s as = .ok (s', log₁ ++ e :: log₂)) :
    run step s (log₁.map Entry.input) = .ok (e.before, log₁) := by
  induction log₁ generalizing s as with
  | nil =>
      obtain ⟨a, as, rfl⟩ : ∃ a as', as = a :: as' := by
        cases as with
        | nil => simp [run] at h
        | cons a as => exact ⟨a, as, rfl⟩
      obtain ⟨t, b, log', -, -, hlog⟩ := run_cons_eq_ok.mp h
      rw [(List.cons.inj hlog).1]
      rfl
  | cons d log₁ ih =>
      obtain ⟨a, as, rfl⟩ : ∃ a as', as = a :: as' := by
        cases as with
        | nil => simp [run] at h
        | cons a as => exact ⟨a, as, rfl⟩
      obtain ⟨t, b, log', hstep, hrest, hlog⟩ := run_cons_eq_ok.mp h
      obtain ⟨rfl, rfl⟩ := List.cons.inj hlog
      exact run_cons_eq_ok.mpr ⟨t, b, log₁, hstep, ih hrest, rfl⟩

theorem Along.and {s : σ} {as : List α} (hp : Along step p s as) (hq : Along step q s as) :
    Along step (fun s a => p s a ∧ q s a) s as := by
  induction as generalizing s with
  | nil => trivial
  | cons a as ih =>
      exact ⟨⟨hp.1, hq.1⟩, fun s' b hstep => ih (hp.2 s' b hstep) (hq.2 s' b hstep)⟩

theorem Along.imp {s : σ} {as : List α} (h : ∀ s a, p s a → q s a) (hp : Along step p s as) :
    Along step q s as := by
  induction as generalizing s with
  | nil => trivial
  | cons a as ih => exact ⟨h s a hp.1, fun s' b hstep => ih (hp.2 s' b hstep)⟩

/-- **The invariant rule.** If in every state that meets the invariant a step that meets `p`
succeeds and keeps the invariant, then a run whose steps meet `p` succeeds and keeps it. -/
theorem run_induction {I : σ → List (Entry σ α β) → List α → Prop}
    (hstep : ∀ s log a as, I s log (a :: as) → p s a →
      ∃ s' b, step s a = .ok (s', b) ∧ I s' (log ++ [⟨s, a, b⟩]) as)
    {s : σ} {log : List (Entry σ α β)} {as : List α} (hI : I s log as)
    (hp : Along step p s as) :
    ∃ s' log', run step s as = .ok (s', log') ∧ I s' (log ++ log') [] := by
  induction as generalizing s log with
  | nil => exact ⟨s, [], rfl, by simpa using hI⟩
  | cons a as ih =>
      obtain ⟨s', b, hs', hI'⟩ := hstep s log a as hI hp.1
      obtain ⟨s'', log', hrun, hI''⟩ := ih hI' (hp.2 s' b hs')
      refine ⟨s'', ⟨s, a, b⟩ :: log', run_cons_eq_ok.mpr ⟨s', b, log', hs', hrun, rfl⟩, ?_⟩
      simpa using hI''

/-- The invariant rule for a run that came to its end: the steps need not be shown to
succeed. -/
theorem run_induction_of_ok {I : σ → List (Entry σ α β) → List α → Prop}
    (hstep : ∀ s log a as s' b, I s log (a :: as) → p s a → step s a = .ok (s', b) →
      I s' (log ++ [⟨s, a, b⟩]) as)
    {s s' : σ} {log log' : List (Entry σ α β)} {as : List α} (hI : I s log as)
    (hp : Along step p s as) (hrun : run step s as = .ok (s', log')) :
    I s' (log ++ log') [] := by
  induction as generalizing s log log' with
  | nil =>
      obtain ⟨rfl, rfl⟩ : s = s' ∧ [] = log' := by simpa [run] using hrun
      simpa using hI
  | cons a as ih =>
      obtain ⟨t, b, log'', ht, htail, rfl⟩ := run_cons_eq_ok.mp hrun
      simpa using ih (hstep s log a as t b hI hp.1 ht) (hp.2 t b ht) htail

/-- The invariant rule for a condition along the run: an invariant that implies the condition
of the next step shows it of every step. -/
theorem along_of_invariant {I : σ → List α → Prop} (hp : ∀ s a as, I s (a :: as) → p s a)
    (hstep : ∀ s a as s' b, I s (a :: as) → step s a = .ok (s', b) → I s' as)
    {s : σ} {as : List α} (hI : I s as) : Along step p s as := by
  induction as generalizing s with
  | nil => trivial
  | cons a as ih =>
      exact ⟨hp s a as hI, fun s' b hs' => ih (hstep s a as s' b hI hs')⟩

/-- The invariant rule for an invariant of the state alone. -/
theorem run_invariant {I : σ → Prop}
    (hstep : ∀ s a s' b, I s → p s a → step s a = .ok (s', b) → I s')
    {s s' : σ} {log : List (Entry σ α β)} {as : List α} (hI : I s)
    (hp : ∀ e ∈ log, p e.before e.input) (hrun : run step s as = .ok (s', log)) : I s' := by
  induction as generalizing s log with
  | nil =>
      obtain ⟨rfl, rfl⟩ : s = s' ∧ [] = log := by simpa [run] using hrun
      exact hI
  | cons a as ih =>
      obtain ⟨t, b, log', ht, htail, rfl⟩ := run_cons_eq_ok.mp hrun
      have hpa : p s a := hp _ List.mem_cons_self
      exact ih (hstep s a t b hI hpa ht) (fun e he => hp e (List.mem_cons_of_mem _ he)) htail

end ChatApp.Lib
