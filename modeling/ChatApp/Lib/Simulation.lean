import ChatApp.Lib.Run

set_option autoImplicit false

/-! # Simulations between runs

Two systems are compared step by step. `f` says what a step of the first system asks of the
second: one step on the input `f a`, or none. A relation that every such step keeps relates
the two runs, and matches the log of the second with those steps of the first that it follows
(`run_simulation`). A specification is a system that never fails (`total`).

When both systems are one and `f` only drops inputs, the rule says that the rest of the run
does not notice them (`Unwinds.run_filter`). Two runs that agree once such inputs are dropped
then agree on what is left (`Unwinds.exchanges_eq`).
-/

namespace ChatApp.Lib

variable {ε ε' σ τ α α' β β' : Type}

/-- A step function that cannot fail, as a system. -/
def total (step : σ → α → σ × β) : σ → α → Except Empty (σ × β) := fun s a => .ok (step s a)

theorem total_eq_ok {step : σ → α → σ × β} {s s' : σ} {a : α} {b : β} :
    total step s a = .ok (s', b) ↔ step s a = (s', b) := by
  simp [total]

/-- A system that cannot fail has a run on every list of inputs. -/
theorem exists_run_total (step : σ → α → σ × β) (s : σ) (as : List α) :
    ∃ s' log, run (total step) s as = .ok (s', log) := by
  induction as generalizing s with
  | nil => exact ⟨s, [], rfl⟩
  | cons a as ih =>
      obtain ⟨s', log, hrun⟩ := ih (step s a).1
      exact ⟨s', _, run_cons_eq_ok.mpr ⟨_, (step s a).2, log, rfl, hrun, rfl⟩⟩

/-- The match of an entry, and of the entries before it. -/
theorem forall₂_append_cons_left {γ δ : Type} {R : γ → δ → Prop} {l₁ l₂ : List γ} {c : γ}
    {u : List δ} (h : List.Forall₂ R (l₁ ++ c :: l₂) u) :
    ∃ u₁ d u₂, u = u₁ ++ d :: u₂ ∧ List.Forall₂ R l₁ u₁ ∧ R c d := by
  induction l₁ generalizing u with
  | nil =>
      obtain ⟨d, u₂, hd, -, rfl⟩ := List.forall₂_cons_left_iff.mp h
      exact ⟨[], d, u₂, rfl, List.Forall₂.nil, hd⟩
  | cons a l₁ ih =>
      obtain ⟨b, u', hab, hrest, rfl⟩ := List.forall₂_cons_left_iff.mp h
      obtain ⟨u₁, d, u₂, rfl, h₁, hd⟩ := ih hrest
      exact ⟨b :: u₁, d, u₂, rfl, h₁.cons hab, hd⟩

section Simulation

variable {step : σ → α → Except ε (σ × β)} {p : σ → α → Prop}

/-- The entries that a step of the second system answers. -/
def followed (f : α → Option α') (log : List (Entry σ α β)) : List (Entry σ α β) :=
  log.filter fun e => (f e.input).isSome

/-- The simulation rule in general: what a step asks of the second system may depend on the
state it is taken in and on its output, so `g` is a function of the entry. -/
theorem run_simulation_entries (step' : τ → α' → Except ε' (τ × β'))
    (g : Entry σ α β → Option α') (Sim : σ → τ → List α → Prop)
    (Match : Entry σ α β → Entry τ α' β' → Prop)
    (stay : ∀ s t a as s' b, Sim s t (a :: as) → p s a → step s a = .ok (s', b) →
      g ⟨s, a, b⟩ = none → Sim s' t as)
    (move : ∀ s t a as s' b a', Sim s t (a :: as) → p s a → step s a = .ok (s', b) →
      g ⟨s, a, b⟩ = some a' →
      ∃ t' b', step' t a' = .ok (t', b') ∧ Sim s' t' as ∧ Match ⟨s, a, b⟩ ⟨t, a', b'⟩)
    {s s' : σ} {t : τ} {as : List α} {log : List (Entry σ α β)} (hsim : Sim s t as)
    (hp : Along step p s as) (hrun : run step s as = .ok (s', log)) :
    ∃ t' log', run step' t (log.filterMap g) = .ok (t', log') ∧ Sim s' t' [] ∧
      List.Forall₂ Match (log.filter fun e => (g e).isSome) log' := by
  induction as generalizing s t log with
  | nil =>
      obtain ⟨rfl, rfl⟩ : s = s' ∧ [] = log := by simpa [run] using hrun
      exact ⟨t, [], rfl, hsim, List.Forall₂.nil⟩
  | cons a as ih =>
      obtain ⟨s₁, b, log₁, hstep, htail, rfl⟩ := run_cons_eq_ok.mp hrun
      have hrest : Along step p s₁ as := hp.2 s₁ b hstep
      rcases hg : g ⟨s, a, b⟩ with _ | a'
      · have hsim₁ : Sim s₁ t as := stay s t a as s₁ b hsim hp.1 hstep hg
        rw [List.filterMap_cons_none hg, List.filter_cons_of_neg (by simp [hg])]
        exact ih hsim₁ hrest htail
      · obtain ⟨t₁, b', hstep', hsim₁, hmatch⟩ := move s t a as s₁ b a' hsim hp.1 hstep hg
        obtain ⟨t', log', hrun', hsim', hmatches⟩ := ih hsim₁ hrest htail
        rw [List.filterMap_cons_some hg, List.filter_cons_of_pos (by simp [hg])]
        exact ⟨t', _, run_cons_eq_ok.mpr ⟨t₁, b', log', hstep', hrun', rfl⟩, hsim',
          hmatches.cons hmatch⟩

/-- **The simulation rule.** `Sim` relates the states and knows the inputs still to come. If
the second system can follow every step of the first, it has a run on the inputs it is asked
for, and the two logs match. -/
theorem run_simulation (step' : τ → α' → Except ε' (τ × β')) (f : α → Option α')
    (Sim : σ → τ → List α → Prop) (Match : Entry σ α β → Entry τ α' β' → Prop)
    (stay : ∀ s t a as s' b, Sim s t (a :: as) → p s a → step s a = .ok (s', b) →
      f a = none → Sim s' t as)
    (move : ∀ s t a as s' b a', Sim s t (a :: as) → p s a → step s a = .ok (s', b) →
      f a = some a' →
      ∃ t' b', step' t a' = .ok (t', b') ∧ Sim s' t' as ∧ Match ⟨s, a, b⟩ ⟨t, a', b'⟩)
    {s s' : σ} {t : τ} {as : List α} {log : List (Entry σ α β)} (hsim : Sim s t as)
    (hp : Along step p s as) (hrun : run step s as = .ok (s', log)) :
    ∃ t' log', run step' t (as.filterMap f) = .ok (t', log') ∧ Sim s' t' [] ∧
      List.Forall₂ Match (followed f log) log' := by
  have hinputs : log.filterMap (fun e => f e.input) = as.filterMap f := by
    rw [← log_map_input hrun, List.filterMap_map]
    rfl
  rw [← hinputs]
  exact run_simulation_entries step' (fun e => f e.input) Sim Match stay move hsim hp hrun

/-- What is read off the entries of a log, where matched logs agree on it and the other entries
have nothing of it. -/
theorem filterMap_eq_of_forall₂ {γ γ' δ : Type} {g : γ → Option α'} {f : γ → Option δ}
    {f' : γ' → Option δ} {l : List γ} {l' : List γ'}
    (h : List.Forall₂ (fun e e' => f e = f' e') (l.filter fun e => (g e).isSome) l')
    (hnone : ∀ e ∈ l, g e = none → f e = none) : l.filterMap f = l'.filterMap f' := by
  have hfilter : l.filterMap f = (l.filter fun e => (g e).isSome).filterMap f := by
    rw [List.filterMap_filter]
    refine List.filterMap_congr fun e he => ?_
    rcases hg : g e with _ | a'
    · simpa [hg] using hnone e he hg
    · simp
  rw [hfilter]
  generalize l.filter (fun e => (g e).isSome) = matched at h
  induction h with
  | nil => rfl
  | cons hsame _ ih => rw [List.filterMap_cons, List.filterMap_cons, hsame, ih]

end Simulation

section Unwinding

variable {step : σ → α → Except ε (σ × β)} {p : σ → α → Prop} {keep : α → Bool}
  {Sim : σ → σ → Prop}

/-- What was asked and what was answered, without the states. -/
def Entry.exchange (e : Entry σ α β) : α × β := (e.input, e.output)

/-- The steps on inputs outside `keep` go unnoticed: `Sim`, what the other steps can see of
the state, survives them, and related states answer the other inputs alike. -/
structure Unwinds (step : σ → α → Except ε (σ × β)) (p : σ → α → Prop) (keep : α → Bool)
    (Sim : σ → σ → Prop) : Prop where
  dropped : ∀ s t a s' b, Sim s t → p s a → step s a = .ok (s', b) → keep a = false → Sim s' t
  kept : ∀ s t a s' b, Sim s t → p s a → step s a = .ok (s', b) → keep a = true →
    ∃ t', step t a = .ok (t', b) ∧ Sim s' t'

/-- **The rest does not notice.** The run on the inputs of `keep` alone exists, and it gives
the answers that the whole run gives on them. -/
theorem Unwinds.run_filter (h : Unwinds step p keep Sim) {s s' t : σ} {as : List α}
    {log : List (Entry σ α β)} (hsim : Sim s t) (hp : Along step p s as)
    (hrun : run step s as = .ok (s', log)) :
    ∃ t' log', run step t (as.filter keep) = .ok (t', log') ∧ Sim s' t' ∧
      log'.map Entry.exchange = (log.filter (keep ·.input)).map Entry.exchange := by
  have hnone : ∀ a, Option.guard keep a = none → keep a = false := by simp
  have hsome : ∀ a a', Option.guard keep a = some a' → a = a' ∧ keep a = true := by
    simp +contextual [Option.guard_eq_some_iff]
  obtain ⟨t', log', hrun', hsim', hlog⟩ :=
    run_simulation step (Option.guard keep) (fun s t _ => Sim s t)
      (fun e e' => e.exchange = e'.exchange)
      (fun s t a _ s' b hsim hpa hstep hf => h.dropped s t a s' b hsim hpa hstep (hnone a hf))
      (fun s t a _ s' b a' hsim hpa hstep hf => by
        obtain ⟨rfl, hk⟩ := hsome a a' hf
        obtain ⟨t', hstep', hsim'⟩ := h.kept s t a s' b hsim hpa hstep hk
        exact ⟨t', b, hstep', hsim', rfl⟩)
      hsim hp hrun
  have hfollowed : followed (Option.guard keep) log = log.filter (keep ·.input) := by
    simp [followed, Option.isSome_guard]
  have hmap : (log.filter (keep ·.input)).map Entry.exchange = log'.map Entry.exchange := by
    rw [← List.forall₂_eq_eq_eq, List.forall₂_map_left_iff, List.forall₂_map_right_iff,
      ← hfollowed]
    exact hlog
  rw [List.filterMap_eq_filter] at hrun'
  exact ⟨t', log', hrun', hsim', hmap.symm⟩

/-- Two runs from one state that ask the same, in the same order, of `keep` are answered the
same, and one state stands for both of the states they lead to. -/
theorem Unwinds.exchanges_eq (h : Unwinds step p keep Sim) {s s₁ s₂ : σ} {as₁ as₂ : List α}
    {log₁ log₂ : List (Entry σ α β)} (hsim : Sim s s) (hp₁ : Along step p s as₁)
    (hp₂ : Along step p s as₂) (hrun₁ : run step s as₁ = .ok (s₁, log₁))
    (hrun₂ : run step s as₂ = .ok (s₂, log₂)) (hsame : as₁.filter keep = as₂.filter keep) :
    (∃ t, Sim s₁ t ∧ Sim s₂ t) ∧
      (log₁.filter (keep ·.input)).map Entry.exchange
        = (log₂.filter (keep ·.input)).map Entry.exchange := by
  obtain ⟨t₁, log₁', hrun₁', hsim₁, hlog₁⟩ := h.run_filter hsim hp₁ hrun₁
  obtain ⟨t₂, log₂', hrun₂', hsim₂, hlog₂⟩ := h.run_filter hsim hp₂ hrun₂
  obtain ⟨rfl, rfl⟩ : t₁ = t₂ ∧ log₁' = log₂' := by
    rw [hsame, hrun₂', Except.ok.injEq, Prod.mk.injEq] at hrun₁'
    exact ⟨hrun₁'.1.symm, hrun₁'.2.symm⟩
  exact ⟨⟨t₁, hsim₁, hsim₂⟩, hlog₁.symm.trans hlog₂⟩

end Unwinding

end ChatApp.Lib
