import ChatApp.Lib.Run
import Mathlib.Data.Fintype.Card

set_option autoImplicit false

/-! # Threads with mutexes

Threads work off operations, one at a time and in any interleaving: they lock and unlock
mutexes and perform tasks. A task works on what the threads share, and puts operations before
those that the thread has left; some tasks wait for something from outside.

The discipline (`Scoped`, `Disciplined`) is the usual one. Mutexes are unlocked in the opposite
order, a mutex ranks above those that are locked with it, and nothing from outside is waited
for with a mutex locked. Then a mutex that is locked is that of one thread, which can tell from
the operations it has left (`Locked`), and from wherever the threads are they can go on by
themselves until all mutexes are free (`Locked.exists_free`).
-/

namespace ChatApp.Lib

/-- An operation of a thread. -/
inductive Op (μ α : Type)
  | lock (m : μ)
  | unlock (m : μ)
  | task (a : α)
  deriving Repr, DecidableEq

/-- What the threads share, who has locked a mutex, and what each thread has left to do. -/
structure Threads (ι μ α σ : Type) where
  shared : σ
  owner : μ → Option ι
  ops : ι → List (Op μ α)

variable {ι μ α σ ε β : Type}

/-! ## Steps -/

namespace Threads

def setShared (s : Threads ι μ α σ) (shared : σ) : Threads ι μ α σ := { s with shared := shared }

@[simp] theorem setShared_shared (s : Threads ι μ α σ) (shared : σ) :
    (s.setShared shared).shared = shared := rfl

@[simp] theorem setShared_owner (s : Threads ι μ α σ) (shared : σ) :
    (s.setShared shared).owner = s.owner := rfl

@[simp] theorem setShared_ops (s : Threads ι μ α σ) (shared : σ) :
    (s.setShared shared).ops = s.ops := rfl

section

variable [DecidableEq μ]

def setOwner (s : Threads ι μ α σ) (m : μ) (o : Option ι) : Threads ι μ α σ :=
  { s with owner := Function.update s.owner m o }

@[simp] theorem setOwner_shared (s : Threads ι μ α σ) (m : μ) (o : Option ι) :
    (s.setOwner m o).shared = s.shared := rfl

@[simp] theorem setOwner_ops (s : Threads ι μ α σ) (m : μ) (o : Option ι) :
    (s.setOwner m o).ops = s.ops := rfl

@[simp] theorem setOwner_self (s : Threads ι μ α σ) (m : μ) (o : Option ι) :
    (s.setOwner m o).owner m = o := Function.update_self ..

@[simp] theorem setOwner_of_ne (s : Threads ι μ α σ) {m m' : μ} (h : m' ≠ m) (o : Option ι) :
    (s.setOwner m o).owner m' = s.owner m' := Function.update_of_ne h ..

end

section

variable [DecidableEq ι]

def goOn (s : Threads ι μ α σ) (t : ι) (ops : List (Op μ α)) : Threads ι μ α σ :=
  { s with ops := Function.update s.ops t ops }

@[simp] theorem goOn_shared (s : Threads ι μ α σ) (t : ι) (ops : List (Op μ α)) :
    (s.goOn t ops).shared = s.shared := rfl

@[simp] theorem goOn_owner (s : Threads ι μ α σ) (t : ι) (ops : List (Op μ α)) :
    (s.goOn t ops).owner = s.owner := rfl

@[simp] theorem goOn_ops_self (s : Threads ι μ α σ) (t : ι) (ops : List (Op μ α)) :
    (s.goOn t ops).ops t = ops := Function.update_self ..

@[simp] theorem goOn_ops_of_ne (s : Threads ι μ α σ) {t u : ι} (h : u ≠ t) (ops : List (Op μ α)) :
    (s.goOn t ops).ops u = s.ops u := Function.update_of_ne h ..

end

variable [DecidableEq ι] [DecidableEq μ]

/-- The next operation of a thread. A mutex is locked when it is free, and unlocked by the
thread that has locked it; a task that needs something from outside is not performed without. -/
def step (perform : α → Option ε → σ → Option (σ × List (Op μ α) × β)) (s : Threads ι μ α σ) :
    ι × Option ε → Except Unit (Threads ι μ α σ × Option (α × β))
  | (t, input) =>
      match s.ops t with
      | [] => .error ()
      | .lock m :: ops =>
          if input.isNone ∧ s.owner m = none then .ok ((s.setOwner m (some t)).goOn t ops, none)
          else .error ()
      | .unlock m :: ops =>
          if input.isNone ∧ s.owner m = some t then .ok ((s.setOwner m none).goOn t ops, none)
          else .error ()
      | .task a :: ops =>
          match perform a input s.shared with
          | none => .error ()
          | some (shared, body, b) =>
              .ok ((s.setShared shared).goOn t (body ++ ops), some (a, b))

variable {perform : α → Option ε → σ → Option (σ × List (Op μ α) × β)}
  {s s' : Threads ι μ α σ} {t : ι} {input : Option ε} {out : Option (α × β)}

/-- What a step does. -/
theorem step_eq_ok (h : step perform s (t, input) = .ok (s', out)) :
    (∃ m ops, s.ops t = .lock m :: ops ∧ s.owner m = none ∧
      s' = (s.setOwner m (some t)).goOn t ops ∧ out = none) ∨
    (∃ m ops, s.ops t = .unlock m :: ops ∧ s.owner m = some t ∧
      s' = (s.setOwner m none).goOn t ops ∧ out = none) ∨
    ∃ a ops shared body b, s.ops t = .task a :: ops ∧
      perform a input s.shared = some (shared, body, b) ∧
      s' = (s.setShared shared).goOn t (body ++ ops) ∧ out = some (a, b) := by
  unfold step at h
  dsimp only at h
  split at h
  · cases h
  · next m ops hops =>
      split_ifs at h with hfree
      obtain ⟨rfl, rfl⟩ := Prod.mk.inj (Except.ok.inj h)
      exact .inl ⟨m, ops, hops, hfree.2, rfl, rfl⟩
  · next m ops hops =>
      split_ifs at h with hown
      obtain ⟨rfl, rfl⟩ := Prod.mk.inj (Except.ok.inj h)
      exact .inr (.inl ⟨m, ops, hops, hown.2, rfl, rfl⟩)
  · next a ops hops =>
      split at h
      · cases h
      · next shared body b hperform =>
          obtain ⟨rfl, rfl⟩ := Prod.mk.inj (Except.ok.inj h)
          exact .inr (.inr ⟨a, ops, shared, body, b, hops, hperform, rfl, rfl⟩)

theorem step_lock {m : μ} {ops : List (Op μ α)}
    (perform : α → Option ε → σ → Option (σ × List (Op μ α) × β))
    (hops : s.ops t = .lock m :: ops) (hfree : s.owner m = none) :
    step perform s (t, none) = .ok ((s.setOwner m (some t)).goOn t ops, none) := by
  simp [step, hops, hfree]

theorem step_unlock {m : μ} {ops : List (Op μ α)}
    (perform : α → Option ε → σ → Option (σ × List (Op μ α) × β))
    (hops : s.ops t = .unlock m :: ops) (hown : s.owner m = some t) :
    step perform s (t, none) = .ok ((s.setOwner m none).goOn t ops, none) := by
  simp [step, hops, hown]

theorem step_task {a : α} {ops body : List (Op μ α)} {shared : σ} {b : β}
    (hops : s.ops t = .task a :: ops)
    (hperform : perform a input s.shared = some (shared, body, b)) :
    step perform s (t, input)
      = .ok ((s.setShared shared).goOn t (body ++ ops), some (a, b)) := by
  simp [step, hops, hperform]

end Threads

/-! ## The discipline -/

section Discipline

/-- The operations of a thread that has locked `held`, the last one first. `ok held a after`
allows the task `a`, which leaves `after` locked when it and what it puts in its place are
done. -/
def Scoped (rank : μ → Nat) (ok : List μ → α → List μ → Prop) : List μ → List (Op μ α) → Prop
  | held, [] => held = []
  | held, .lock m :: ops => (∀ m' ∈ held, rank m' < rank m) ∧ Scoped rank ok (m :: held) ops
  | held, .unlock m :: ops => ∃ rest, held = m :: rest ∧ Scoped rank ok rest ops
  | held, .task a :: ops => ∃ after, ok held a after ∧ Scoped rank ok after ops

/-- A thread that has locked `held` comes to have nothing locked, whatever it finds in what the
threads share. -/
inductive Ends (perform : α → Option ε → σ → Option (σ × List (Op μ α) × β)) :
    List μ → List (Op μ α) → Prop
  | free (ops) : Ends perform [] ops
  | lock {m held ops} : Ends perform (m :: held) ops → Ends perform held (.lock m :: ops)
  | unlock {m held ops} : Ends perform held ops → Ends perform (m :: held) (.unlock m :: ops)
  | task {a held ops} :
      (∀ s s' body b, perform a none s = some (s', body, b) → Ends perform held (body ++ ops)) →
      Ends perform held (.task a :: ops)

/-- The tasks keep to the rules: what a task puts in its place may be done there, nothing from
outside is waited for with a mutex locked, and what is done with one locked ends. -/
structure Disciplined (perform : α → Option ε → σ → Option (σ × List (Op μ α) × β))
    (rank : μ → Nat) (ok : ι → List μ → α → List μ → Prop) : Prop where
  rules : ∀ {t held a after input s s' body b ops}, ok t held a after →
    perform a input s = some (s', body, b) → Scoped rank (ok t) after ops →
    Scoped rank (ok t) held (body ++ ops)
  goes : ∀ {t held a after}, ok t held a after → held ≠ [] →
    ∀ s, ∃ s' body b, perform a none s = some (s', body, b)
  ends : ∀ {t held a after ops}, ok t held a after → held ≠ [] → Ends perform after ops →
    Ends perform held (.task a :: ops)

variable {perform : α → Option ε → σ → Option (σ × List (Op μ α) × β)} {rank : μ → Nat}
  {ok : ι → List μ → α → List μ → Prop}

theorem Scoped.ends (hd : Disciplined perform rank ok) {t : ι} {held : List μ}
    {ops : List (Op μ α)} (h : Scoped rank (ok t) held ops) : Ends perform held ops := by
  induction ops generalizing held with
  | nil =>
      obtain rfl : held = [] := h
      exact .free []
  | cons op ops ih =>
      cases op with
      | lock m => exact .lock (ih h.2)
      | unlock m =>
          obtain ⟨rest, rfl, hrest⟩ := h
          exact .unlock (ih hrest)
      | task a =>
          obtain ⟨after, hok, hafter⟩ := h
          cases held with
          | nil => exact .free _
          | cons m held => exact hd.ends hok (List.cons_ne_nil m held) (ih hafter)

/-! ## Who has locked what -/

/-- Every thread keeps to the rules for the mutexes that it has locked, and these are the ones
that are locked. -/
structure Locked (rank : μ → Nat) (ok : ι → List μ → α → List μ → Prop)
    (s : Threads ι μ α σ) (held : ι → List μ) : Prop where
  rules : ∀ t, Scoped rank (ok t) (held t) (s.ops t)
  ranked : ∀ t, (held t).Pairwise fun m m' => rank m' < rank m
  owner : ∀ m t, s.owner m = some t ↔ m ∈ held t

namespace Locked

variable [DecidableEq ι] [DecidableEq μ] {s s' : Threads ι μ α σ} {held : ι → List μ} {t : ι}
  {m : μ} {ops : List (Op μ α)}

theorem lock (h : Locked rank ok s held) (hops : s.ops t = .lock m :: ops)
    (hfree : s.owner m = none) :
    Locked rank ok ((s.setOwner m (some t)).goOn t ops)
      (Function.update held t (m :: held t)) := by
  have hscoped := h.rules t
  rw [hops] at hscoped
  refine ⟨fun u => ?_, fun u => ?_, fun m' u => ?_⟩
  · by_cases hu : u = t
    · subst hu
      simpa using hscoped.2
    · simpa [hu] using h.rules u
  · by_cases hu : u = t
    · subst hu
      simpa using ⟨hscoped.1, h.ranked u⟩
    · simpa [hu] using h.ranked u
  · have hown := h.owner m' u
    by_cases hm : m' = m
    · subst hm
      have hnone : m' ∉ held u := by
        rw [← hown, hfree]
        exact Option.some_ne_none u ∘ Eq.symm
      by_cases hu : u = t
      · subst hu
        simp
      · simp [hu, Ne.symm hu, hnone]
    · by_cases hu : u = t
      · subst hu
        simp [hm, hown]
      · simp [hm, hu, hown]

theorem unlock (h : Locked rank ok s held) (hops : s.ops t = .unlock m :: ops) :
    s.owner m = some t ∧
      Locked rank ok ((s.setOwner m none).goOn t ops) (Function.update held t (held t).tail) := by
  have hscoped := h.rules t
  rw [hops] at hscoped
  obtain ⟨rest, hheld, hrest⟩ := hscoped
  have hranked := h.ranked t
  rw [hheld, List.pairwise_cons] at hranked
  have hnot : m ∉ rest := fun hmem => Nat.lt_irrefl _ (hranked.1 m hmem)
  have hown : s.owner m = some t := (h.owner m t).mpr (by rw [hheld]; exact List.mem_cons_self)
  refine ⟨hown, fun u => ?_, fun u => ?_, fun m' u => ?_⟩
  · by_cases hu : u = t
    · subst hu
      simpa [hheld] using hrest
    · simpa [hu] using h.rules u
  · by_cases hu : u = t
    · subst hu
      simpa [hheld] using hranked.2
    · simpa [hu] using h.ranked u
  · have hown' := h.owner m' u
    by_cases hm : m' = m
    · subst hm
      by_cases hu : u = t
      · subst hu
        simpa [hheld] using hnot
      · have hother : m' ∉ held u := by
          rw [← hown', hown]
          exact fun heq => hu (Option.some.inj heq).symm
        simpa [hu] using hother
    · by_cases hu : u = t
      · subst hu
        simp [hm, hown', hheld]
      · simp [hm, hu, hown']

omit [DecidableEq ι] [DecidableEq μ] in
/-- The rules allow the next task of a thread. -/
theorem allowed (h : Locked rank ok s held) {a : α} (hops : s.ops t = .task a :: ops) :
    ∃ after, ok t (held t) a after := by
  have hscoped := h.rules t
  rw [hops] at hscoped
  obtain ⟨after, hok, -⟩ := hscoped
  exact ⟨after, hok⟩

omit [DecidableEq μ] in
theorem performed (hd : Disciplined perform rank ok) (h : Locked rank ok s held) {a : α}
    {input : Option ε} {shared : σ} {body : List (Op μ α)} {b : β}
    (hops : s.ops t = .task a :: ops)
    (hperform : perform a input s.shared = some (shared, body, b)) :
    Locked rank ok ((s.setShared shared).goOn t (body ++ ops)) held := by
  have hscoped := h.rules t
  rw [hops] at hscoped
  obtain ⟨after, hok, hafter⟩ := hscoped
  refine ⟨fun u => ?_, h.ranked, h.owner⟩
  by_cases hu : u = t
  · subst hu
    simpa using hd.rules hok hperform hafter
  · simpa [hu] using h.rules u

/-- **One step.** -/
theorem step (hd : Disciplined perform rank ok) (h : Locked rank ok s held) {input : Option ε}
    {out : Option (α × β)} (hstep : s.step perform (t, input) = .ok (s', out)) :
    ∃ held', Locked rank ok s' held' := by
  obtain ⟨m, ops, hops, hfree, rfl, -⟩ | ⟨m, ops, hops, -, rfl, -⟩ |
    ⟨a, ops, shared, body, b, hops, hperform, rfl, -⟩ := Threads.step_eq_ok hstep
  · exact ⟨_, h.lock hops hfree⟩
  · exact ⟨_, (h.unlock hops).2⟩
  · exact ⟨_, h.performed hd hops hperform⟩

/-- A thread goes on, waits for a mutex that another thread has, or waits with no mutex locked
for something from outside. -/
theorem goes_or_waits (hd : Disciplined perform rank ok) (h : Locked rank ok s held)
    {op : Op μ α} (hops : s.ops t = op :: ops) :
    (∃ out, s.step perform (t, none) = .ok out) ∨
      (∃ m u, op = .lock m ∧ s.owner m = some u ∧ u ≠ t) ∨
      ∃ a, op = .task a ∧ perform a none s.shared = none ∧ held t = [] := by
  have hrules := h.rules t
  rw [hops] at hrules
  cases op with
  | lock m =>
      rcases hown : s.owner m with _ | u
      · exact .inl ⟨_, s.step_lock perform hops hown⟩
      · refine .inr (.inl ⟨m, u, rfl, hown, ?_⟩)
        rintro rfl
        exact Nat.lt_irrefl _ (hrules.1 m ((h.owner m u).mp hown))
  | unlock m => exact .inl ⟨_, s.step_unlock perform hops (h.unlock hops).1⟩
  | task a =>
      obtain ⟨after, hok, -⟩ := hrules
      rcases hperform : perform a none s.shared with _ | ⟨shared, body, b⟩
      · refine .inr (.inr ⟨a, rfl, hperform, ?_⟩)
        by_contra hheld
        obtain ⟨shared, body, b, hsome⟩ := hd.goes hok hheld s.shared
        rw [hperform] at hsome
        cases hsome
      · exact .inl ⟨_, s.step_task hops hperform⟩

/-! ## No wait is for ever -/

/-- A step before a run of a thread that has locked `m` all the time. -/
theorem exists_run_succ {P : Threads ι μ α σ → Prop} {out : Option (α × β)}
    (hown : s.owner m = some t) (hstep : s.step perform (t, none) = .ok (s', out))
    (h : ∃ (n : Nat) (s'' : Threads ι μ α σ) (log : List (Entry _ _ (Option (α × β)))),
      run (Threads.step perform) s' (List.replicate n (t, none)) = .ok (s'', log) ∧ P s'' ∧
        ∀ e ∈ log, e.before.owner m = some e.input.1) :
    ∃ (n : Nat) (s'' : Threads ι μ α σ) (log : List (Entry _ _ (Option (α × β)))),
      run (Threads.step perform) s (List.replicate n (t, none)) = .ok (s'', log) ∧ P s'' ∧
        ∀ e ∈ log, e.before.owner m = some e.input.1 := by
  obtain ⟨n, s'', log, hrun, hP, hlog⟩ := h
  exact ⟨n + 1, s'', _, run_cons_eq_ok.mpr ⟨s', out, log, hstep, hrun, rfl⟩, hP,
    List.forall_mem_cons.mpr ⟨hown, hlog⟩⟩

/-- A thread can go on until it unlocks `m`, if the mutexes of a higher rank are free but for
those in `pre`, which it has locked since. -/
theorem exists_unlocked (hd : Disciplined perform rank ok) (h : Locked rank ok s held)
    {pre low : List μ} (hheld : held t = pre ++ m :: low)
    (hfree : ∀ m', rank m < rank m' → m' ∉ pre → s.owner m' = none) :
    ∃ (n : Nat) (s' : Threads ι μ α σ) (log : List (Entry _ _ (Option (α × β)))),
      run (Threads.step perform) s (List.replicate n (t, none)) = .ok (s', log) ∧
        Locked rank ok s' (Function.update held t low) ∧
        ∀ e ∈ log, e.before.owner m = some e.input.1 := by
  have hends := (h.rules t).ends hd
  generalize hops : s.ops t = ops at hends
  generalize hlocked : held t = locked at hends
  rw [hlocked] at hheld
  have hown : s.owner m = some t := (h.owner m t).mpr (by simp [hlocked, hheld])
  induction hends generalizing s held pre with
  | free ops => simp at hheld
  | @lock m' locked ops hrest ih =>
      -- a mutex of a higher rank, which is free
      have hrules := h.rules t
      rw [hops] at hrules
      have hhigh : ∀ m'' ∈ locked, rank m'' < rank m' := hlocked ▸ hrules.1
      have hm : rank m < rank m' := hhigh m (by simp [hheld])
      have hnew : m' ∉ pre := fun hmem => Nat.lt_irrefl _ (hhigh m' (by simp [hheld, hmem]))
      have hnone := hfree m' hm hnew
      refine exists_run_succ hown (s.step_lock _ hops hnone) ?_
      rw [← Function.update_idem]
      refine ih (h.lock hops hnone) ?_ ?_ (by rw [hheld, List.cons_append]) ?_ ?_
      · intro m'' hlt hnot
        rw [List.mem_cons, not_or] at hnot
        simpa [hnot.1] using hfree m'' hlt hnot.2
      · simp
      · simp [hlocked]
      · have hne : m ≠ m' := fun heq => Nat.lt_irrefl _ (heq ▸ hm)
        simpa [hne] using hown
  | @unlock m' locked ops hrest ih =>
      have hstep := h.unlock hops
      rw [hlocked, List.tail_cons] at hstep
      refine exists_run_succ hown (s.step_unlock _ hops hstep.1) ?_
      rcases pre with _ | ⟨m'', pre⟩
      · -- the mutex itself
        rw [List.nil_append, List.cons.injEq] at hheld
        obtain ⟨rfl, rfl⟩ := hheld
        exact ⟨0, _, [], rfl, hstep.2, List.forall_mem_nil _⟩
      · -- one that has been locked since
        rw [List.cons_append, List.cons.injEq] at hheld
        obtain ⟨rfl, rfl⟩ := hheld
        rw [← Function.update_idem]
        refine ih hstep.2 ?_ (by simp) rfl (by simp) ?_
        · intro m'' hlt hnot
          by_cases heq : m'' = m'
          · subst heq
            simp
          · simpa [heq] using hfree m'' hlt (by simp [heq, hnot])
        · have hne : m ≠ m' := by
            have hranked := h.ranked t
            rw [hlocked, List.pairwise_cons] at hranked
            rintro rfl
            exact Nat.lt_irrefl _ (hranked.1 m (by simp))
          simpa [hne] using hown
  | @task a locked ops hbody ih =>
      have hrules := h.rules t
      rw [hops] at hrules
      obtain ⟨after, hok, -⟩ := hrules
      obtain ⟨shared, body, b, hperform⟩ := hd.goes hok (by simp [hlocked, hheld]) s.shared
      refine exists_run_succ hown (s.step_task hops hperform) ?_
      exact ih s.shared shared body b hperform (h.performed hd hops hperform) hfree
        (by simp) hheld hlocked hown

omit [DecidableEq μ] in
/-- What is locked once a thread has unlocked `m` and those it has locked since was locked
before, and is not `m`. -/
theorem locked_before (h : Locked rank ok s held) {pre low : List μ}
    (hheld : held t = pre ++ m :: low) (h' : Locked rank ok s' (Function.update held t low))
    {m' : μ} {u : ι} (hown : s'.owner m' = some u) : s.owner m' = some u ∧ m' ≠ m := by
  have hranked := h.ranked t
  rw [hheld, List.pairwise_append, List.pairwise_cons] at hranked
  have hlow : m ∉ low := fun hmem => Nat.lt_irrefl _ (hranked.2.1.1 m hmem)
  have ht : s.owner m = some t := (h.owner m t).mpr (by simp [hheld])
  rw [h'.owner] at hown
  rw [h.owner]
  by_cases hut : u = t
  · subst hut
    rw [Function.update_self] at hown
    exact ⟨by simp [hheld, hown], fun heq => hlow (heq ▸ hown)⟩
  · rw [Function.update_of_ne hut] at hown
    refine ⟨hown, fun heq => hut ?_⟩
    rw [heq, ← h.owner, ht] at hown
    exact (Option.some.inj hown).symm

omit [DecidableEq μ] in
theorem card_unlocked_lt [Fintype μ] (h : Locked rank ok s held) {pre low : List μ}
    (hheld : held t = pre ++ m :: low) (h' : Locked rank ok s' (Function.update held t low)) :
    (Finset.univ.filter fun m => s'.owner m ≠ none).card
      < (Finset.univ.filter fun m => s.owner m ≠ none).card := by
  have ht : s.owner m = some t := (h.owner m t).mpr (by simp [hheld])
  refine Finset.card_lt_card ((Finset.ssubset_iff_of_subset fun m' hm' => ?_).mpr ⟨m, ?_, ?_⟩)
  · rw [Finset.mem_filter] at hm' ⊢
    obtain ⟨u, hu⟩ := Option.ne_none_iff_exists'.mp hm'.2
    exact ⟨hm'.1, Option.ne_none_iff_exists'.mpr ⟨u, (h.locked_before hheld h' hu).1⟩⟩
  · simp [ht]
  · intro hmem
    obtain ⟨u, hu⟩ := Option.ne_none_iff_exists'.mp (Finset.mem_filter.mp hmem).2
    exact (h.locked_before hheld h' hu).2 rfl

/-- **Every mutex can be freed.** From wherever the threads are they can go on, those that have
a mutex only and with nothing from outside, until no mutex is locked. -/
theorem exists_free [Fintype μ] (hd : Disciplined perform rank ok) (h : Locked rank ok s held) :
    ∃ (ts : List ι) (s' : Threads ι μ α σ) (log : List (Entry _ _ (Option (α × β)))),
      run (Threads.step perform) s (ts.map fun t => (t, none)) = .ok (s', log) ∧
        (∀ m, s'.owner m = none) ∧ ∀ e ∈ log, ∃ m, e.before.owner m = some e.input.1 := by
  generalize hcard : (Finset.univ.filter fun m => s.owner m ≠ none).card = k
  induction k using Nat.strong_induction_on generalizing s held with
  | _ k ih =>
      rcases (Finset.univ.filter fun m => s.owner m ≠ none).eq_empty_or_nonempty with hempty | hne
      · refine ⟨[], s, [], rfl, fun m => ?_, List.forall_mem_nil _⟩
        simpa using Finset.filter_eq_empty_iff.mp hempty (Finset.mem_univ m)
      · -- the locked mutex of the highest rank is freed first
        obtain ⟨m, hm, hmax⟩ := Finset.exists_max_image _ rank hne
        rw [Finset.mem_filter] at hm
        obtain ⟨t, hown⟩ := Option.ne_none_iff_exists'.mp hm.2
        obtain ⟨pre, low, hheld⟩ := List.append_of_mem ((h.owner m t).mp hown)
        obtain ⟨n, s₁, log₁, hrun₁, hlocked, hlog₁⟩ := h.exists_unlocked hd hheld (by
          intro m' hlt _
          by_contra hne
          have hle := hmax m' (by simpa using hne)
          omega)
        have hless : (Finset.univ.filter fun m => s₁.owner m ≠ none).card < k := by
          calc (Finset.univ.filter fun m => s₁.owner m ≠ none).card
              < (Finset.univ.filter fun m => s.owner m ≠ none).card :=
                h.card_unlocked_lt hheld hlocked
            _ = k := hcard
        obtain ⟨ts, s', log₂, hrun₂, hfree, hlog₂⟩ := ih _ hless hlocked rfl
        refine ⟨List.replicate n t ++ ts, s', log₁ ++ log₂, ?_, hfree, ?_⟩
        · rw [List.map_append, List.map_replicate]
          exact run_append_eq_ok.mpr ⟨s₁, log₁, log₂, hrun₁, hrun₂, rfl⟩
        · exact List.forall_mem_append.mpr ⟨fun e he => ⟨m, hlog₁ e he⟩, hlog₂⟩

end Locked

end Discipline

end ChatApp.Lib
