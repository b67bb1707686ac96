import ChatApp.Lib.Simulation
import Mathlib.Data.Set.Basic
import Mathlib.Logic.Function.Basic

set_option autoImplicit false

/-! # Mailboxes

What a message server is for, in its own terms: people join under a name, and whoever has
joined has a mailbox. Anyone who has joined can look up the others, put a text into the
mailbox of another and fetch what is in his own. People are counted in the order in which
they join; names, texts and the number of people are not bounded.

Nobody leaves: the names of a state are those that joined before, in order
(`names_eq_of_run`).
-/

namespace ChatApp

open Lib

/-- The people who have joined and what waits for each: texts with the sender's number. -/
structure Mailboxes (ν τ : Type) where
  names : List ν
  box : ℕ → List (ℕ × τ)
  box_eq_nil : ∀ i, names.length ≤ i → box i = []
  sender_lt : ∀ i, ∀ m ∈ box i, m.1 < names.length

namespace Mailboxes

/-- What can be asked of the mailboxes. The numbers need not be those of people. -/
inductive Action (ν τ : Type)
  | join (name : ν)
  | look (who : ℕ)
  | send (source target : ℕ) (text : τ)
  | fetch (who : ℕ)
  deriving DecidableEq

/-- What is answered. -/
inductive Answer (ν τ : Type)
  | joined (who : ℕ)
  | listed (others : Set (ℕ × ν))
  | sent
  | noSource
  | noTarget
  | fetched (texts : List (ℕ × τ))
  | unknown

variable {ν τ : Type}

/-- Nobody has joined. -/
def empty : Mailboxes ν τ where
  names := []
  box := fun _ => []
  box_eq_nil := fun _ _ => rfl
  sender_lt := by simp

/-- The people other than `who`, with their numbers. -/
def others (s : Mailboxes ν τ) (who : ℕ) : Set (ℕ × ν) :=
  {e | e.1 ≠ who ∧ s.names[e.1]? = some e.2}

def join (s : Mailboxes ν τ) (name : ν) : Mailboxes ν τ where
  names := s.names ++ [name]
  box := s.box
  box_eq_nil := by
    intro i hi
    rw [List.length_append] at hi
    exact s.box_eq_nil i (by omega)
  sender_lt := by
    intro i m hm
    have hlt := s.sender_lt i m hm
    rw [List.length_append]
    omega

def put (s : Mailboxes ν τ) (source target : ℕ) (text : τ) (hs : source < s.names.length)
    (ht : target < s.names.length) : Mailboxes ν τ where
  names := s.names
  box := Function.update s.box target (s.box target ++ [(source, text)])
  box_eq_nil := by
    intro i hi
    have hne : i ≠ target := by omega
    rw [Function.update_of_ne hne]
    exact s.box_eq_nil i hi
  sender_lt := by
    intro i m hm
    by_cases hi : i = target
    · rw [hi, Function.update_self, List.mem_append, List.mem_singleton] at hm
      rcases hm with hm | rfl
      · exact s.sender_lt target m hm
      · exact hs
    · rw [Function.update_of_ne hi] at hm
      exact s.sender_lt i m hm

def clear (s : Mailboxes ν τ) (who : ℕ) : Mailboxes ν τ where
  names := s.names
  box := Function.update s.box who []
  box_eq_nil := by
    intro i hi
    by_cases hw : i = who
    · rw [hw, Function.update_self]
    · rw [Function.update_of_ne hw]
      exact s.box_eq_nil i hi
  sender_lt := by
    intro i m hm
    by_cases hw : i = who
    · rw [hw, Function.update_self] at hm
      cases hm
    · rw [Function.update_of_ne hw] at hm
      exact s.sender_lt i m hm

/-- One action. Numbers that nobody has are refused, the sender's before the target's. -/
def step (s : Mailboxes ν τ) : Action ν τ → Mailboxes ν τ × Answer ν τ
  | .join name => (s.join name, .joined s.names.length)
  | .look who => (s, if who < s.names.length then .listed (s.others who) else .unknown)
  | .send source target text =>
      if hs : source < s.names.length then
        if ht : target < s.names.length then (s.put source target text hs ht, .sent)
        else (s, .noTarget)
      else (s, .noSource)
  | .fetch who =>
      if who < s.names.length then (s.clear who, .fetched (s.box who)) else (s, .unknown)

/-! ## What a run leaves -/

/-- The name of an action that joins. -/
def Action.name? : Action ν τ → Option ν
  | .join name => some name
  | .look _ => none
  | .send _ _ _ => none
  | .fetch _ => none

theorem names_step (s : Mailboxes ν τ) (a : Action ν τ) :
    (s.step a).1.names = s.names ++ a.name?.toList := by
  match a with
  | .join name => rfl
  | .look who => simp [step, Action.name?]
  | .send source target text =>
      rw [step]
      split_ifs <;> simp [put, Action.name?]
  | .fetch who =>
      rw [step]
      split_ifs <;> simp [clear, Action.name?]

/-- **Who has joined**, in order: nobody leaves, and nothing else adds a name. -/
theorem names_eq_of_run {s s' : Mailboxes ν τ} {as : List (Action ν τ)}
    {log : List (Entry (Mailboxes ν τ) (Action ν τ) (Answer ν τ))}
    (hrun : run (total step) s as = .ok (s', log)) :
    s'.names = s.names ++ as.filterMap Action.name? := by
  induction as generalizing s log with
  | nil =>
      obtain ⟨rfl, -⟩ : s = s' ∧ [] = log := by simpa [run] using hrun
      simp
  | cons a as ih =>
      obtain ⟨t, b, log', hstep, htail, -⟩ := run_cons_eq_ok.mp hrun
      have ht : t.names = s.names ++ a.name?.toList := by
        rw [← names_step, total_eq_ok.mp hstep]
      have hcons : (a :: as).filterMap Action.name?
          = a.name?.toList ++ as.filterMap Action.name? := by
        rcases h : a.name? with _ | name <;> simp [h]
      rw [ih htail, ht, hcons, List.append_assoc]

end Mailboxes

end ChatApp
