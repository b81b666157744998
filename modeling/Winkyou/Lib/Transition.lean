import Mathlib.Data.List.Basic

/-!
# Runs of a transition system

A system is a partial step function. `Reachable step start ok` holds of the states that a run
reaches from a start state by steps that all meet a condition `ok` on the state before the
step and the action; `fun _ _ => True` gives all runs.

* `Reachable.invariant`: what holds at the start and is kept by every allowed step holds in
  every state reached.
* `Reachable.of_run`, `Reachable.exists_of_run`: a run given by its list of actions.
-/

namespace Transition

variable {σ α : Type*} {step : σ → α → Option σ} {start : σ → Prop} {ok : σ → α → Prop}

/-- The states reached from `start` by steps that all meet `ok`. -/
inductive Reachable (step : σ → α → Option σ) (start : σ → Prop) (ok : σ → α → Prop) : σ → Prop
  | start {s} (h : start s) : Reachable step start ok s
  | step {s s' a} (h : Reachable step start ok s) (hok : ok s a) (hs : step s a = some s') :
      Reachable step start ok s'

/-- The state after a list of actions, when each of them is enabled and meets `ok`. -/
def runFrom (step : σ → α → Option σ) (ok : σ → α → Prop) [∀ s a, Decidable (ok s a)] (s : σ)
    (acts : List α) :
    Option σ :=
  acts.foldlM (fun s a => if ok s a then step s a else none) s

/-- **The invariant rule.** -/
theorem Reachable.invariant {P : σ → Prop} (h0 : ∀ s, start s → P s)
    (hst : ∀ s a s', Reachable step start ok s → P s → ok s a → step s a = some s' → P s') {s : σ}
    (h : Reachable step start ok s) : P s := by
  induction h with
  | start hs => exact h0 _ hs
  | step hr hok hs ih => exact hst _ _ _ hr ih hok hs

/-- A stronger condition on the steps reaches fewer states. -/
theorem Reachable.mono {ok' : σ → α → Prop} (himp : ∀ s a, ok s a → ok' s a) {s : σ}
    (h : Reachable step start ok s) : Reachable step start ok' s := by
  induction h with
  | start hs => exact .start hs
  | step _ hok hs ih => exact .step ih (himp _ _ hok) hs

/-- A run from a state that a run reaches. -/
theorem Reachable.trans {s s' : σ} (h : Reachable step start ok s)
    (h' : Reachable step (· = s) ok s') :
    Reachable step start ok s' := by
  induction h' with
  | start hs => exact hs ▸ h
  | step _ hok hs ih => exact .step ih hok hs

/-- A list of enabled actions is a run. -/
theorem Reachable.of_run [∀ s a, Decidable (ok s a)] {acts : List α} :
    ∀ {s s' : σ}, Reachable step start ok s → runFrom step ok s acts = some s' →
      Reachable step start ok s' := by
  induction acts with
  | nil =>
    intro s s' h hrun
    cases hrun
    exact h
  | cons a acts ih =>
    intro s s' h hrun
    rw [runFrom, List.foldlM_cons, Option.bind_eq_bind, Option.bind_eq_some_iff] at hrun
    obtain ⟨m, hm, hre⟩ := hrun
    split at hm
    · rename_i hok
      exact ih (.step h hok hm) hre
    · cases hm

/-- A run given by its actions, with a property of the state in which it ends. -/
theorem Reachable.exists_of_run [∀ s a, Decidable (ok s a)] {s : σ} (h : start s) (acts : List α)
    (p : σ → Bool) (hp : (runFrom step ok s acts).any p = true) :
    ∃ s', Reachable step start ok s' ∧ p s' = true := by
  obtain ⟨s', hrun, hp⟩ := (Option.any_eq_true _ _).mp hp
  exact ⟨s', .of_run (.start h) hrun, hp⟩

end Transition
