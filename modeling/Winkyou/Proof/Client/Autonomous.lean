import Winkyou.Lib.Transition
import Winkyou.Spec.Client.Autonomous

/-!
# When a stopped autonomous engine is closed

`Stop` keeps the runtime until its `Close` has succeeded. The clean-up of a failed `Start` lets go
of it whatever the answers are; `Action.Cleans` asks that both its steps succeed.
-/

namespace Winkyou.Client.Autonomous

open Engine Bool

variable {e e' : Engine} {a : Answers} {act : Action}

/-- A `Start` that fails with a runtime closes it, and removes the state that it wrote. -/
def Action.Cleans (e : Engine) : Action → Prop
  | .start a =>
    e.started = false → a.ownership = true → a.create = true → (a.start && a.persist) = false →
    a.close = true ∧ (a.start = true → a.wrote = true → a.remove = true)
  | _ => True

/-- A new engine; the file may hold the record of another instance. -/
def Engine.New (e : Engine) : Prop := ∃ file, file ≠ .own ∧ e = { file }

/-- No runtime but the current one is open, and without one there is no own record. -/
structure EngineOK (e : Engine) : Prop where
  stopped : e.state = .stopped ↔ e.started = false
  idle : e.started = false → e.runtime = none ∧ (∀ id < e.created, id ∈ e.closed) ∧ e.file ≠ .own
  running : e.started = true → ∃ id, e.runtime = some id ∧ e.created = id + 1 ∧ ∀ i < id, i ∈ e.closed

theorem removeState_file (h : e.file = .own → a.remove = true) : (e.removeState a).file ≠ .own := by
  unfold removeState removes
  split_ifs with hr
  · exact nofun
  · intro hown
    simp [h hown, hown] at hr

theorem cleanup_ok (hclosed : ∀ id < e.created, id ∈ (e.closeRuntime a).closed)
    (hfile : e.file = .own → a.remove = true) : EngineOK (e.cleanup a) := by
  have hcreated : (e.closeRuntime a).created = e.created := by unfold closeRuntime; split <;> rfl
  have hf : (e.closeRuntime a).file = e.file := by unfold closeRuntime; split <;> rfl
  refine ⟨⟨fun _ => rfl, fun _ => rfl⟩, fun _ => ⟨rfl, ?_, removeState_file (hf.symm ▸ hfile)⟩, nofun⟩
  show ∀ id < ((e.closeRuntime a).removeState a).created, id ∈ ((e.closeRuntime a).removeState a).closed
  unfold removeState
  split <;> exact hcreated.symm ▸ hclosed

theorem start_ok (h : EngineOK e) (hc : Action.Cleans e (.start a)) : EngineOK (e.start a) := by
  unfold start
  split_ifs with hs hnew
  · exact h
  · rw [not_eq_true] at hs
    rw [and_eq_true] at hnew
    obtain ⟨-, hall, hfile⟩ := h.idle hs
    have hclean := hc hs hnew.1 hnew.2
    -- a runtime that the clean-up closes was the last one open
    have hclosed : a.close = true → ∀ id < e.created + 1, id ∈
      (if a.close then e.created :: e.closed else e.closed) := by
      intro hcl id hid
      rw [if_pos hcl, List.mem_cons]
      exact (Nat.lt_succ_iff_lt_or_eq.1 hid).symm.imp_right (hall id)
    unfold startRuntime
    split_ifs with hst hp
    · unfold persistState
      rw [if_pos (by rw [hp]; rfl)]
      exact ⟨⟨nofun, nofun⟩, nofun, fun _ => ⟨_, rfl, rfl, hall⟩⟩
    · obtain ⟨hcl, hrem⟩ := hclean (by simp [hp])
      unfold persistState
      split_ifs with hw
      · exact cleanup_ok (hclosed hcl) fun _ => hrem hst (by simpa [hp] using hw)
      · exact cleanup_ok (hclosed hcl) fun hown => absurd hown hfile
    · exact cleanup_ok (hclosed (hclean (by simp [hst])).1) fun hown => absurd hown hfile
  · rw [not_eq_true] at hs
    obtain ⟨hnone, hall, hfile⟩ := h.idle hs
    refine cleanup_ok ?_ fun hown => absurd hown hfile
    unfold closeRuntime
    simp only [hnone]
    exact hall

theorem EngineOK.goes_on (h : EngineOK e) (hs : e.started = true) (hs' : e'.started = true)
    (hst : e'.state ≠ .stopped) (hrt : e'.runtime = e.runtime) (hcr : e'.created = e.created)
    (hcl : e.closed ⊆ e'.closed) : EngineOK e' := by
  obtain ⟨id, hid, hnew, hall⟩ := h.running hs
  have hno : e'.started ≠ false := by
    rw [hs']
    exact nofun
  exact ⟨⟨fun h => absurd h hst, fun h => absurd h hno⟩, fun h => absurd h hno,
    fun _ => ⟨id, hrt.trans hid, hcr.trans hnew, fun i hi => hcl (hall i hi)⟩⟩

theorem stop_ok (h : EngineOK e) : EngineOK (e.stop a) := by
  unfold stop
  split_ifs with hs
  swap
  · exact h
  obtain ⟨id, hid, hnew, hall⟩ := h.running hs
  simp only [closeRuntime, hid, Option.isSome_some, Bool.true_and]
  cases hcl : a.close with
  | false =>
    unfold persistState
    simp only [Bool.not_false, if_true]
    split <;> exact h.goes_on hs hs nofun hid.symm rfl (List.Subset.refl _)
  | true =>
    simp only [Bool.not_true, false_eq_true, if_false, if_true]
    split
    · refine ⟨⟨fun _ => rfl, fun _ => rfl⟩, fun _ => ⟨rfl, fun i hi => ?_, nofun⟩, nofun⟩
      rw [hnew, Nat.lt_succ_iff_lt_or_eq] at hi
      exact List.mem_cons.2 (hi.symm.imp_right (hall i))
    · exact h.goes_on hs hs nofun hid.symm rfl (List.subset_cons_self _ _)

theorem step_ok (h : EngineOK e) (hc : act.Cleans e) (hs : e.step act = some e') : EngineOK e' := by
  -- the loop runs in a connected engine, which was started
  have hstarted : e.state = .connected → e.started = true := by
    intro hst
    by_contra hno
    rw [h.stopped.2 (not_eq_true _ ▸ hno)] at hst
    cases hst
  cases act with
  | start a =>
    cases hs
    exact start_ok h hc
  | stop a =>
    cases hs
    exact stop_ok h
  | sync a =>
    simp only [step, Option.ite_none_right_eq_some] at hs
    obtain ⟨hst, hs⟩ := hs
    cases hs
    unfold persistState
    split
    · exact h.goes_on (hstarted hst) (hstarted hst) (hst ▸ nofun) rfl rfl (List.Subset.refl _)
    · exact h
  | done =>
    simp only [step, Option.ite_none_right_eq_some] at hs
    obtain ⟨hst, hs⟩ := hs
    cases hs
    exact h.goes_on (hstarted hst) (hstarted hst) nofun rfl rfl (List.Subset.refl _)
  | replaced removed =>
    cases hs
    refine ⟨h.stopped, fun hno => ⟨(h.idle hno).1, (h.idle hno).2.1, ?_⟩, h.running⟩
    cases removed <;> exact nofun

/-- **Stopped means closed**, when the clean-up of a failed `Start` succeeds: a stopped engine has
closed every runtime it created and left no record of its own, and a runtime that is not closed is
what the next `Stop` closes. -/
theorem stopped_means_closed (h : Transition.Reachable step New (fun e act => act.Cleans e) e) :
    (e.state = .stopped → (∀ id < e.created, id ∈ e.closed) ∧ e.file ≠ .own) ∧
    ∀ id < e.created, id ∉ e.closed → ∀ a, (e.stop a).closeCalls = e.closeCalls ++ [id] := by
  have hok : EngineOK e := by
    refine h.invariant ?_ fun _ _ _ _ h hc hs => step_ok h hc hs
    rintro _ ⟨file, hfile, rfl⟩
    exact ⟨⟨fun _ => rfl, fun _ => rfl⟩, fun _ => ⟨rfl, nofun, hfile⟩, nofun⟩
  refine ⟨fun hst => (hok.idle (hok.stopped.1 hst)).2, fun id hid hopen a => ?_⟩
  rcases hs : e.started with _ | _
  · exact absurd ((hok.idle hs).2.1 id hid) hopen
  obtain ⟨last, hrt, hcr, hall⟩ := hok.running hs
  -- all but the last runtime are closed
  obtain rfl : id = last := by
    by_contra hne
    exact hopen (hall id (by omega))
  simp only [stop, hs, if_true, closeRuntime, hrt, persistState, apply_ite closeCalls, ite_self]

/-- The state cannot be written and the runtime does not close: the engine is stopped, and `Stop`
does nothing. -/
theorem failed_start_leaves_runtime :
    let e := Engine.start {} { persist := false, wrote := false, close := false }
    (e.state, e.created, e.closed) = (.stopped, 1, []) ∧ ∀ a, (e.stop a).closeCalls = e.closeCalls :=
  ⟨rfl, fun _ => rfl⟩

theorem stopped_means_closed_sample :
    ∃ e, Transition.Reachable step New (fun e act => act.Cleans e) e ∧ e.created = 1 ∧
    (∀ id < e.created, id ∈ e.closed) ∧ e.file ≠ .own := by
  have hr : Transition.Reachable step New (fun e act =>
    act.Cleans e) (Engine.start {} { persist := false }) :=
    .step (a := .start { persist := false }) (.start ⟨.absent, nofun, rfl⟩) (fun _ _ _ _ => ⟨rfl,
      fun _ _ => rfl⟩) rfl
  exact ⟨_, hr, rfl, (stopped_means_closed hr).1 rfl⟩

end Winkyou.Client.Autonomous
