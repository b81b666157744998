import Winkyou.Lib.Transition
import Winkyou.Spec.Client.SnapshotWriter

/-!
# Removing the snapshot is final

`Allowed` says which event may follow which; all events of a run keep to it. A request that was
accepted has its notification until a write starts (`WriterOK.served`).
-/

namespace Winkyou.SnapshotWriter

open Transition (Reachable)
open List

variable {ε : Type} {w w' : Writer ε}

/-- The events after the start of the last write. -/
def sinceWrite (log : List (Event ε)) : List (Event ε) :=
  log.takeWhile fun e => !(e matches .writeStarts)

/-- What an event says about those before it. -/
def Allowed (log : List (Event ε)) : Event ε → Prop
  | .chosen => .sealed ∉ log
  | .writeStarts => .removeStarts ∉ log ∧ .chosen ∈ sinceWrite log
  | .writeEnds | .removeStarts => .removeStarts ∉ log
  | .waited (some err) => .removeEnds err ∈ log
  | _ => True

def Ordered : List (Event ε) → Prop
  | [] => True
  | e :: log => Allowed log e ∧ Ordered log

structure WriterOK (w : Writer ε) : Prop where
  ordered : Ordered w.log
  sealed : .sealed ∈ w.log ∨ w.worker = .discard → w.closing = true
  served : .requested true ∈ sinceWrite w.log →
    w.wake = true ∨ w.closing = true ∨ w.worker = .choose ∨ w.worker = .write
  worker : match w.worker with
    | .receive | .choose | .writing | .discard | .remove => .removeStarts ∉ w.log ∧ w.done = false
    | .write => .removeStarts ∉ w.log ∧ w.done = false ∧ .chosen ∈ sinceWrite w.log
    | .removing => w.done = false
    | .store err => .removeEnds err ∈ w.log ∧ w.done = false
    | .close | .returned => .removeEnds w.err ∈ w.log

/-- **One step of the worker.** -/
theorem WriterOK.run (h : WriterOK w) {err : Option ε} (hs : w.run err = some w') :
    WriterOK w' := by
  obtain ⟨hor, hse, hsv, hwo⟩ := h
  have hsealed (hmem : .sealed ∈ w.log) : w.closing = true := hse (.inl hmem)
  unfold Writer.run at hs
  cases hw : w.worker with
  | receive =>
    simp only [hw] at hs hwo
    split_ifs at hs
    cases hs
    exact ⟨hor, by simpa using hsealed, fun _ => .inr (.inr (.inl rfl)), hwo⟩
  | choose =>
    simp only [hw] at hs hwo
    split_ifs at hs with hclosing <;> cases hs
    · exact ⟨hor, fun _ => hclosing, fun _ => .inr (.inl hclosing), hwo⟩
    · -- it chooses to write only when it is not sealed
      refine ⟨⟨fun hmem => hclosing (hsealed hmem), hor⟩, by simpa using hsealed,
        fun _ => .inr (.inr (.inr rfl)), ?_⟩
      simpa [sinceWrite] using hwo
  | write =>
    simp only [hw] at hs hwo
    cases hs
    exact ⟨⟨⟨hwo.1, hwo.2.2⟩, hor⟩, by simpa using hsealed, by simp [sinceWrite], by
      simpa using ⟨hwo.1, hwo.2.1⟩⟩
  | writing =>
    simp only [hw] at hs hsv hwo
    cases hs
    exact ⟨⟨hwo.1, hor⟩, by simpa using hsealed, by simpa [sinceWrite] using hsv, by simpa using hwo⟩
  | discard =>
    simp only [hw] at hs hwo
    cases hs
    exact ⟨hor, by simpa using hsealed, fun _ => .inr (.inl (hse (.inr hw))), hwo⟩
  | remove =>
    simp only [hw] at hs hsv hwo
    cases hs
    exact ⟨⟨hwo.1, hor⟩, by simpa using hsealed, by simpa [sinceWrite] using hsv, hwo.2⟩
  | removing =>
    simp only [hw] at hs hsv hwo
    cases hs
    exact ⟨⟨trivial, hor⟩, by simpa using hsealed, by simpa [sinceWrite] using hsv, mem_cons_self, hwo⟩
  | store err =>
    simp only [hw] at hs hsv hwo
    cases hs
    exact ⟨hor, by simpa using hsealed, by simpa using hsv, hwo.1⟩
  | close =>
    simp only [hw] at hs hsv hwo
    cases hs
    exact ⟨hor, by simpa using hsealed, by simpa using hsv, hwo⟩
  | returned =>
    rw [hw] at hs
    cases hs

theorem WriterOK.removed (h : WriterOK w) (hd : w.done = true) : .removeEnds w.err ∈ w.log := by
  have hwo := h.worker
  split at hwo <;> simp_all

/-- **One call** that adds an event other than those of the worker. -/
theorem WriterOK.call (h : WriterOK w) {e : Event ε} {closing wake : Bool} (he : Allowed w.log e)
    (hse : e = .sealed → closing = true) (hreq : e = .requested true → wake = true)
    (hne : e ≠ .removeStarts) (hsw : sinceWrite (e :: w.log) = e :: sinceWrite w.log)
    (hclosing : w.closing = true → closing = true) (hwake : w.wake = true → wake = true) :
    WriterOK { w with closing, wake, log := e :: w.log } where
  ordered := ⟨he, h.ordered⟩
  sealed := by
    rintro (hmem | hdiscard)
    · rcases mem_cons.1 hmem with rfl | hold
      · exact hse rfl
      · exact hclosing (h.sealed (.inl hold))
    · exact hclosing (h.sealed (.inr hdiscard))
  served hmem := by
    rw [hsw] at hmem
    rcases mem_cons.1 hmem with rfl | hold
    · exact .inl (hreq rfl)
    · exact (h.served hold).imp hwake (.imp_left hclosing)
  worker := by
    have hwo := h.worker
    simp only [hsw]
    split at hwo <;> simp_all [hne.symm]

/-- **One step.** -/
theorem WriterOK.step (h : WriterOK w) {a : Action ε} (hs : w.step a = some w') : WriterOK w' := by
  cases a with
  | work err => exact h.run hs
  | callRequest =>
    simp only [Writer.step] at hs
    split_ifs at hs with hclosing <;> cases hs
    · exact h.call trivial nofun nofun nofun rfl id id
    · exact h.call trivial nofun (fun _ => rfl) nofun rfl id fun _ => rfl
  | callSeal =>
    simp only [Writer.step] at hs
    split_ifs at hs with hclosing <;> cases hs
    · exact h
    · exact h.call trivial (fun _ => rfl) nofun nofun rfl (fun _ => rfl) fun _ => rfl
  | callWait ctxDone =>
    simp only [Writer.step] at hs
    split_ifs at hs with hdone <;> cases hs
    · exact h.call (h.removed hdone) nofun nofun nofun rfl id id
    · exact h.call trivial nofun nofun nofun rfl id id

/-- The steps that a sealed worker has left. -/
def Writer.left (w : Writer ε) : ℕ :=
  match w.worker with
  | .write => 9 | .writing => 8 | .receive => 7 | .choose => 6 | .discard => 5 | .remove => 4
  | .removing => 3 | .store _ => 2 | .close => 1 | .returned => 0

/-- A sealed worker that waits for a notification has one. -/
def WakeOK (w : Writer ε) : Prop :=
  w.closing = true → w.wake = true ∨ w.worker ≠ .receive ∧ w.worker ≠ .write ∧ w.worker ≠ .writing

theorem WakeOK.step (h : WakeOK w) {a : Action ε} (hs : w.step a = some w') : WakeOK w' := by
  cases a with
  | work err =>
    simp only [Writer.step, Writer.run] at hs
    cases hw : w.worker with
    | receive =>
      simp only [hw] at hs
      split_ifs at hs
      cases hs
      exact fun _ => .inr ⟨nofun, nofun, nofun⟩
    | choose =>
      simp only [hw] at hs
      split_ifs at hs with hclosing <;> cases hs
      · exact fun _ => .inr ⟨nofun, nofun, nofun⟩
      · exact fun hc => absurd hc hclosing
    | write | writing =>
      -- it holds the notification while it writes
      simp only [hw] at hs
      cases hs
      exact fun hc => .inl ((h hc).resolve_right (by simp [hw]))
    | discard | remove | removing | store | close =>
      simp only [hw] at hs
      cases hs
      exact fun _ => .inr ⟨nofun, nofun, nofun⟩
    | returned =>
      rw [hw] at hs
      cases hs
  | callRequest | callSeal =>
    simp only [Writer.step] at hs
    split_ifs at hs with hclosing <;> cases hs
    · exact h
    · exact fun _ => .inl rfl
  | callWait ctxDone =>
    simp only [Writer.step] at hs
    split_ifs at hs <;> cases hs <;> exact h

/-- **A sealed worker returns.** Once `seal` was called, the worker is never blocked before it has
returned, every step of it brings it nearer, and no call takes it back; so it returns after at most
nine steps. -/
theorem sealed_worker_returns (ε : Type) :
    (∀ w : Writer ε, Reachable Writer.step (· = {}) (fun _ _ => True) w → w.closing = true →
      w.left ≠ 0 → ∀ err, ∃ w', w.step (.work err) = some w' ∧ w'.left + 1 = w.left) ∧
    ∀ (w w' : Writer ε) (a : Action ε), w.closing = true → w.step a = some w' → w'.closing = true ∧
      w'.left ≤ w.left := by
  constructor
  · intro w hw hclosing hleft err
    have hwake : WakeOK w := hw.invariant (P := WakeOK) (by rintro v rfl; simp [WakeOK]) fun _ _ _ _
      h _ hs => h.step hs
    cases hwo : w.worker with
    | receive =>
      have hw := (hwake hclosing).resolve_right fun h => h.1 hwo
      exact ⟨{ w with wake := false, worker := .choose }, by simp [Writer.step, Writer.run, hwo,
        hw], by simp [Writer.left, hwo]⟩
    | choose => exact ⟨{ w with worker := .discard }, by simp [Writer.step, Writer.run, hwo,
        hclosing], by simp [Writer.left, hwo]⟩
    | returned => simp [Writer.left, hwo] at hleft
    | _ => simp [Writer.step, Writer.run, Writer.left, hwo]
  · intro w w' a hclosing hs
    cases a with
    | work err =>
      simp only [Writer.step, Writer.run] at hs
      cases hw : w.worker with
      | receive =>
        simp only [hw] at hs
        split_ifs at hs
        cases hs
        exact ⟨hclosing, by simp [Writer.left, hw]⟩
      | choose =>
        simp only [hw, hclosing, if_true] at hs
        cases hs
        exact ⟨rfl, by simp [Writer.left, hw]⟩
      | returned =>
        rw [hw] at hs
        cases hs
      | _ =>
        simp only [hw] at hs
        cases hs
        exact ⟨hclosing, by simp [Writer.left, hw]⟩
    | callRequest | callSeal | callWait =>
      simp only [Writer.step] at hs
      split_ifs at hs <;> cases hs <;> simp_all [Writer.left]

/-- A worker that is sealed while it writes has eight steps left, whatever is called then. -/
theorem sealed_worker_returns_writing :
    ∃ w w' : Writer String, w.worker = .writing ∧ w.closing = true ∧
    w.step (.work none) = some w' ∧ w'.left + 1 = 8 := by
  let w : Writer String :=
    { closing := true, wake := true, worker := .writing, log := [.sealed, .writeStarts, .chosen,
      .requested true] }
  have hrun : Transition.runFrom Writer.step (fun _ _ => True) {}
      [.callRequest, .work none, .work none, .work none, .callSeal] = some w := rfl
  have hw : Reachable Writer.step (· = {}) (fun _ _ => True) w := .of_run (.start rfl) hrun
  obtain ⟨w', hs, hleft⟩ := (sealed_worker_returns String).1 w hw rfl (by decide) none
  exact ⟨w, w', rfl, rfl, hs, hleft⟩

end Winkyou.SnapshotWriter
