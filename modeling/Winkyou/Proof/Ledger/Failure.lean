import Winkyou.Lib.Streak
import Winkyou.Proof.Ledger.Replay

/-!
# The failure circuit of a class

`failureState` is a latching streak (`Lib.Streak`) over the terminal records of the class
since its last reset, followed by the admissions since then that have no finish and
belong to another owner instance (`failureState_view`).

The streak is over the finishes first and the dead admissions last, whatever their order
in the journal: this is what lets a success close an open circuit.
-/

namespace Winkyou

open List Snapshot
open Streak (step)

variable {R : List Record} {r : Record} {bytes : ℕ} {o : String} {c : RecordClass}

/-- A record that counts as a failure: a finish without success, or an admission that was
never finished. -/
def Failing (r : Record) : Prop := r.type ≠ .finish ∨ r.reason ≠ .success

instance : DecidablePred Failing := fun r =>
  inferInstanceAs (Decidable (r.type ≠ .finish ∨ r.reason ≠ .success))

/-- The records of a class since its last reset. -/
def classTail (c : RecordClass) (R : List Record) : List Record :=
  R.foldl (fun l r => if r.recordClass ≠ c then l else if r.type = .circuitReset then []
    else l ++ [r]) []

/-- The terminal records of a class since its last reset. -/
def outcomes (c : RecordClass) (R : List Record) : List Record := finishes (classTail c R)

/-- The admissions of a class since its last reset that have no finish. -/
def pendingBurns (c : RecordClass) (R : List Record) : List Record :=
  (burns (classTail c R)).filter fun b => ¬ Finished R b.credentialID

/-- An admission is not one of owner `o`; the empty id owns none. -/
def Foreign (o : String) (b : Record) : Bool := o == "" || b.ownerInstanceID != o

/-- The pending admissions that an owner counts as failures. -/
def deadBurns (c : RecordClass) (R : List Record) (o : String) : List Record :=
  (pendingBurns c R).filter (Foreign o)

/-- **The circuit of a class in an owner's view**: the streak, and when it opened. -/
def circuit (c : RecordClass) (R : List Record) (o : String) : ℕ × ℤ :=
  Streak.run Failing (·.recordedAt.nanos) (Snapshot.failureLimit c) (outcomes c R ++ deadBurns c R o)

theorem classTail_concat : classTail c (R ++ [r]) =
    if r.recordClass ≠ c then classTail c R else if r.type = .circuitReset then []
      else classTail c R ++ [r] := by
  simp [classTail]

theorem classTail_sublist : (classTail c R).Sublist (R.filter (·.recordClass = c)) := by
  induction R using List.reverseRecOn with
  | nil => exact List.Sublist.refl _
  | append_singleton R x ih =>
    rw [classTail_concat, filter_append]
    split
    · exact ih.trans (sublist_append_left ..)
    · rename_i hc
      split
      · exact nil_sublist _
      · exact ih.append (by simp [not_not.1 hc])

theorem mem_classTail (h : r ∈ classTail c R) : r ∈ R ∧ r.recordClass = c := by
  simpa using mem_filter.1 (classTail_sublist.subset h)

/-! ## The loop over the records -/

/-- The loop of `failureState` with the lookups resolved. -/
def loopStep (c : RecordClass) (R : List Record) (st : Snapshot.Streak) (r : Record) :
    Snapshot.Streak :=
  if r.recordClass ≠ c then st
  else
    match r.type with
    | .burnAndAdmit =>
      if Finished R r.credentialID then st else { st with pending := st.pending ++ [⟨r, none⟩] }
    | .finish =>
      if r.reason = .success ∧ st.openedAt.isZero then { st with streak := 0 }
      else
        let streak := if r.reason ≠ .success then st.streak + 1 else st.streak
        { st with
          streak := streak
          openedAt := if streak ≥ Snapshot.failureLimit c ∧ st.openedAt.isZero then r.recordedAt
            else st.openedAt }
    | .circuitReset => {}
    | _ => st

theorem finishBySequence_view (h : Chain R) {f : Record} (hf : f ∈ finishes R) :
    (view R bytes o).finishBySequence f.recordClass f.sequence = some f := by
  obtain ⟨b, hb, hbc, -, hbk⟩ := h.matched hf
  unfold finishBySequence
  cases hs : (view R bytes o).admissionOrder.findSome? fun e =>
      if e.record.recordClass = f.recordClass then
        e.finish.bind fun g => if g.sequence = f.sequence then some g else none
      else none with
  | none =>
    rw [List.findSome?_eq_none_iff] at hs
    have := hs ⟨b, finishOf R b.credentialID⟩ (mem_map.2 ⟨b, hb, rfl⟩)
    rw [hbc, h.finishOf_eq hf] at this
    simp [hbk] at this
  | some g =>
    obtain ⟨e, he, heq⟩ := exists_of_findSome?_eq_some hs
    obtain ⟨b', hb', rfl⟩ := mem_map.1 he
    split at heq
    · obtain ⟨g', hg', hgs⟩ := Option.bind_eq_some_iff.1 heq
      split at hgs
      · rename_i hseq
        obtain rfl : g' = g := Option.some.inj hgs
        have hgR : g' ∈ finishes R := mem_of_find?_eq_some hg'
        rw [h.eq_of_seq (mem_finishes.1 hgR).1 (mem_finishes.1 hf).1 hseq]
      · cases hgs
    · cases heq

theorem streakStep_view (h : Chain R) (hr : r ∈ R) (st : Snapshot.Streak) :
    (view R bytes o).streakStep c st r = loopStep c R st r := by
  unfold streakStep loopStep
  by_cases hc : r.recordClass = c
  swap
  · simp [hc]
  simp only [hc, ne_eq, not_true, if_false]
  cases ht : r.type with
  | burnAndAdmit =>
    have hb : r ∈ burns R := mem_burns.2 ⟨hr, ht⟩
    simp only [view_admissions, h.find_burn hb, Option.map_some]
    cases hf : finishOf R r.credentialID <;> simp [Finished, hf]
  | finish =>
    have hf : r ∈ finishes R := mem_finishes.2 ⟨hr, ht⟩
    have hseq : (view R bytes o).finishBySequence r.recordClass r.sequence = some r :=
      finishBySequence_view h hf
    rw [hc] at hseq
    simp only [hseq]
  | init | rebuildBaseline | circuitReset | unknown => rfl

/-- What the loop has seen: the pending admissions, and the streak of the outcomes. -/
theorem foldl_loopStep (L : List Record) :
    let st := L.foldl (loopStep c R) {}
    st.pending = ((burns (classTail c L)).filter fun b => ¬ Finished R b.credentialID).map (⟨·, none⟩) ∧
    (st.streak, st.openedAt.nanos) = Streak.run Failing (·.recordedAt.nanos) (failureLimit c)
      (finishes (classTail c L)) := by
  induction L using List.reverseRecOn with
  | nil => exact ⟨rfl, rfl⟩
  | append_singleton L x ih =>
    simp only [foldl_append, foldl_cons, foldl_nil]
    set st := L.foldl (loopStep c R) {}
    obtain ⟨h1, h2⟩ := ih
    rw [classTail_concat]
    unfold loopStep
    by_cases hc : x.recordClass = c
    swap
    · simp only [hc, ne_eq, not_false_eq_true, if_true]
      exact ⟨h1, h2⟩
    simp only [hc, ne_eq, not_true, if_false]
    cases ht : x.type with
    | burnAndAdmit =>
      simp only [reduceCtorEq, if_false]
      constructor
      · by_cases hf : Finished R x.credentialID <;> simpa [burns, ht, hf] using h1
      · have hfin : finishes (classTail c L ++ [x]) = finishes (classTail c L) := by
          simp [finishes, ht]
        rw [hfin, ← h2]
        split <;> rfl
    | finish =>
      simp only [reduceCtorEq, if_false]
      have hfin : finishes (classTail c L ++ [x]) = finishes (classTail c L) ++ [x] := by
        simp [finishes, ht]
      have hbur : burns (classTail c L ++ [x]) = burns (classTail c L) := by simp [burns, ht]
      rw [hfin, hbur, Streak.run_concat, ← h2]
      have hF : Failing x ↔ x.reason ≠ .success := by simp [Failing, ht]
      by_cases hs : x.reason = .success <;> by_cases hz : st.openedAt.nanos = 0 <;>
        by_cases hk : failureLimit c ≤ st.streak + 1 <;> simp [hs, hz, hk, step, hF, h1]
    | circuitReset => exact ⟨rfl, rfl⟩
    | init | rebuildBaseline | unknown =>
      simp only [reduceCtorEq, if_false]
      simp [burns, finishes, ht] at h1 h2 ⊢
      exact ⟨h1, h2⟩

/-! ## The loop over the pending admissions -/

theorem foldl_pendingStep {s : Snapshot} (L : List Record) (hL : ∀ b ∈ L, b.type = .burnAndAdmit)
    (st : ℕ × Time) :
    let st' := (L.map (⟨·, none⟩)).foldl (s.pendingStep c) st
    (st'.1, st'.2.nanos) = (L.filter (Foreign s.ownerInstanceID)).foldl
      (step Failing (·.recordedAt.nanos) (failureLimit c)) (st.1, st.2.nanos) := by
  induction L generalizing st with
  | nil => rfl
  | cons b L ih =>
    have hF : Failing b := .inl (by simp [hL b (by simp)])
    simp only [map_cons, foldl_cons]
    rw [ih (fun x hx => hL x (by simp [hx]))]
    by_cases hf : s.ownerInstanceID ≠ "" ∧ b.ownerInstanceID = s.ownerInstanceID
    · have hfor : Foreign s.ownerInstanceID b = false := by simp [Foreign, hf]
      rw [filter_cons_of_neg (by simp [hfor])]
      simp [pendingStep, hf]
    · have hfor : Foreign s.ownerInstanceID b = true := by
        simp only [Foreign, Bool.or_eq_true, beq_iff_eq, bne_iff_ne]
        tauto
      rw [filter_cons_of_pos hfor, foldl_cons]
      congr 1
      by_cases hk : failureLimit c ≤ st.1 + 1 <;> by_cases hz : st.2.nanos = 0 <;>
        simp [pendingStep, hf, step, hF, hk, hz]

/-- **`failureState` is the latching streak of the class.** -/
theorem failureState_view (h : Chain R) :
    (((view R bytes o).failureState c).1, ((view R bytes o).failureState c).2.nanos) =
      circuit c R o := by
  have hlo : (view R bytes o).records.foldl ((view R bytes o).streakStep c) {} =
      R.foldl (loopStep c R) {} :=
    foldl_ext _ _ _ fun st r hr => streakStep_view h hr st
  obtain ⟨h1, h2⟩ := foldl_loopStep (c := c) (R := R) R
  unfold failureState
  simp only [hlo, h1]
  rw [foldl_pendingStep _ fun b hb => (mem_burns.1 (mem_of_mem_filter hb)).2]
  rw [circuit, Streak.run_append, outcomes, ← h2]
  rfl

theorem openedAt_eq (h : Chain R) : openedAt R o c = (circuit c R o).2 := by
  rw [← failureState_view h, openedAt]

/-! ## Facts of the circuit -/

theorem failureLimit_pos : 0 < Snapshot.failureLimit c := by
  unfold failureLimit
  split <;> simp [pairingAdmissionFailureLimit]

variable {b : Record}

theorem mem_pendingBurns (hb : b ∈ pendingBurns c R) :
    b ∈ burns R ∧ b.recordClass = c ∧ ¬ Finished R b.credentialID := by
  obtain ⟨h1, h2⟩ := mem_filter.1 hb
  obtain ⟨h3, h4⟩ := mem_burns.1 h1
  exact ⟨mem_burns.2 ⟨(mem_classTail h3).1, h4⟩, (mem_classTail h3).2, by simpa using h2⟩

theorem failing_of_pending (hb : b ∈ pendingBurns c R) : Failing b :=
  .inl (by simp [(mem_burns.1 (mem_pendingBurns hb).1).2])

theorem mem_circuit (hb : b ∈ outcomes c R ++ deadBurns c R o) : b ∈ R := by
  rcases mem_append.1 hb with hb | hb
  · exact (mem_classTail (mem_finishes.1 hb).1).1
  · exact (mem_burns.1 (mem_pendingBurns (mem_of_mem_filter hb)).1).1

/-- **The circuit is open iff a full streak of failures** stands in the outcomes followed by
the dead admissions. -/
theorem circuit_open_iff (hz : ∀ b ∈ R, b.recordedAt.nanos ≠ 0) : (circuit c R o).2 ≠ 0 ↔
    Streak.Full Failing (Snapshot.failureLimit c) (outcomes c R ++ deadBurns c R o) :=
  Streak.run_latched_iff failureLimit_pos fun b hb => hz b (mem_circuit hb)

/-- **An owner that counts more pending admissions sees the circuit open no later.** -/
theorem circuit_mono {o' : String} (h : Chain R) (hz : ∀ b ∈ R, b.recordedAt.nanos ≠ 0)
    (hsub : ∀ b ∈ pendingBurns c R, Foreign o b = true → Foreign o' b = true)
    (hop : (circuit c R o).2 ≠ 0) :
    (circuit c R o').2 ≠ 0 ∧ (circuit c R o').2 ≤ (circuit c R o).2 := by
  have hfil : deadBurns c R o = (deadBurns c R o').filter (Foreign o) := by
    unfold deadBurns
    rw [filter_filter]
    refine filter_congr fun b hb => ?_
    cases hf : Foreign o b with
    | false => rfl
    | true => simp [hsub b hb hf]
  have hmem : ∀ b ∈ deadBurns c R o', b ∈ pendingBurns c R := fun b hb => mem_of_mem_filter hb
  unfold circuit at hop ⊢
  rw [hfil] at hop ⊢
  refine Streak.run_filter_le _ (fun b hb => failing_of_pending (hmem b hb))
    (fun b hb => hz b (mem_burns.1 (mem_pendingBurns (hmem b hb)).1).1) ?_ hop
  have hsl : (deadBurns c R o').Sublist R :=
    filter_sublist.trans (filter_sublist.trans (filter_sublist.trans (classTail_sublist.trans
      filter_sublist)))
  exact h.mono.sublist hsl

end Winkyou
