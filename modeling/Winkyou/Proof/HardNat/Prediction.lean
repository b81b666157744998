import Winkyou.Proof.HardNat.Model

/-!
# The prediction continues the allocator

* `prediction_continues`: from the samples of an allocator with a fixed step, in any order, the
  inference finds the step, and the schedule holds the ports that come next.
* `early_observation_rejected`: not so when a sample was observed before one with a lower ordinal.
-/

namespace Winkyou.HardNat

open List
open Except (bind_ok_iff failIf_ok_iff)

/-- The ports of an allocator that goes from a first one by a step in the cycle 1..65535. -/
def allocated (start step k : ℕ) : ℕ := (start - 1 + k * step) % 65535 + 1

/-- The samples of successive allocations, in the order of their ordinals. -/
structure Sequential (start step : UInt16) (first : ℕ) (samples : List AllocationSample) : Prop where
  ordinal : ∀ i (h : i < samples.length), samples[i].ordinal.toNat = first + i
  port : ∀ i (h : i < samples.length), samples[i].mappedPort.toNat = allocated start.toNat step.toNat i
  success : ∀ s ∈ samples, s.success = true ∧ s.mappedAddress.valid = true

theorem forwardPortDelta_toNat {p q : UInt16} : (forwardPortDelta p q).toNat =
    if p.toNat < q.toNat then q.toNat - p.toNat else 65535 - p.toNat + q.toNat := by
  have hp := p.toNat_lt
  unfold forwardPortDelta
  simp only [gt_iff_lt, UInt16.lt_iff_toNat_lt]
  split_ifs with h
  · exact UInt16.toNat_sub_of_le _ _ (UInt16.le_iff_toNat_le.2 h.le)
  · exact Nat.mod_eq_of_lt (by omega)

theorem foldl_replicate {α : Type} {f : α → α → α} {a b : α} (h : f b a = a) (h' : f a a = a)
    (n : ℕ) : (replicate (n + 1) a).foldl f b = a := by
  rw [replicate_succ, foldl_cons, h]
  induction n with
  | zero => rfl
  | succ n ih => rw [replicate_succ, foldl_cons, h', ih]

namespace Sequential

variable {start step : UInt16} {first : ℕ} {samples : List AllocationSample}
  (hs : Sequential start step first samples) (hlen : minSuccessfulAllocationSamples ≤ samples.length)

include hs

theorem find (i : ℕ) (hi : i < samples.length) :
    samples.find? (fun e => decide (e.ordinal.toNat = first + i)) = some samples[i] := by
  rw [find?_eq_some_iff_getElem]
  refine ⟨by simp [hs.ordinal i hi], i, hi, rfl, fun j hj => ?_⟩
  rw [hs.ordinal j (hj.trans hi)]
  simp
  omega

theorem usable (i : ℕ) (hi : i < samples.length) : samples[i].usable = true := by
  have hport : samples[i].mappedPort ≠ 0 := fun h => by simpa [h, allocated] using hs.port i hi
  simp [AllocationSample.usable, hs.success _ (getElem_mem hi), hport]

/-- **The suffix at an ordinal** is what was allocated up to it. -/
theorem suffixAt_eq (i : ℕ) (hi : i < samples.length) :
    suffixAt samples (first + i) = samples.take (i + 1) := by
  induction i with
  | zero =>
    -- below the first ordinal there is no sample
    have hlow : ∀ low < first, suffixAt samples low = [] := by
      intro low hlow
      have hnone : samples.find? (fun e => decide (e.ordinal.toNat = low)) = none := by
        refine find?_eq_none.2 fun e he => ?_
        obtain ⟨i, hi, rfl⟩ := getElem_of_mem he
        have := hs.ordinal i hi
        simp
        omega
      rw [suffixAt.eq_def, hnone]
    rw [suffixAt.eq_def, hs.find 0 hi]
    simp only [hs.usable 0 hi, if_true]
    cases first <;> simp [take_one, head?_eq_getElem?, hi, hlow]
  | succ i ih =>
    have hfind := hs.find (i + 1) hi
    rw [← Nat.add_assoc] at hfind ⊢
    rw [suffixAt.eq_def, hfind]
    simp only [hs.usable (i + 1) hi, if_true]
    rw [ih (by omega), take_add_one (i := i + 1)]
    simp [hi]

include hlen

/-- **The suffix that is found**, in whatever order the samples arrive: all of them, when none was
observed before one with a lower ordinal, and otherwise an error. -/
theorem suffix {arrivals : List AllocationSample} (hperm : arrivals.Perm samples) :
    continuousSuccessfulAllocationSuffix arrivals =
      if samples.IsChain (·.md.observedAtMilli ≤ ·.md.observedAtMilli) then .ok (samples, 0)
      else .error .evidenceInsufficient := by
  have hlen' : 8 ≤ samples.length := hlen
  have hne : samples ≠ [] := ne_nil_of_length_pos (by omega)
  have hno : (arrivals.map (·.ordinal)).Nodup := by
    refine (hperm.map _).nodup_iff.2 (pairwise_iff_getElem.2 fun i j hi hj hij heq => ?_)
    rw [length_map] at hi hj
    have hord := congrArg UInt32.toNat heq
    rw [getElem_map, getElem_map, hs.ordinal i hi, hs.ordinal j hj] at hord
    omega
  -- the search begins at the last ordinal
  have hmax : (arrivals.map (·.ordinal.toNat)).foldl max 0 = first + (samples.length - 1) := by
    rw [(hperm.map _).foldl_eq 0]
    refine le_antisymm (List.foldlRecOn (motive := (· ≤ first + (samples.length - 1))) _ _
      (Nat.zero_le _) ?_) ?_
    · intro b hb o ho
      obtain ⟨s, hmem, rfl⟩ := mem_map.1 ho
      obtain ⟨i, hi, rfl⟩ := getElem_of_mem hmem
      have := hs.ordinal i hi
      exact max_le hb (by omega)
    · rw [← hs.ordinal (samples.length - 1) (by omega), ← getLast_eq_getElem hne]
      conv_rhs => rw [← dropLast_append_getLast hne, map_append, foldl_append]
      exact le_max_right _ _
  have hsuf : suffixAt arrivals (first + (samples.length - 1)) = samples := by
    rw [← suffixAt_perm hno hperm, hs.suffixAt_eq _ (by omega), Nat.sub_add_cancel (by omega),
      take_length]
  have hchain : (samples.IsChain fun previous next : AllocationSample => previous.ordinal + 1 =
    next.ordinal ∧
      previous.md.observedAtMilli ≤ next.md.observedAtMilli) ↔
      samples.IsChain (·.md.observedAtMilli ≤ ·.md.observedAtMilli) := by
    simp only [isChain_iff_getElem]
    refine forall₂_congr fun i hi => and_iff_right (UInt32.toNat_inj.1 ?_)
    have hnext := hs.ordinal (i + 1) hi
    have hlt := samples[i + 1].ordinal.toNat_lt
    have hone : (1 : UInt32).toNat = 1 := rfl
    rw [UInt32.toNat_add, hs.ordinal i (by omega)]
    omega
  have hfailed : arrivals.countP (!·.success) = 0 :=
    countP_eq_zero.2 fun s hmem => by simp [(hs.success s (hperm.mem_iff.1 hmem)).1]
  have hfold := addByOrdinal_ok_iff.2 ⟨rfl, hno⟩
  have hpos : arrivals.length ≠ 0 := by
    rw [hperm.length_eq]
    omega
  simp only [continuousSuccessfulAllocationSuffix, hfold, hmax, hsuf, hchain, hfailed, bind,
    Except.bind, Except.failIf, hpos, not_lt.2 hlen, if_false, ite_not]
  split_ifs <;> rfl

variable (h1 : 1 ≤ step.toNat) (h32 : step.toNat ≤ 32)

include h1 h32

/-- **The step is found.** -/
theorem classified : (classifyAllocation samples).behavior = .sequentialUniform ∧
    (classifyAllocation samples).predictedStep = step := by
  obtain ⟨n, hn⟩ : ∃ n, samples.length - 1 = n + 1 := by
    have : 8 ≤ samples.length := hlen
    exact ⟨samples.length - 2, by omega⟩
  have hdel : portDeltas samples = replicate (n + 1) step := by
    refine ext_getElem (by simp [portDeltas]; omega) fun i _ hi => ?_
    rw [length_replicate] at hi
    simp only [portDeltas, getElem_zipWith, getElem_tail, getElem_map, getElem_replicate]
    apply UInt16.toNat_inj.1
    rw [forwardPortDelta_toNat, hs.port i (by omega), hs.port (i + 1) (by omega), allocated,
      allocated, Nat.succ_mul, ← Nat.add_assoc]
    -- one step in the cycle: with or without a turn
    generalize start.toNat - 1 + i * step.toNat = a
    split_ifs <;> omega
  have hmin : (replicate (n + 1) step).foldl min 65535 = step := by
    refine foldl_replicate ?_ ?_ n
    · refine if_neg fun h => ?_
      have hle : 65535 ≤ step.toNat := UInt16.le_iff_toNat_le.1 h
      omega
    · exact ite_self _
  have hmax : (replicate (n + 1) step).foldl max 0 = step := by
    refine foldl_replicate ?_ ?_ n
    · exact if_pos (UInt16.le_iff_toNat_le.2 (Nat.zero_le _))
    · exact ite_self _
  have hsort : (replicate (n + 1) step).insertionSort (· ≤ ·) = replicate (n + 1) step :=
    perm_replicate.1 (perm_insertionSort _ _)
  rw [classifyAllocation, if_neg (not_lt.2 hlen)]
  simp only [hdel, hmin, hmax, hsort, length_replicate]
  -- all deltas are the step, so their median is
  refine ⟨if_pos ⟨trivial, UInt16.le_iff_toNat_le.2 h32⟩, ?_⟩
  rw [getD_eq_getElem?_getD, getElem?_replicate, if_pos (by omega)]
  rfl

/-- **The schedule goes on** where the samples end. -/
theorem schedule :
    (predictiveSourceSchedule ((samples.map (·.mappedPort)).getLastD 0) step).map UInt16.toNat =
    (range predictiveWindowPorts).map fun k =>
      allocated start.toNat step.toNat (samples.length + k) := by
  obtain ⟨n, hn⟩ : ∃ n, samples.length = n + 1 := by
    have : 8 ≤ samples.length := hlen
    exact ⟨samples.length - 1, by omega⟩
  have hlast : UInt16.toNat ((samples.map (·.mappedPort)).getLastD 0) =
    allocated start.toNat step.toNat n := by
    rw [getLastD_eq_getLast?, getLast?_map, getLast?_eq_getElem?, hn, Nat.add_sub_cancel,
      getElem?_eq_getElem (by omega)]
    exact hs.port _ _
  generalize (samples.map fun s => s.mappedPort).getLastD 0 = last at hlast ⊢
  have hla : last ≠ 0 := by
    rintro rfl
    simp [allocated] at hlast
  have hze : step ≠ 0 := by
    rintro rfl
    simp at h1
  rw [predictiveSourceSchedule, if_neg (by simp [hla, hze]), ← range_map_iterate, map_map]
  refine map_congr_left fun k _ => ?_
  rw [Function.comp_apply, (iterate_addPort (addPort_ne_zero hla) k).2, addPort_toNat hla, hlast,
    hn, allocated, allocated, Nat.add_mul, Nat.add_mul]
  simp only [Nat.add_sub_cancel, Nat.mod_add_mod, Nat.one_mul, Nat.add_assoc]

end Sequential

/-- **The prediction continues the allocator**, when no sample was observed before one with a lower
ordinal; otherwise the samples are rejected, in whatever order they arrive. -/
theorem prediction_continues :
    (∀ p q : UInt16, p ≠ 0 → q ≠ 0 → addPort p (forwardPortDelta p q) = q) ∧
    ∀ {start step : UInt16} {first : ℕ} {samples arrivals : List AllocationSample}, 1 ≤ step.toNat →
      step.toNat ≤ 32 →
      minSuccessfulAllocationSamples ≤ samples.length → Sequential start step first samples →
        arrivals.Perm samples →
      continuousSuccessfulAllocationSuffix arrivals =
        (if samples.IsChain (·.md.observedAtMilli ≤ ·.md.observedAtMilli) then .ok (samples, 0)
        else .error .evidenceInsufficient) ∧
      (classifyAllocation samples).behavior = .sequentialUniform ∧
        (classifyAllocation samples).predictedStep = step ∧
      let ports := predictiveSourceSchedule ((samples.map (·.mappedPort)).getLastD 0) step
      ports.map UInt16.toNat =
        (range predictiveWindowPorts).map (fun k =>
          allocated start.toNat step.toNat (samples.length + k)) ∧
      0 ∉ ports ∧ ports.Nodup := by
  refine ⟨fun p q hp hq => ?_, fun h1 h32 hlen hs hperm => ?_⟩
  · have hp' := p.toNat_lt
    have hq' := q.toNat_lt
    have hp0 : p.toNat ≠ 0 := fun h => hp (UInt16.toNat_inj.1 h)
    have hq0 : q.toNat ≠ 0 := fun h => hq (UInt16.toNat_inj.1 h)
    apply UInt16.toNat_inj.1
    rw [addPort_toNat hp, forwardPortDelta_toNat]
    split_ifs <;> omega
  · obtain ⟨hbeh, hstep⟩ := hs.classified hlen h1 h32
    exact ⟨hs.suffix hlen hperm, hbeh, hstep, hs.schedule hlen h1 h32, schedule_distinct h32⟩

theorem sampleAllocation_sequential : Sequential 50000 1 0 ((range 8).map sampleAllocation) :=
  ⟨by decide +kernel, by decide +kernel, by decide +kernel⟩

/-- Eight samples that arrive in the reverse order. -/
theorem prediction_continues_sample :
    continuousSuccessfulAllocationSuffix ((range 8).map sampleAllocation).reverse =
      .ok ((range 8).map sampleAllocation, 0) ∧
    (classifyAllocation ((range 8).map sampleAllocation)).behavior = .sequentialUniform := by
  obtain ⟨hsuffix, hbehavior, -⟩ := prediction_continues.2 (by decide) (by decide) (by decide)
    sampleAllocation_sequential (reverse_perm _)
  exact ⟨hsuffix.trans (if_pos (by decide +kernel)), hbehavior⟩

/-- **A sample that was observed early** makes the samples useless. -/
theorem early_observation_rejected : ∃ samples, Sequential 50000 1 0 samples ∧ samples.length = 8 ∧
    continuousSuccessfulAllocationSuffix samples = .error .evidenceInsufficient := by
  let first := sampleAllocation 0
  refine ⟨{ first with md := { first.md with observedAtMilli := 2000 } } :: (range' 1 7).map
    sampleAllocation, ?_, rfl,
    by decide +kernel⟩
  exact ⟨by decide +kernel, by decide +kernel, by decide +kernel⟩

end Winkyou.HardNat
