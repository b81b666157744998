import Mathlib.Data.List.Dedup
import Mathlib.Data.List.Induction
import Mathlib.Data.List.Iterate
import Mathlib.Data.List.Perm.Subperm
import Winkyou.Proof.HardNat.Normalize

/-!
# What an inferred model says

* `merge_agrees`: merged entries all have the behaviour of the result.
* `schedule_distinct`: the ports of a predictive schedule are distinct and not zero.
* `Inferred`: where the fields of a model come from.
* `Inferred.coverage_length`: how long the coverage text can be.
-/

namespace Winkyou.HardNat

open Except (failIf bind_ok_iff failIf_ok_iff mapError_ok_iff)
open List Except

/-! ## Merging -/

section Merge

variable {α β : Type} [DecidableEq α] [DecidableEq β] {md : α → EvidenceMeta} {behavior : α → β}
  {valid : β → Bool} {graph : EvidenceGraph}

/-- What the loop keeps: the entries merged so far agree with the behaviour, which is valid. -/
structure Merged (md : α → EvidenceMeta) (behavior : α → β) (valid : β → Bool) (graph : EvidenceGraph)
    (entries : List α) (acc : List α × Option β × EvidenceSource) : Prop where
  seen : ∀ e ∈ acc.1, acc.2.1 = some (behavior e)
  agrees : ∀ e ∈ entries, actionableMeta (md e) graph = true → valid (behavior e) = true →
    acc.2.1 = some (behavior e)
  valid_of : ∀ b, acc.2.1 = some b → valid b = true

theorem mergeStep_merged {entries : List α} {entry : α}
    {acc acc' : List α × Option β × EvidenceSource} (h : Merged md behavior valid graph entries acc)
    (hst : mergeStep md behavior valid graph acc entry = .ok acc') :
    Merged md behavior valid graph (entries ++ [entry]) acc' := by
  unfold mergeStep at hst
  split at hst
  · rename_i hsk
    cases hst
    refine ⟨h.seen, forall_mem_append.2 ⟨h.agrees, forall_mem_singleton.2 fun hact hval => ?_⟩,
      h.valid_of⟩
    rw [hact, hval] at hsk
    simp at hsk
  rename_i hsk
  split at hst
  · rename_i previous hfi
    split at hst <;> cases hst
    rename_i heq
    refine ⟨h.seen, forall_mem_append.2 ⟨h.agrees, forall_mem_singleton.2 fun _ _ => ?_⟩, h.valid_of⟩
    rw [← heq]
    exact h.seen previous (mem_of_find?_eq_some hfi)
  · split at hst <;> cases hst
    rename_i hag
    -- the behaviour was open or the same
    have hsa : ∀ b, acc.2.1 = some b → some b = some (behavior entry) := by
      intro b hb
      by_contra hne
      exact hag ⟨by rw [hb]; rfl, by rw [hb]; exact hne⟩
    refine ⟨?_, ?_, fun b hb => ?_⟩
    · exact forall_mem_cons.2 ⟨rfl, fun e he => (hsa _ (h.seen e he)).symm⟩
    · rw [forall_mem_append, forall_mem_singleton]
      exact ⟨fun e he hact hval => (hsa _ (h.agrees e he hact hval)).symm, fun _ _ => rfl⟩
    · cases hb
      by_contra hinv
      exact hsk (.inr (Bool.not_eq_true _ ▸ hinv))

/-- **Merged entries agree.** -/
theorem merge_agrees {entries : List α} {acc : List α × Option β × EvidenceSource}
    (h : entries.foldlM (mergeStep md behavior valid graph) ([], none, .none) = .ok acc) :
    Merged md behavior valid graph entries acc := by
  induction entries using reverseRecOn generalizing acc with
  | nil =>
    cases h
    exact ⟨by simp, by simp, by simp⟩
  | append_singleton entries entry ih =>
    obtain ⟨mid, hbef, hla⟩ := foldlM_concat_ok_iff.1 h
    exact mergeStep_merged (ih hbef) hla

end Merge

variable {graph : EvidenceGraph} {port : UInt16}

theorem mergeMapping_agrees {mapping : MappingBehavior} {source : EvidenceSource}
    (h : mergeMapping graph = .ok (mapping, source)) {e : MappingEvidence} (he : e ∈ graph.mapping)
    (hact : actionableMeta e.md graph = true) (hva : MappingBehavior.valid e.behavior = true) :
    mapping = e.behavior := by
  unfold mergeMapping at h
  simp only [bind_ok_iff] at h
  obtain ⟨⟨_, behavior, _⟩, hfo, hres⟩ := h
  have hsor : e ∈ sortBy encodeMappingEvidence graph.mapping := (perm_insertionSort _ _).mem_iff.2 he
  have hbeh : behavior = some e.behavior := (merge_agrees hfo).agrees e hsor hact hva
  cases hres
  rw [hbeh, Option.getD_some]

theorem mergeFiltering_known {filtering : FilteringBehavior} {source : EvidenceSource}
    (h : mergeFiltering graph = .ok (filtering, source)) : ∃ k, filtering = .known k := by
  unfold mergeFiltering at h
  simp only [bind_ok_iff] at h
  obtain ⟨⟨_, behavior, _⟩, hfo, hres⟩ := h
  cases hres
  cases behavior with
  | none => exact ⟨.unknown, rfl⟩
  | some b =>
    have hva : FilteringBehavior.valid b = true := (merge_agrees hfo).valid_of b rfl
    cases b with
    | known k => exact ⟨k, rfl⟩
    | other t ht => simp [FilteringBehavior.valid] at hva

/-! ## Predicted ports -/

theorem addPort_toNat {delta : UInt16} (h : port ≠ 0) :
    (addPort port delta).toNat = (port.toNat - 1 + delta.toNat) % 65535 + 1 := by
  have hpos : 0 < port.toNat := Nat.pos_of_ne_zero fun hze => h (UInt16.toNat_inj.1 hze)
  have hpo := port.toNat_lt
  have hde := delta.toNat_lt
  unfold addPort
  simp only [UInt32.toNat_toUInt16, UInt32.toNat_add, UInt32.toNat_mod, UInt32.toNat_sub,
    UInt16.toNat_toUInt32]
  have hone : (1 : UInt32).toNat = 1 := rfl
  have hmod : (65535 : UInt32).toNat = 65535 := rfl
  rw [hone, hmod]
  omega

theorem addPort_ne_zero {delta : UInt16} (h : port ≠ 0) : addPort port delta ≠ 0 := by
  intro hze
  have hnat : (addPort port delta).toNat = (port.toNat - 1 + delta.toNat) % 65535 + 1 := addPort_toNat h
  rw [hze] at hnat
  exact absurd hnat (by simp)

theorem iterate_addPort {step : UInt16} (h : port ≠ 0) (m : ℕ) :
    (addPort · step)^[m] port ≠ 0 ∧
      ((addPort · step)^[m] port).toNat = (port.toNat - 1 + m * step.toNat) % 65535 + 1 := by
  induction m with
  | zero =>
    refine ⟨h, ?_⟩
    have hpos : 0 < port.toNat := Nat.pos_of_ne_zero fun hze => h (UInt16.toNat_inj.1 hze)
    have hpo := port.toNat_lt
    rw [Function.iterate_zero, id_eq, Nat.zero_mul, Nat.add_zero, Nat.mod_eq_of_lt (by omega)]
    omega
  | succ m ih =>
    rw [Function.iterate_succ_apply']
    refine ⟨addPort_ne_zero ih.1, ?_⟩
    rw [addPort_toNat ih.1, ih.2, Nat.add_sub_cancel, Nat.mod_add_mod, Nat.succ_mul, Nat.add_assoc]

/-- **The ports of a schedule with a small step are distinct and not zero.** -/
theorem schedule_distinct {last step : UInt16} (hstep : step.toNat ≤ 32) :
    0 ∉ predictiveSourceSchedule last step ∧ (predictiveSourceSchedule last step).Nodup := by
  unfold predictiveSourceSchedule
  split
  · simp
  rename_i h
  obtain ⟨hla, hpos⟩ := not_or.1 h
  have hst : addPort last step ≠ 0 := addPort_ne_zero hla
  constructor
  · intro hmem
    obtain ⟨m, -, heq⟩ := mem_iterate.1 hmem
    exact (iterate_addPort hst m).1 heq.symm
  · rw [← range_map_iterate]
    refine List.Nodup.map_on (fun m hm m' hm' heq => ?_) nodup_range
    have hnat := congrArg UInt16.toNat heq
    simp only [(iterate_addPort hst _).2] at hnat
    have hm : m < 32 := mem_range.1 hm
    have hm' : m' < 32 := mem_range.1 hm'
    have hste : 0 < step.toNat := Nat.pos_of_ne_zero fun hze => hpos (UInt16.toNat_inj.1 hze)
    -- the whole schedule is shorter than the cycle of ports
    have hbo : ∀ k < 32, k * step.toNat < 1024 := by
      intro k hk
      calc k * step.toNat ≤ 31 * 32 := Nat.mul_le_mul (by omega) hstep
        _ < 1024 := by decide
    have h1 := hbo m hm
    have h2 := hbo m' hm'
    generalize hb : (addPort last step).toNat - 1 = b at hnat
    have hmul : m * step.toNat = m' * step.toNat := by omega
    exact Nat.eq_of_mul_eq_mul_right hste hmul

theorem le_foldl_max {l : List UInt16} {a : UInt16} : ∀ x ∈ l, x.toNat ≤ (l.foldl max a).toNat := by
  induction l using reverseRecOn with
  | nil => simp
  | append_singleton l y ih =>
    have hmax : (l ++ [y]).foldl max a = if l.foldl max a ≤ y then y else l.foldl max a :=
      foldl_concat ..
    rw [forall_mem_append, forall_mem_singleton, hmax]
    split
    · rename_i h
      exact ⟨fun x hx => (ih x hx).trans (UInt16.le_iff_toNat_le.1 h), le_rfl⟩
    · rename_i h
      rw [UInt16.le_iff_toNat_le, not_le] at h
      exact ⟨ih, h.le⟩

/-- A class that predicts ports has a small step. -/
theorem classifyAllocation_step {samples : List AllocationSample}
    (h : (classifyAllocation samples).behavior = .sequentialUniform ∨
      (classifyAllocation samples).behavior = .monotonicNonuniform) :
    (classifyAllocation samples).predictedStep.toNat ≤ 32 := by
  unfold classifyAllocation at h ⊢
  split at h
  · simp at h
  rename_i hlen
  rw [if_neg hlen]
  dsimp only at h ⊢
  have hmax : (portDeltas samples).foldl max 0 ≤ maxMonotonicDelta := by
    split at h
    · rename_i hc
      exact hc.2
    · split at h
      · rename_i hc
        exact hc.1
      · simp at h
  have hmax : ((portDeltas samples).foldl max 0).toNat ≤ 32 := UInt16.le_iff_toNat_le.1 hmax
  generalize hi : ((portDeltas samples).insertionSort (· ≤ ·)).length / 2 = i
  rw [getD_eq_getElem?_getD]
  cases hget : ((portDeltas samples).insertionSort (· ≤ ·))[i]? with
  | none => simp
  | some x =>
    have hx : x ∈ portDeltas samples := (perm_insertionSort _ _).mem_iff.1 (mem_of_getElem? hget)
    exact (le_foldl_max x hx).trans hmax

/-! ## The fields of a model -/

/-- Where the fields of an inferred model come from. -/
structure Inferred (sha256 : Bytes → Digest) (graph : EvidenceGraph)
    (trusted : TrustedValidationContext) (model : StateModel) where
  run : NormalRun graph trusted.issued
  endpoint : AddressPort
  slot : UInt16
  samples : List AllocationSample
  header : validateTrustedHeader graph trusted = .ok ()
  manifest : ManifestOK trusted trusted.issued
  mapping : mergeMapping run.normalized = .ok (model.mapping, model.mappingSource)
  filtering : mergeFiltering run.normalized = .ok (model.filtering, model.filteringSource)
  reusable : reusableRFC5780Endpoint run.normalized.rfc5780 = .ok (endpoint, slot)
  suffix : continuousSuccessfulAllocationSuffix run.normalized.allocation = .ok (samples,
    model.failedSamples)
  endpoint_eq : model.reusableEndpoint = if endpoint.valid then endpoint else .zero
  slot_eq : model.reusableEndpointSlot = if endpoint.valid then slot else 0
  successes : model.successfulSamples = samples.length
  observers : model.observerAddressCount = (observerCoverage samples).1
  allocation : model.allocation = (classifyAllocation samples).behavior
  ports : model.predictedSourcePorts =
    if model.allocation = .sequentialUniform ∨ model.allocation = .monotonicNonuniform then
      predictiveSourceSchedule ((samples.map (·.mappedPort)).getLastD 0)
        (classifyAllocation samples).predictedStep
    else []
  residual : model.residualUniverse ≤ 65535
  limitation : model.allocationLimitation.length ≤ 56
  coverage : model.coverage = coverageString model
  evidenceDigest : ∃ input, model.evidenceDigest = sha256 input
  validationDigest : ∃ input, model.validationDigest = sha256 input
  normalizes : ∃ digest, normalizeEvidence sha256 graph trusted = .ok (run.normalized, digest)

theorem withAllocation_allocation (base : StateModel) (samples : List AllocationSample) :
    (withAllocation base samples).allocation = (classifyAllocation samples).behavior := by
  simp only [withAllocation]
  split <;> rfl

/-- The ports, the residual and the limitation that `withAllocation` fills in. -/
theorem withAllocation_fields (base : StateModel) (samples : List AllocationSample)
    (hpo : base.predictedSourcePorts = []) :
    (withAllocation base samples).predictedSourcePorts =
      (if (withAllocation base samples).allocation = .sequentialUniform ∨
          (withAllocation base samples).allocation = .monotonicNonuniform then
        predictiveSourceSchedule ((samples.map (·.mappedPort)).getLastD 0)
          (classifyAllocation samples).predictedStep
      else []) ∧
    (withAllocation base samples).residualUniverse ≤ 65535 ∧
    (withAllocation base samples).allocationLimitation.length ≤ 56 := by
  rw [withAllocation_allocation]
  by_cases h : (classifyAllocation samples).behavior = .sequentialUniform ∨
      (classifyAllocation samples).behavior = .monotonicNonuniform
  · have hlen : (predictiveSourceSchedule ((samples.map (·.mappedPort)).getLastD 0)
        (classifyAllocation samples).predictedStep).length ≤ 65535 := by
      unfold predictiveSourceSchedule
      split
      · simp
      · rw [length_iterate]
        decide
    have hte : (text "short_window_only;competing_allocations_unbounded").length ≤
      56 := by decide +kernel
    simp only [withAllocation, if_pos h]
    exact ⟨trivial, hlen, hte⟩
  · have hte : (text "samples_do_not_bound_future_allocator;full_range_unknown").length ≤
      56 := by decide +kernel
    simp only [withAllocation, if_neg h]
    exact ⟨hpo, le_refl _, hte⟩

/-- The fields that `withAllocation` does not write. -/
theorem withAllocation_frame (base : StateModel) (samples : List AllocationSample) :
    ∃ a mi ma n r l p, withAllocation base samples = { base with
      allocation := a, minimumDelta := mi, maximumDelta := ma, predictedNextPort :=
        n, residualUniverse := r,
      allocationLimitation := l, predictedSourcePorts := p } := by
  simp only [withAllocation]
  split
  · exact ⟨_, _, _, _, _, _, _, rfl⟩
  · exact ⟨_, _, _, _, _, _, _, rfl⟩

/-- What is merged and measured before the allocator is classified. -/
structure Measured (normalized : EvidenceGraph) (validationDigest evidenceDigest : Digest)
    (base : StateModel)
    (samples : List AllocationSample) (endpoint : AddressPort) (slot : UInt16) : Prop where
  mapping : mergeMapping normalized = .ok (base.mapping, base.mappingSource)
  filtering : mergeFiltering normalized = .ok (base.filtering, base.filteringSource)
  reusable : reusableRFC5780Endpoint normalized.rfc5780 = .ok (endpoint, slot)
  suffix : continuousSuccessfulAllocationSuffix normalized.allocation = .ok (samples,
    base.failedSamples)
  endpoint_eq : base.reusableEndpoint = if endpoint.valid then endpoint else .zero
  slot_eq : base.reusableEndpointSlot = if endpoint.valid then slot else 0
  successes : base.successfulSamples = samples.length
  observers : base.observerAddressCount = (observerCoverage samples).1
  ports : base.predictedSourcePorts = []
  evidence : base.evidenceDigest = evidenceDigest
  validation : base.validationDigest = validationDigest

theorem inferNormalized_ok {normalized : EvidenceGraph} {validationDigest evidenceDigest : Digest}
    {model : StateModel}
    (h : inferNormalized normalized validationDigest evidenceDigest = .ok model) :
    ∃ base samples endpoint slot, Measured normalized validationDigest evidenceDigest base samples
      endpoint slot ∧
      model = { withAllocation base samples with coverage := coverageString (withAllocation base
        samples) } := by
  simp only [inferNormalized, bind_ok_iff, mapError_ok_iff] at h
  obtain ⟨⟨mapping, mappingSource⟩, hmap, ⟨filtering, filteringSource⟩, hfil, ⟨endpoint, slot⟩,
    hreu, ⟨samples, failed⟩, hsuf, _, -, _, -, _, -, stable, -, _, -, hres⟩ := h
  exact ⟨_, samples, endpoint, slot, ⟨hmap, hfil, hreu, hsuf, rfl, rfl, rfl, rfl, rfl, rfl, rfl⟩,
    (ok.inj hres).symm⟩

theorem inferStateModel_inferred {sha256 : Bytes → Digest} {trusted : TrustedValidationContext}
    {model : StateModel} (h : inferStateModel sha256 graph trusted = .ok model) :
    Nonempty (Inferred sha256 graph trusted model) := by
  unfold inferStateModel at h
  simp only [bind_ok_iff] at h
  obtain ⟨⟨normalized, validation⟩, hnor, evidence, hevid, inferred, hinf, hmo⟩ := h
  obtain ⟨hhea, hvali, hman, run, -, rfl⟩ := normalizeEvidence_run hnor
  obtain ⟨base, samples, endpoint, slot, hba, rfl⟩ := inferNormalized_ok hinf
  have hval : ∃ input, validation = sha256 input := by
    simp only [digestValidationContext, bind_ok_iff] at hvali
    obtain ⟨_, -, heq⟩ := hvali
    exact ⟨_, (ok.inj heq).symm⟩
  have hevi : ∃ input, evidence = sha256 input := by
    simp only [digestValidatedEvidence, bind_ok_iff] at hevid
    obtain ⟨_, -, heq⟩ := hevid
    exact ⟨_, (ok.inj heq).symm⟩
  cases hmo
  have hall := withAllocation_allocation base samples
  obtain ⟨hpo, hres, hlim⟩ := withAllocation_fields base samples hba.ports
  obtain ⟨a, mi, ma, n, r, l, p, hfr⟩ := withAllocation_frame base samples
  rw [hfr] at hall hpo hres hlim ⊢
  exact ⟨⟨run, endpoint, slot, samples, hhea, hman, hba.mapping, hba.filtering, hba.reusable,
    hba.suffix,
    hba.endpoint_eq, hba.slot_eq, hba.successes, hba.observers, hall, hpo, hres, hlim, rfl,
    hba.evidence ▸ hevi, hba.validation ▸ hval, _, hnor⟩⟩

/-! ## The coverage text -/

/-- The suffix consists of samples with increasing ordinals. -/
theorem suffixAt_spec (entries : List AllocationSample) (ordinal : ℕ) :
    (suffixAt entries ordinal).Nodup ∧ ∀ s ∈ suffixAt entries ordinal, s ∈ entries ∧
      s.ordinal.toNat ≤ ordinal := by
  fun_induction suffixAt entries ordinal with
  | case1 | case4 => simp
  | case2 entry _ hfi =>
    have hord : entry.ordinal.toNat = 0 := by simpa using find?_some hfi
    simp [mem_of_find?_eq_some hfi, hord]
  | case3 entry _ below hfi ih =>
    have hord : entry.ordinal.toNat = below + 1 := by simpa using find?_some hfi
    rw [forall_mem_append, forall_mem_singleton]
    refine ⟨nodup_append.2 ⟨ih.1, nodup_singleton _, fun s hs s' hs' heq => ?_⟩, fun s hs => ?_, ?_⟩
    · -- the earlier samples have smaller ordinals
      have := (ih.2 s hs).2
      rw [heq, mem_singleton.1 hs'] at this
      omega
    · exact ⟨(ih.2 s hs).1, (ih.2 s hs).2.trans (Nat.le_succ _)⟩
    · exact ⟨mem_of_find?_eq_some hfi, hord.le⟩

theorem allocationSuffix_length {entries samples : List AllocationSample} {failed : ℕ}
    (h : continuousSuccessfulAllocationSuffix entries = .ok (samples, failed)) :
    samples.length ≤ entries.length ∧ failed ≤ entries.length := by
  simp only [continuousSuccessfulAllocationSuffix, bind_ok_iff, failIf_ok_iff] at h
  obtain ⟨byOrdinal, hbyO, ⟨⟩, -, ⟨⟩, -, ⟨⟩, -, hres⟩ := h
  obtain ⟨rfl, -⟩ := addByOrdinal_ok_iff.1 hbyO
  cases hres
  refine ⟨?_, countP_le_length⟩
  have hsp := suffixAt_spec byOrdinal ((byOrdinal.map (·.ordinal.toNat)).foldl max 0)
  exact (hsp.1.subperm fun s hs => (hsp.2 s hs).1).length_le

theorem formatUint_length {n k : ℕ} (hk : 0 < k) (h : n < 10 ^ k) :
    (text (formatUint n)).length ≤ k := by
  have hdig : (Nat.toDigits 10 n).length ≤ k := (Nat.length_toDigits_le_iff (by decide) hk).2 h
  have hone : ∀ cs : List Char, (∀ c ∈ cs, c.isDigit = true) → (utf8 cs).length = cs.length := by
    intro cs hcs
    have hc : ∀ c ∈ cs, (String.utf8EncodeChar c).length = 1 := by
      intro c hmem
      have hdi := hcs c hmem
      simp only [Char.isDigit, Bool.and_eq_true, decide_eq_true_eq] at hdi
      rw [String.length_utf8EncodeChar]
      exact Char.utf8Size_eq_one_iff.2 (UInt32.le_trans hdi.2 (by decide))
    rw [utf8, length_flatMap, map_congr_left hc]
    simp
  have hte : text (formatUint n) = utf8 (Nat.toDigits 10 n) := by
    rw [text, formatUint, String.toList_ofList]
  rw [hte, hone _ fun c hc => Nat.isDigit_of_mem_toDigits (by decide) (by decide) hc]
  exact hdig

/-- The classes that a mapping can be known to have. -/
def MappingBehavior.classified (mapping : MappingBehavior) : Prop :=
  mapping = .known .eim ∨ mapping = .known .adm ∨ mapping = .known .apdm

namespace Inferred

variable {sha256 : Bytes → Digest} {graph : EvidenceGraph} {trusted : TrustedValidationContext}
  {model : StateModel} (i : Inferred sha256 graph trusted model)

include i

theorem counts_le : model.successfulSamples ≤ i.run.normalized.allocation.length ∧
    model.failedSamples ≤ i.run.normalized.allocation.length ∧
    model.observerAddressCount ≤ i.run.normalized.allocation.length := by
  obtain ⟨hsam, hfai⟩ := allocationSuffix_length i.suffix
  have hobs : model.observerAddressCount ≤ i.samples.length := by
    rw [i.observers]
    exact (dedup_sublist _).length_le.trans (length_map _).le
  rw [i.successes]
  exact ⟨hsam, hfai, hobs.trans hsam⟩

theorem coverage_ne_zero : model.coverage.length ≠ 0 := by
  have hlabel : (text "local_successes=").length = 16 := by decide +kernel
  rw [i.coverage]
  simp only [coverageString, length_append]
  omega

/-- **The coverage text fits the compact form**, unless there are a million normalized samples. -/
theorem coverage_length (hmap : MappingBehavior.classified model.mapping)
    (hsm : i.run.normalized.allocation.length < 10 ^ 6) : model.coverage.length ≤ 256 := by
  obtain ⟨hsuc, hfai, hobs⟩ := i.counts_le
  have h1 : (text (formatUint model.successfulSamples)).length ≤ 6 :=
    formatUint_length (by decide) (by omega)
  have h2 : (text (formatUint model.failedSamples)).length ≤ 6 :=
    formatUint_length (by decide) (by omega)
  have h3 : (text (formatUint model.observerAddressCount)).length ≤ 6 :=
    formatUint_length (by decide) (by omega)
  have h4 : (text (formatUint model.residualUniverse)).length ≤ 5 :=
    formatUint_length (by decide) (lt_of_le_of_lt i.residual (by decide))
  have h5 : (text (if model.hasAlternatePort then "true" else "false")).length ≤ 5 := by
    cases model.hasAlternatePort <;> decide +kernel
  have h6 : model.mapping.text.length ≤ 4 := by
    rcases hmap with h | h | h <;> rw [h] <;> decide +kernel
  have h7 : model.filtering.text.length ≤ 17 := by
    obtain ⟨k, hk⟩ := mergeFiltering_known i.filtering
    rw [hk]
    cases k <;> decide +kernel
  have h8 : (text model.allocation.text).length ≤ 20 := by
    cases model.allocation <;> decide +kernel
  have h9 := i.limitation
  have hfix : (text "local_successes=").length + (text ";local_failures=").length + (text
    ";observer_addresses=").length +
      (text ";alternate_port=").length + (text ";mapping=").length + (text ";filtering=").length +
      (text ";allocation=").length + (text ";residual_universe=").length + (text
        ";limitation=").length = 131 := by
    decide +kernel
  rw [i.coverage]
  simp only [coverageString, length_append]
  omega

/-- **Predicted ports are distinct and not zero.** -/
theorem ports_distinct : 0 ∉ model.predictedSourcePorts ∧ model.predictedSourcePorts.Nodup := by
  rw [i.ports]
  split
  · rename_i h
    rw [i.allocation] at h
    exact schedule_distinct (classifyAllocation_step h)
  · simp

end Inferred

end Winkyou.HardNat
