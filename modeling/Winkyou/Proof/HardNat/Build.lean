import Winkyou.Proof.HardNat.Commitment
import Winkyou.Proof.HardNat.Discovery
import Winkyou.Proof.HardNat.Model

/-!
# A commitment that is built is accepted and rebuilt

* `slots_ok_iff`: the slots that are built pass the check, unless the slot of the reusable endpoint
  is beyond the socket budget.
* `reusable_slot_fits_iff`: that slot is the slot of every local transcript.
* `commitment_rebuilt_iff`: a commitment that is built is accepted and rebuilt from its compact form
  exactly if a target set has no local transcript with a slot beyond the budget, and the coverage
  text of an executable one fits the compact form.
-/

namespace Winkyou.HardNat

open Except (failIf bind_ok_iff failIf_ok_iff)
open List Except

variable {P : Primitives}
  {transcript : RFC5780Transcript}

/-! ## The slots that are built -/

variable {role : Role}

theorem validateRole_asymmetric (h : validateRole (.known .asymmetricBirthday) role = .ok ()) :
    role = .known .mappingSet ∨ role = .known .targetSet := by
  have h := failIf_ok_iff.1 h
  by_contra hne
  exact h (not_or.1 hne)

section Slots

variable {p : ProfileName} {r : ResourceName} {role : Role} {endpoint : AddressPort} {coverage : Bytes}
  {report : ProbabilityReport} {attemptDigest evidenceDigest validationDigest : Digest}
  {generation : UInt64} {slots : List SourceSlot} {ports : List UInt16} {endpointSlot : UInt16}

theorem sourceSlotsFor_target (ports : List UInt16) (endpointSlot : UInt16) {endpoint : AddressPort}
    (h : endpoint.valid = true) :
    sourceSlotsFor (.known .asymmetric) (.known .targetSet) ports endpointSlot endpoint =
      .ok [⟨endpointSlot, 0, endpoint.port⟩] := by
  simp [sourceSlotsFor, h]

/-- The receive endpoint is valid for a target set and absent for every other role. -/
theorem validateReceiveEndpoint_ok {profile : Profile} {endpoint : AddressPort}
    (h : validateReceiveEndpoint profile role endpoint = .ok ()) :
    (receiveEndpointRequired profile role = true → endpoint.valid = true) ∧
      (receiveEndpointRequired profile role = false → endpoint = .zero) := by
  simp only [validateReceiveEndpoint, bind_ok_iff, failIf_ok_iff, not_and, Bool.not_eq_false,
    not_not] at h
  obtain ⟨⟨⟩, hreq, hze⟩ := h
  exact ⟨hreq, hze⟩

section

variable (h : Made P p r role endpoint coverage ports.length report)
  (hsl : sourceSlotsFor (.known r) role ports endpointSlot endpoint = .ok slots) (hlen : r =
  .predictive → ports.length = predictiveWindowPorts)

include h hsl hlen

/-- **The slots that are built are valid**, if the slot of a reusable endpoint is within the
budget. -/
theorem slots_ok_iff (hno : ports.Nodup) :
    SlotsOK (makeCommitment P p r role endpoint ports.length report attemptDigest generation
      evidenceDigest
      validationDigest slots) r ↔ (r = .asymmetric → role = .known .targetSet →
        endpointSlot.toNat < 128) := by
  cases r with
  | predictive =>
    simp only [sourceSlotsFor, bind_ok_iff, failIf_ok_iff] at hsl
    obtain ⟨⟨⟩, hze, hsl⟩ := hsl
    cases hsl
    refine iff_of_true ⟨?_, fun item hit => ?_, fun _ => ?_⟩ (by simp)
    · exact (predictiveSlots_length ports).trans (hlen rfl)
    · obtain ⟨port, hpo, heq⟩ := mem_predictiveSlots_zipIdx hit
      rw [heq]
      exact ⟨rfl, rfl, fun hpo0 => hze (hpo0 ▸ hpo)⟩
    · exact (predictiveSlots_ports ports).symm ▸ hno
  | asymmetric =>
    obtain rfl : p = .asymmetricBirthday := by
      cases h.paired
      rfl
    rcases validateRole_asymmetric h.role_ok with rfl | rfl
    · cases (hsl : ok (numberedSlots 128) = .ok slots)
      refine iff_of_true ⟨numberedSlots_length 128, fun item hit => ?_, by simp⟩ (by simp)
      rw [mem_numberedSlots_zipIdx hit]
      refine ⟨rfl, fun _ => ⟨rfl, rfl⟩, fun hro => ?_⟩
      cases (hro : (Named.known RoleName.mappingSet : Role) = .known .targetSet)
    · have hne : (Named.known RoleName.targetSet : Role) ≠ .known .mappingSet := by decide
      rw [sourceSlotsFor_target ports endpointSlot ((validateReceiveEndpoint_ok h.endpoint_ok).1
        rfl)] at hsl
      cases hsl
      constructor
      · intro hok _ _
        have hva := hok.valid (⟨endpointSlot, 0, endpoint.port⟩, 0) (mem_singleton_self _)
        exact (hva.2.2 rfl).2
      · intro hfi
        refine ⟨rfl, fun item hit => ?_, by simp⟩
        have hit : item = (⟨endpointSlot, 0, endpoint.port⟩, 0) := mem_singleton.1 hit
        rw [hit]
        exact ⟨rfl, fun hro => absurd hro hne, fun _ => ⟨rfl, hfi rfl rfl⟩⟩
  | hard16KLab =>
    cases hsl
    refine iff_of_true ⟨numberedSlots_length 16, fun item hit => ?_, by simp⟩ (by simp)
    rw [mem_numberedSlots_zipIdx hit]
    exact ⟨rfl, rfl, rfl⟩
  | hard32KCandidate =>
    cases hsl
    refine iff_of_true ⟨numberedSlots_length 32, fun item hit => ?_, by simp⟩ (by simp)
    rw [mem_numberedSlots_zipIdx hit]
    exact ⟨rfl, rfl, rfl⟩

/-- The compact form names the ports and the slot that the slots were built from. -/
theorem compact_fields (hexecutable : (shapeOf r role ports.length).executable = true)
    {c : LocalSourceCommitment}
    (hc : makeCommitment P p r role endpoint ports.length report attemptDigest generation
      evidenceDigest validationDigest
      slots = c) :
    validateCompactFields (compactForm c) = .ok () ∧
      (r = .predictive → (compactForm c).predictedPorts.length = ports.length) ∧
      sourceSlotsFor (.known r) role (compactForm c).predictedPorts
        (compactForm c).receiveSocketSlot endpoint =
        .ok slots := by
  have hpro : (compactForm c).profile = .known p := hc ▸ rfl
  have hres : (compactForm c).resourceClass = .known r := hc ▸ rfl
  have hro : (compactForm c).role = role := hc ▸ rfl
  have hend : (compactForm c).receiveEndpoint = endpoint := hc ▸ rfl
  have hpo : (compactForm c).predictedPorts =
      if (.known r : ResourceClass) = .known .predictive then slots.map (·.expectedPublicSourcePort)
        else [] := hc ▸ rfl
  have hslot : (compactForm c).receiveSocketSlot =
      if (.known r : ResourceClass) = .known .asymmetric ∧ role = .known .targetSet then
        (slots.head?.map (·.socketSlot)).getD 0
      else 0 := hc ▸ rfl
  obtain ⟨hreq, hze⟩ := validateReceiveEndpoint_ok h.endpoint_ok
  unfold validateCompactFields
  rw [hpro, hres, hro, hend]
  cases r with
  | predictive =>
    obtain rfl : p = .predictiveEdm := by
      cases h.paired
      rfl
    have hsl' := hsl
    simp only [sourceSlotsFor, bind_ok_iff, failIf_ok_iff] at hsl'
    obtain ⟨⟨⟩, -, heq⟩ := hsl'
    cases heq
    rw [if_pos rfl, predictiveSlots_ports] at hpo
    rw [if_neg (by simp)] at hslot
    rw [hpo, hslot]
    refine ⟨failIf_ok_iff.2 ?_, fun _ => rfl, hsl⟩
    simp [hlen rfl, hze rfl]
  | asymmetric =>
    obtain rfl : p = .asymmetricBirthday := by
      cases h.paired
      rfl
    rw [if_neg (by decide)] at hpo
    rw [hpo]
    rcases validateRole_asymmetric h.role_ok with rfl | rfl
    · rw [if_neg (by decide)] at hslot
      rw [hslot]
      refine ⟨?_, by simp, hsl⟩
      rw [hze rfl]
      rfl
    · have hva : endpoint.valid = true := hreq rfl
      rw [sourceSlotsFor_target _ _ hva] at hsl ⊢
      cases hsl
      rw [if_pos ⟨rfl, rfl⟩] at hslot
      rw [hslot]
      refine ⟨?_, by simp, rfl⟩
      simp [failIf, hva]
  | hard16KLab =>
    obtain rfl : p = .hardBirthday := by
      cases h.paired
      rfl
    rw [if_neg (by decide)] at hpo
    rw [if_neg (by simp)] at hslot
    rw [hpo, hslot, hze rfl]
    exact ⟨rfl, by simp, hsl⟩
  | hard32KCandidate => cases hexecutable

end

end Slots

/-! ## The slot of the reusable endpoint -/

theorem mem_transactions {t : TransactionID} (h : t ∈ transcript.transactions) :
    ∃ i : Fin rfc5780ExchangeCount, (transcript.exchanges.get i).transactionID = t := by
  rw [← transcriptBindings_transactions] at h
  obtain ⟨b, hb, rfl⟩ := mem_map.1 h
  obtain ⟨i, rfl⟩ := mem_transcriptBindings.1 hb
  exact ⟨i, rfl⟩

/-- Transcripts that share a transaction were made on one socket: the manifest fixes it. -/
theorem slot_eq_of_shared {manifest : List IssuedTransaction} {a b : RFC5780Transcript}
    (ha : TranscriptOK manifest a) (hb : TranscriptOK manifest b) {t : TransactionID}
    (hta : t ∈ a.transactions) (htb : t ∈ b.transactions) : a.socketSlot = b.socketSlot := by
  have hsl : ∀ {tr : RFC5780Transcript}, TranscriptOK manifest tr → t ∈ tr.transactions →
      ∃ issued, issuedFor manifest t = some issued ∧ issued.socketSlot = tr.socketSlot := by
    intro tr htr ht
    obtain ⟨i, rfl⟩ := mem_transactions ht
    obtain ⟨issued, hfor, hma⟩ := htr.issued _ (mem_transcriptBindings.2 ⟨i, rfl⟩)
    simp only [Binding.matches, Bool.and_eq_true, beq_iff_eq] at hma
    exact ⟨issued, hfor, hma.1.1.1.2⟩
  obtain ⟨issued, hfor, heq⟩ := hsl ha hta
  obtain ⟨issued', hfor', heq'⟩ := hsl hb htb
  rw [hfor] at hfor'
  cases hfor'
  exact heq.symm.trans heq'

theorem derive_mapping_valid {derived : DerivedTranscript}
    (h : deriveRFC5780Transcript transcript = .ok derived) :
    MappingBehavior.valid derived.mapping = true := by
  simp only [deriveRFC5780Transcript, bind_ok_iff] at h
  obtain ⟨machine, -, ⟨mapping, filtering⟩, hres, hder⟩ := h
  cases hder
  simp only [RFC5780Machine.result, bind_ok_iff] at hres
  obtain ⟨_, -, hres⟩ := hres
  rw [← (Prod.ext_iff.1 (ok.inj hres)).1]
  dsimp only
  split
  · decide
  · split <;> decide

theorem derivedMeta_actionable {graph : EvidenceGraph} {trusted : TrustedValidationContext}
    {derived : DerivedTranscript} (hhea : validateTrustedHeader graph trusted = .ok ())
    (hman : ManifestOK trusted trusted.issued) (hok : TranscriptOK trusted.issued transcript)
    (hder : deriveRFC5780Transcript transcript = .ok derived) (k : Fin rfc5780ExchangeCount) :
    actionableMeta (derivedRFC5780Meta graph transcript (transcript.exchanges.get k)) graph = true := by
  obtain ⟨observation, hobs⟩ := derive_observes hder k
  obtain ⟨hadd, hpo⟩ := Bool.and_eq_true_iff.1 (observeExchange_ok hobs).2.1
  obtain ⟨issued, hfor, hma⟩ := hok.issued _ (mem_transcriptBindings.2 ⟨k, rfl⟩)
  obtain ⟨hmem, htra⟩ := issuedFor_some hfor
  have hva := hman.valid issued hmem
  simp only [validateTrustedHeader, bind_ok_iff, failIf_ok_iff, not_or, not_not] at hhea
  obtain ⟨⟨⟩, -, ⟨⟩, ⟨-, -, -, -, -, -, hsta, hfin, -⟩, -⟩ := hhea
  simp only [Binding.matches, Bool.and_eq_true, decide_eq_true_eq] at hma
  obtain ⟨⟨-, hnot⟩, hnotA⟩ := hma
  simp only [validIssuedTransaction, Bool.and_eq_true, Bool.not_eq_true', decide_eq_true_eq] at hva
  obtain ⟨⟨⟨⟨⟨⟨hnon, -⟩, -⟩, hbef⟩, haf⟩, -⟩, -⟩ := hva
  have htra : issued.transactionID = (transcript.exchanges.get k).transactionID := htra
  rw [htra] at hnon
  -- the manifest admits an observation only inside the window of the graph
  have hlow : graph.startedAtMilli ≤ (transcript.exchanges.get k).observedAtMilli :=
    hsta ▸ Int64.le_trans hbef hnot
  have hhi : (transcript.exchanges.get k).observedAtMilli ≤ graph.finishedAtMilli :=
    hfin ▸ Int64.le_trans hnotA haf
  have hsou : EvidenceSource.strength (.known .rfc5780) > 0 := by decide
  simp [actionableMeta, derivedRFC5780Meta, hadd, hnon, hlow, hhi, hsou]
  simpa using hpo

section Reusable

variable {sha256 : Bytes → Digest} {graph : EvidenceGraph} {trusted : TrustedValidationContext}
  {model : StateModel} (i : Inferred sha256 graph trusted model)

include i

theorem Inferred.derived_actionable {reading : Reading} (h : reading ∈ i.run.readings) :
    actionableMeta reading.mapping.md i.run.normalized = true := by
  obtain ⟨-, derived, hder, hre⟩ := i.run.readings_ok.kept reading h
  rw [hre]
  exact derivedMeta_actionable i.header i.manifest (i.run.readings_ok.out_ok h) hder ⟨2, by decide⟩

/-- **The slot of the reusable endpoint is the slot of every local transcript.** -/
theorem Inferred.reusable_slot_fits_iff (hmap : model.mapping = .known .eim)
    (hva : model.reusableEndpoint.valid = true) (bound : ℕ) :
    model.reusableEndpointSlot.toNat < bound ↔ ∀ tr ∈ graph.rfc5780, tr.isLocal →
      tr.socketSlot.toNat < bound := by
  have hend : i.endpoint.valid = true := by
    by_contra hinv
    rw [i.endpoint_eq, if_neg hinv] at hva
    exact absurd hva (by decide)
  rw [i.slot_eq, if_pos hend]
  obtain ⟨-, hoff, -, hno⟩ := reusable_ok_iff.1 i.reusable
  -- the mapping is endpoint independent, so every reading offers its endpoint
  have hsl : ∀ reading ∈ i.run.readings, reading.transcript.socketSlot = i.slot := by
    intro reading hrea
    obtain ⟨-, derived, hder, hre⟩ := i.run.readings_ok.kept reading hrea
    have hmem : reading.mapping ∈ i.run.normalized.mapping :=
      mem_append_right _ (mem_map.2 ⟨reading, hrea, rfl⟩)
    have hbeh : reading.mapping.behavior = derived.mapping := by
      rw [hre]
      rfl
    have heim : derived.mapping = .known .eim := by
      rw [← hmap, ← hbeh]
      exact (mergeMapping_agrees i.mapping hmem (i.derived_actionable hrea)
        (hbeh ▸ derive_mapping_valid hder)).symm
    have htr : reading.transcript ∈ i.run.normalized.rfc5780 := mem_map.2 ⟨reading, hrea, rfl⟩
    have := (hoff _ htr _ ⟨derived, hder, heim, rfl⟩).2
    exact (Prod.ext_iff.1 this).2.symm
  constructor
  · intro hfi tr htr hlo
    -- a repeated transcript shares its transactions with one that was read
    obtain ⟨hok, hite⟩ := i.run.readings_ok.ok tr htr hlo
    obtain ⟨item, hit⟩ := exists_mem_of_ne_nil _ ((transcriptRule graph trusted.issued).items_ne_nil tr)
    have ht : item.1 ∈ tr.transactions := mem_keys_transcript.1 (Dedup.mem_keys hit)
    rcases i.run.readings_ok.mem_cases (hite hit) with hmem | ⟨reading, hrea, hit'⟩
    · exact absurd (Dedup.mem_keys hmem) (i.run.transactions_fresh tr htr hlo _ ht)
    · have ht' : item.1 ∈ reading.transcript.transactions := mem_keys_transcript.1 (Dedup.mem_keys hit')
      have hsa := slot_eq_of_shared hok (i.run.readings_ok.out_ok hrea) ht ht'
      rwa [hsa.trans (hsl reading hrea)]
  · intro hall
    by_contra hbig
    have hem : i.run.readings = [] := by
      refine eq_nil_iff_forall_not_mem.2 fun reading hrea => hbig ?_
      rw [← hsl reading hrea]
      exact hall _ (i.run.readings_ok.mem_inputs hrea) (i.run.readings_ok.kept reading hrea).1
    have hze : (i.endpoint, i.slot) = (AddressPort.zero, 0) := by
      refine hno fun tr htr => ?_
      obtain ⟨reading, hrea, -⟩ := mem_map.1 htr
      rw [hem] at hrea
      cases hrea
    have hendp : i.endpoint = .zero := (Prod.ext_iff.1 hze).1
    rw [hendp] at hend
    exact absurd hend (by decide)

end Reusable

/-! ## Building and rebuilding -/

theorem validateModel_classified {p : ProfileName} {model : StateModel}
    (hro : validateRole (.known p) role = .ok ())
    (h : validateModelForProfile (.known p) role model = .ok ()) :
    MappingBehavior.classified model.mapping ∧
      (p = .predictiveEdm → model.predictedSourcePorts.length = predictiveWindowPorts) ∧
      (p = .asymmetricBirthday → role = .known .targetSet →
        model.mapping = .known .eim ∧ model.reusableEndpoint.valid = true) := by
  have hdep : MappingBehavior.endpointDependent model.mapping = true →
    MappingBehavior.classified model.mapping := by
    intro hd
    simp only [MappingBehavior.endpointDependent, Bool.or_eq_true, beq_iff_eq] at hd
    exact .inr hd
  simp only [validateModelForProfile, bind_ok_iff] at h
  obtain ⟨⟨⟩, -, h⟩ := h
  cases p with
  | predictiveEdm =>
    simp only [failIf_ok_iff, not_or, Bool.not_eq_false, not_not] at h
    exact ⟨hdep h.1, fun _ => h.2.2, by simp⟩
  | hardBirthday =>
    simp only [failIf_ok_iff, not_or, Bool.not_eq_false, not_not] at h
    exact ⟨hdep h.1, by simp, by simp⟩
  | asymmetricBirthday =>
    simp only [bind_ok_iff, failIf_ok_iff, not_and, not_or, Bool.not_eq_false, not_not] at h
    obtain ⟨⟨⟩, hmap, htar⟩ := h
    refine ⟨?_, by simp, fun _ => htar⟩
    rcases validateRole_asymmetric hro with rfl | rfl
    · exact hdep (hmap rfl)
    · exact .inl (htar rfl).1

/-- The planner accepts the commitment, and rebuilds it from its compact form if it is
executable. -/
def AcceptsAndRebuilds (P : Primitives) (c : LocalSourceCommitment) : Prop :=
  validateLocalCommitment P c = .ok () ∧ (c.executable = true →
    ∃ compact, compactSourceInputFor P c = .ok compact ∧ reconstructLocalCommitment P compact = .ok c)

/-- No local transcript of a target set was made on a socket beyond the budget. -/
def SlotsFit (input : LocalCommitmentInput) : Prop :=
  input.profile = .known .asymmetricBirthday → input.context.role = .known .targetSet →
    ∀ tr ∈ input.evidence.rfc5780, tr.isLocal → tr.socketSlot.toNat < 128

/-- The coverage text of the model, which prints its sample counts, fits the compact form. -/
def CoverageFits (P : Primitives) (input : LocalCommitmentInput) : Prop :=
  ∀ model, inferStateModel P.sha256 input.evidence input.validation = .ok model →
    model.coverage.length ≤ maxModelCoverageBytes

/-- **A commitment that is built is accepted and rebuilt, exactly if the slots and the coverage text
fit.** The text does when the normalization leaves less than a million allocation samples. -/
theorem commitment_rebuilt_iff (P : Primitives) (hsha : ∀ bytes, allZero (P.sha256 bytes) = false)
    (input : LocalCommitmentInput) (c : LocalSourceCommitment)
    (hbuild : buildLocalCommitment P input = .ok c) :
    (AcceptsAndRebuilds P c ↔ SlotsFit input ∧ (c.executable = true → CoverageFits P input)) ∧
      ∀ normalized digest, normalizeEvidence P.sha256 input.evidence input.validation =
        .ok (normalized, digest) →
        normalized.allocation.length < 10 ^ 6 → CoverageFits P input := by
  simp only [buildLocalCommitment, bind_ok_iff, failIf_ok_iff, not_or, Bool.not_eq_true,
    Bool.not_eq_false, not_not, shapeFor_ok_iff] at hbuild
  obtain ⟨⟨⟩, ⟨hgeneration, hattempt, -, -⟩, ⟨⟩, hrole, model, hmodel, ⟨⟩, hprofile, ⟨⟩, hendpoint, _,
    ⟨p, r, hp, hr, hpaired, rfl⟩, report, hreport, ⟨⟩, ⟨hadmitted, -⟩, slots, hslots, hc⟩ := hbuild
  obtain ⟨i⟩ := inferStateModel_inferred hmodel
  rw [hp] at hrole hprofile hendpoint
  rw [hr] at hreport hadmitted hslots
  simp only [hp] at hslots
  generalize hep : (if receiveEndpointRequired (.known p) input.context.role =
    true then model.reusableEndpoint
    else AddressPort.zero) = endpoint at hendpoint hslots
  obtain ⟨hclassified, hlength, htarget⟩ := validateModel_classified hrole hprofile
  have hmade : Made P p r input.context.role endpoint model.coverage
    model.predictedSourcePorts.length report :=
    ⟨hpaired, hrole, hendpoint, hreport, hadmitted⟩
  have hlength : r = .predictive → model.predictedSourcePorts.length = predictiveWindowPorts := by
    rintro rfl
    cases hpaired
    exact hlength rfl
  have hevidence : allZero model.evidenceDigest = false := by
    obtain ⟨bytes, h⟩ := i.evidenceDigest
    rw [h, hsha]
  have hvalidation : allZero model.validationDigest = false := by
    obtain ⟨bytes, h⟩ := i.validationDigest
    rw [h, hsha]
  have hmake : c = makeCommitment P p r input.context.role endpoint
    model.predictedSourcePorts.length report
      input.context.attemptDigest input.context.generation model.evidenceDigest
        model.validationDigest slots := by
    rw [hp, hr, hep] at hc
    exact (ok.inj hc).symm
  have hcount : r = .predictive → slots.length = model.predictedSourcePorts.length := by
    rintro rfl
    simp only [sourceSlotsFor, bind_ok_iff] at hslots
    obtain ⟨_, -, hslots⟩ := hslots
    cases hslots
    exact predictiveSlots_length _
  have hvalid_iff : validateLocalCommitment P c = .ok () ↔ SlotsFit input := by
    rw [hmake, makeCommitment_ok_iff hmade hcount hevidence hvalidation,
      slots_ok_iff hmade hslots hlength i.ports_distinct.2, SlotsFit, hp]
    have hpr : r = .asymmetric ↔ p = .asymmetricBirthday := by cases hpaired <;> simp
    rw [hpr, Named.known.injEq]
    refine forall_congr' fun hasym => ?_
    subst hasym
    refine forall_congr' fun htargetSet => ?_
    obtain ⟨heim, hvalid⟩ := htarget rfl htargetSet
    exact i.reusable_slot_fits_iff heim hvalid 128
  have hcoverage : CoverageFits P input ↔ model.coverage.length ≤ maxModelCoverageBytes :=
    ⟨fun h => h model hmodel, fun h m hm => ok.inj (hmodel.symm.trans hm) ▸ h⟩
  have hprinted : c.probability.modelCoverage = model.coverage := by
    rw [hmake]
    exact probabilityFor_coverage hreport
  refine ⟨⟨fun h => ⟨hvalid_iff.1 h.1, fun hexecutable => ?_⟩, fun ⟨hfit, hcov⟩ => ?_⟩,
    fun normalized digest hnor hfew => ?_⟩
  · -- the compact form was not refused for the length of its text
    obtain ⟨compact, hcompact, hre⟩ := h.2 hexecutable
    simp only [compactSourceInputFor, bind_ok_iff] at hcompact
    obtain ⟨⟨⟩, -, hcompact⟩ := hcompact
    cases hcompact
    simp only [reconstructLocalCommitment, bind_ok_iff, failIf_ok_iff, not_or] at hre
    obtain ⟨⟨⟩, ⟨-, -, -, -, -, hlen⟩, -⟩ := hre
    rw [hcoverage, ← hprinted]
    exact Nat.not_lt.1 hlen
  · have hvalid := hvalid_iff.2 hfit
    refine ⟨hvalid, fun hexecutable => ?_⟩
    refine ⟨compactForm c, bind_ok_iff.2 ⟨(), hvalid, rfl⟩, ?_⟩
    have hlen := hcoverage.1 (hcov hexecutable)
    subst hmake
    have hexec : (shapeOf r input.context.role model.predictedSourcePorts.length).executable =
      true := hexecutable
    obtain ⟨hfields, hports, hrebuilt⟩ := compact_fields hmade hslots hlength hexec rfl
    exact reconstructLocalCommitment_eq hmade rfl rfl rfl rfl hprinted hgeneration hattempt
      hevidence hvalidation ⟨i.coverage_ne_zero, hlen⟩ hfields hexec hports hrebuilt hvalid
  · obtain ⟨_, hrun⟩ := i.normalizes
    cases hnor.symm.trans hrun
    exact hcoverage.2 (i.coverage_length hclassified hfew)

/-! ## A target set -/

/-- The primary endpoint of the observer and its other address and port. -/
def observerPrimary : AddressPort := sampleTopology.primary
def observerOther : AddressPort := sampleTopology.other

def sampleMapped : AddressPort := ⟨samplePublic, 50000⟩

/-- The exchange of a step with the observer; `origin` is where the reply comes from, if there is
one. -/
def sampleExchange (index : ℕ) (step : StepName) (destination : AddressPort)
    (origin : Option AddressPort) : RFC5780Exchange where
  step := .known step
  transactionID := sampleTransaction (20 + index)
  requestDestination := destination
  responseSource := origin.getD .zero
  observedAtMilli := 1500
  received := origin.isSome
  request := ((buildBehaviorBindingRequest (sampleTransaction (20 + index))
    (expectedRFC5780Change step)).toOption).getD []
  response :=
    match origin with
    | none => []
    | some origin =>
      ((buildBehaviorBindingSuccess (sampleTransaction (20 + index))
        { mapped := sampleMapped, responseOrigin := origin, otherAddress := observerOther
          hasMapped := true, hasResponseOrigin := true, hasOtherAddress := true }).toOption).getD []

/-- A transcript of an endpoint independent mapping behind a strict filter, made on one socket. -/
def sampleTranscript (slot : UInt16) : RFC5780Transcript where
  origin := .known .localTransaction
  socketSlot := slot
  exchanges := #v[
    sampleExchange 0 .primary observerPrimary (some observerPrimary),
    sampleExchange 1 .sameAddressOtherPort ⟨observerPrimary.address, observerOther.port⟩
      (some ⟨observerPrimary.address, observerOther.port⟩),
    sampleExchange 2 .otherAddress ⟨observerOther.address, observerPrimary.port⟩
      (some ⟨observerOther.address, observerPrimary.port⟩),
        sampleExchange 3 .changeIPPort observerPrimary none,
    sampleExchange 4 .changePort observerPrimary none]

/-- The sample evidence with the transcript; the first allocation sample was made on the same
socket. -/
def targetGraph (slot : UInt16) : EvidenceGraph :=
  { sampleGraph with
    allocation := { sampleAllocation 0 with
      md := { (sampleAllocation 0).md with socketSlot := slot }, socketSlot :=
        slot } :: sampleGraph.allocation.tail
    rfc5780 := [sampleTranscript slot] }

def targetTrusted (slot : UInt16) : TrustedValidationContext :=
  { sampleTrusted with
    issued := { sampleIssued 0 with socketSlot := slot } :: sampleTrusted.issued.tail ++
      (transcriptBindings (sampleTranscript slot)).map fun b =>
        ⟨.known .rfc5780, b.transaction, b.source, b.observer, b.socketSlot, b.ordinal, 1000, 2000⟩ }

def targetInput (slot : UInt16) : LocalCommitmentInput where
  profile := .known .asymmetricBirthday
  resourceClass := .known .asymmetric
  context := ⟨sampleDigest, 1, .known .targetSet⟩
  evidence := targetGraph slot
  validation := targetTrusted slot
  budget := ⟨128, 512, 512, 512, 64, 13000⟩

theorem commitment_rebuilt_sample :
    ∃ c, buildLocalCommitment samplePrimitives (targetInput 7) = .ok c ∧
      SlotsFit (targetInput 7) ∧ CoverageFits samplePrimitives (targetInput 7) ∧
        AcceptsAndRebuilds samplePrimitives c := by
  obtain ⟨c, hc⟩ := exists_ok_of_isOk
    (by decide +kernel : (buildLocalCommitment samplePrimitives (targetInput 7)).isOk = true)
  have hsha : allZero (Vector.replicate 32 (7 : UInt8)) = false := by decide
  have hiff := commitment_rebuilt_iff samplePrimitives (fun _ => hsha) (targetInput 7) c hc
  have hslots : SlotsFit (targetInput 7) := by
    intro _ _ tr htr _
    rw [mem_singleton.1 htr]
    decide
  obtain ⟨⟨normalized, digest⟩, hnor⟩ := exists_ok_of_isOk (by decide +kernel :
    (normalizeEvidence samplePrimitives.sha256 (targetInput 7).evidence
      (targetInput 7).validation).isOk = true)
  obtain ⟨-, -, -, run, -, rfl⟩ := normalizeEvidence_run hnor
  have hfew : run.normalized.allocation.length ≤ 8 :=
    (length_map _).symm.le.trans run.allocation_ok.sublist.length_le
  have hcov := hiff.2 _ _ hnor (hfew.trans_lt (by decide))
  exact ⟨c, hc, hslots, hcov, hiff.1.2 ⟨hslots, fun _ => hcov⟩⟩

/-- **A commitment for a slot beyond the budget is built and then refused.** -/
theorem slot_beyond_budget_refused :
    (buildLocalCommitment samplePrimitives (targetInput 200)).isOk = true ∧
      (buildLocalCommitment samplePrimitives (targetInput 200) >>=
        validateLocalCommitment samplePrimitives) =
        .error .planMismatch := by
  decide +kernel

end Winkyou.HardNat
