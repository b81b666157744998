import Winkyou.Spec.HardNat.Planner

/-!
# Peer reports do not steer the local plan

* `normalizeEvidence_localPart`: normalization reads the header of a graph and its entries that are
  not remote reports.
* `remote_reports_ignored`: two graphs that differ only in remote reports give the same state model,
  apart from the raw digest, and the same local commitment.
-/

namespace Winkyou.HardNat

open List

/-- The graph without its remote reports. -/
def EvidenceGraph.localPart (graph : EvidenceGraph) : EvidenceGraph :=
  { graph with
    mapping := graph.mapping.filter fun entry => decide (entry.md.origin ≠ .known .remoteReport)
    filtering := graph.filtering.filter fun entry => decide (entry.md.origin ≠ .known .remoteReport)
    ipPooling := graph.ipPooling.filter fun entry => decide (entry.md.origin ≠ .known .remoteReport)
    allocation := graph.allocation.filter fun entry => decide (entry.md.origin ≠ .known .remoteReport)
    rfc5780 := graph.rfc5780.filter fun transcript =>
      decide (transcript.origin ≠ .known .remoteReport) }

theorem foldlM_filter {ε σ α : Type} {f : σ → α → Except ε σ} {p : α → Bool}
    (hsk : ∀ s a, p a = false → f s a = .ok s) (l : List α) (s : σ) :
    (l.filter p).foldlM f s = l.foldlM f s := by
  rw [List.foldlM_filter]
  congr 1
  funext s a
  split
  · rfl
  · exact (hsk s a (Bool.not_eq_true _ ▸ ‹_›)).symm

variable {graph graph' : EvidenceGraph} {manifest : List IssuedTransaction}

theorem acceptEntries_local {α : Type} (k : EntryKind α) (entries : List α) (seen : Seen) :
    acceptEntries k graph manifest (entries.filter fun entry =>
      decide ((k.md entry).origin ≠ .known .remoteReport))
      seen = acceptEntries k graph manifest entries seen := by
  refine foldlM_filter (fun acc entry hrem => ?_) entries _
  exact if_pos (not_not.1 (of_decide_eq_false hrem))

theorem acceptTranscripts_local (transcripts : List RFC5780Transcript) (acc : List Reading × Seen) :
    (transcripts.filter fun transcript => decide (transcript.origin ≠ .known .remoteReport)).foldlM
      (acceptTranscript graph manifest) acc = transcripts.foldlM (acceptTranscript graph manifest)
        acc := by
  refine foldlM_filter (fun acc transcript hrem => ?_) transcripts _
  exact if_pos (not_not.1 (of_decide_eq_false hrem))

/-- **Normalization does not read remote reports.** -/
theorem normalizeEvidence_localPart (sha256 : Bytes → Digest) (graph : EvidenceGraph)
    (trusted : TrustedValidationContext) :
    normalizeEvidence sha256 graph.localPart trusted = normalizeEvidence sha256 graph trusted := by
  -- the header is the same, so only the five loops differ
  have hmap manifest seen : acceptEntries mappingEntries graph.localPart manifest
    graph.localPart.mapping seen =
      acceptEntries mappingEntries graph manifest graph.mapping seen := acceptEntries_local _ _ _
  have hfil manifest seen : acceptEntries filteringEntries graph.localPart manifest
    graph.localPart.filtering seen =
      acceptEntries filteringEntries graph manifest graph.filtering seen := acceptEntries_local _ _ _
  have hpoo manifest seen : acceptEntries ipPoolingEntries graph.localPart manifest
    graph.localPart.ipPooling seen =
      acceptEntries ipPoolingEntries graph manifest graph.ipPooling seen := acceptEntries_local _ _ _
  have hall manifest seen : acceptEntries allocationEntries graph.localPart manifest
    graph.localPart.allocation seen =
      acceptEntries allocationEntries graph manifest graph.allocation seen := acceptEntries_local _ _ _
  have htra manifest acc : graph.localPart.rfc5780.foldlM (acceptTranscript graph.localPart
    manifest) acc =
      graph.rfc5780.foldlM (acceptTranscript graph manifest) acc := acceptTranscripts_local _ _
  unfold normalizeEvidence
  simp only [hmap, hfil, hpoo, hall, htra]
  rfl

/-- What a model says apart from the digest of the raw graph. -/
def StateModel.withoutRaw (model : StateModel) : StateModel :=
  { model with rawEvidenceDigest := Vector.replicate 32 0 }

theorem inferStateModel_localPart (sha256 : Bytes → Digest) (trusted : TrustedValidationContext)
    (h : graph.localPart = graph'.localPart) :
    (inferStateModel sha256 graph trusted).map StateModel.withoutRaw =
      (inferStateModel sha256 graph' trusted).map StateModel.withoutRaw := by
  have hnor : normalizeEvidence sha256 graph trusted = normalizeEvidence sha256 graph' trusted := by
    rw [← normalizeEvidence_localPart, h, normalizeEvidence_localPart]
  unfold inferStateModel
  rw [hnor]
  rcases normalizeEvidence sha256 graph' trusted with e | ⟨normalized, validationDigest⟩
  · rfl
  cases hdig : digestValidatedEvidence sha256 normalized validationDigest with
  | error e => simp only [bind, Except.bind, hdig]
  | ok evidenceDigest =>
    simp only [bind, Except.bind, hdig]
    cases inferNormalized normalized validationDigest evidenceDigest <;> rfl

theorem map_bind_eq {α β : Type} {f : α → α} {k : α → Except Err β} (hk : ∀ a, k (f a) = k a)
    (x : Except Err α) :
    (x.map f >>= k) = (x >>= k) := by
  cases x with
  | error e => rfl
  | ok a => exact hk a

theorem buildLocalCommitment_localPart (P : Primitives) (input : LocalCommitmentInput)
    (h : graph.localPart = graph'.localPart) :
    buildLocalCommitment P { input with evidence := graph } =
      buildLocalCommitment P { input with evidence := graph' } := by
  have hatt : graph.attemptDigest = graph'.attemptDigest := (congrArg (·.attemptDigest) h :)
  have hgen : graph.generation = graph'.generation := (congrArg (·.generation) h :)
  unfold buildLocalCommitment
  simp only [hatt, hgen]
  refine congrArg _ (funext fun _ => congrArg _ (funext fun _ => ?_))
  -- what follows reads the model apart from its raw digest
  refine Eq.trans (map_bind_eq (f := StateModel.withoutRaw) ?_ _).symm
    (Eq.trans ?_ (map_bind_eq (f := StateModel.withoutRaw) ?_ _))
  · exact fun _ => rfl
  · rw [inferStateModel_localPart P.sha256 input.validation h]
  · exact fun _ => rfl

/-- **Peer-reported evidence cannot steer the local plan.** -/
theorem remote_reports_ignored (P : Primitives) (graph graph' : EvidenceGraph)
    (h : graph.localPart = graph'.localPart) :
    (∀ trusted, (inferStateModel P.sha256 graph trusted).map StateModel.withoutRaw =
      (inferStateModel P.sha256 graph' trusted).map StateModel.withoutRaw) ∧
    ∀ input : LocalCommitmentInput, buildLocalCommitment P { input with evidence := graph } =
      buildLocalCommitment P { input with evidence := graph' } :=
  ⟨fun trusted => inferStateModel_localPart P.sha256 trusted h,
    fun input => buildLocalCommitment_localPart P input h⟩

/-! ## A sample attempt -/

/-- A hash and arithmetic that are enough to run the planner. -/
def samplePrimitives : Primitives where
  sha256 _ := Vector.replicate 32 7
  hmac _ _ := Vector.replicate 32 255
  collision _ _ _ := ([], [], 900000000000, [])
  poisson _ _ _ := []
  delta _ _ := .ok []
  draws _ _ _ bound hbound := by
    refine ⟨0, by decide, ?_⟩
    have hlt : prpThreshold bound < 2 ^ 64 := by
      unfold prpThreshold
      have hmod := Nat.mod_le (2 ^ 64 - bound) bound
      omega
    have hmax : uint64 ((Vector.replicate 32 (255 : UInt8)).toList.take 8) = 2 ^
      64 - 1 := by decide +kernel
    rw [hmax]
    omega

def sampleDigest : Digest := Vector.replicate 32 1

def sampleTransaction (n : ℕ) : TransactionID := Vector.replicate 12 (UInt8.ofNat n)

/-- The observer of the sample with a slot: two addresses with two ports each. -/
def sampleObserver (slot : ℕ) : AddressPort :=
  ⟨.ofIPv4 #v[192, 0, 2, if slot % 4 < 2 then 1 else 2], if slot % 2 = 0 then 3478 else 3479⟩

def samplePublic : Address := .ofIPv4 #v[203, 0, 113, 9]

/-- The allocation sample with an ordinal; the allocator counts up. -/
def sampleAllocation (ordinal : ℕ) : AllocationSample where
  md := ⟨.known .localTomography, .known .localTransaction, (sampleObserver ordinal).address,
    (sampleObserver ordinal).port,
    UInt16.ofNat ordinal, sampleTransaction (ordinal + 1), sampleDigest, 1, 1000⟩
  socketSlot := UInt16.ofNat ordinal
  ordinal := UInt32.ofNat ordinal
  mappedAddress := samplePublic
  mappedPort := UInt16.ofNat (50000 + ordinal)
  success := true

def sampleIssued (ordinal : ℕ) : IssuedTransaction :=
  ⟨.known .allocation, sampleTransaction (ordinal + 1), .known .localTomography,
    sampleObserver ordinal, UInt16.ofNat ordinal, UInt32.ofNat ordinal, 1000, 2000⟩

def sampleGraph : EvidenceGraph where
  attemptDigest := sampleDigest
  machineScopeDigest := sampleDigest
  peerDigest := sampleDigest
  observationSetDigest := sampleDigest
  socketOwnerDigest := sampleDigest
  generation := 1
  startedAtMilli := 1000
  finishedAtMilli := 2000
  expiresAtMilli := 3000
  mapping := []
  filtering := []
  ipPooling := []
  allocation := (List.range 8).map sampleAllocation
  rfc5780 := []

def sampleTrusted : TrustedValidationContext where
  nowMilli := 2000
  expectedAttemptDigest := sampleDigest
  expectedMachineScopeDigest := sampleDigest
  expectedPeerDigest := sampleDigest
  expectedObservationSetDigest := sampleDigest
  expectedSocketOwnerDigest := sampleDigest
  expectedGeneration := 1
  expectedStartedAtMilli := 1000
  expectedFinishedAtMilli := 2000
  expectedExpiresAtMilli := 3000
  issued := (List.range 8).map sampleIssued

/-- A peer reports another mapping class and another mapped address. -/
def reportedGraph : EvidenceGraph :=
  let report : EvidenceMeta := { (sampleAllocation 0).md with origin := .known .remoteReport }
  { sampleGraph with
    mapping := [⟨report, .known .eim⟩]
    allocation := { sampleAllocation 0 with md := report, mappedPort := 1 } :: sampleGraph.allocation }

theorem remote_reports_ignored_sample :
    (inferStateModel samplePrimitives.sha256 reportedGraph sampleTrusted).map StateModel.withoutRaw =
        (inferStateModel samplePrimitives.sha256 sampleGraph sampleTrusted).map StateModel.withoutRaw ∧
      (inferStateModel samplePrimitives.sha256 sampleGraph sampleTrusted).isOk = true :=
  ⟨(remote_reports_ignored samplePrimitives reportedGraph sampleGraph (by decide +kernel)).1
    sampleTrusted,
    by decide +kernel⟩

end Winkyou.HardNat
