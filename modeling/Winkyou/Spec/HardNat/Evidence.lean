import Winkyou.Spec.HardNat.Behavior

/-!
# Evidence inference (`hardnatplan/validation.go`, `evidence.go`)

`normalizeEvidence` binds every local entry to the issued manifest and drops repeated entries;
`inferStateModel` merges what is left into the state model of the local NAT. The partial model
that the source returns beside an error is left out.
-/

namespace Winkyou.HardNat

open Except (failIf)

def minSuccessfulAllocationSamples : ℕ := 8
def predictiveWindowPorts : ℕ := 32
def maxMonotonicDelta : UInt16 := 32
def maxMonotonicDeltaSpread : ℕ := 4
def maxEvidenceWindowMillis : Int64 := 5000
def maxEvidenceAgeMillis : Int64 := 5000

/-! ## The trusted context -/

/-- The header of a graph is complete, and its times are in order. -/
def validGraphHeader (graph : EvidenceGraph) : Bool :=
  !allZero graph.attemptDigest && !allZero graph.machineScopeDigest && !allZero graph.peerDigest &&
    !allZero graph.observationSetDigest && !allZero graph.socketOwnerDigest && graph.generation > 0 &&
    graph.startedAtMilli > 0 && graph.startedAtMilli ≤ graph.finishedAtMilli &&
    graph.finishedAtMilli < graph.expiresAtMilli

def validateTrustedHeader (graph : EvidenceGraph) (trusted : TrustedValidationContext) :
    Except Err Unit := do
  failIf (validGraphHeader graph = false ∨ trusted.nowMilli ≤ 0 ∨
    allZero trusted.expectedAttemptDigest = true ∨
    allZero trusted.expectedMachineScopeDigest = true ∨ allZero trusted.expectedPeerDigest = true ∨
    allZero trusted.expectedObservationSetDigest = true ∨
      allZero trusted.expectedSocketOwnerDigest = true ∨
    trusted.expectedGeneration = 0) .invalidEvidence
  failIf (graph.attemptDigest ≠ trusted.expectedAttemptDigest ∨
    graph.machineScopeDigest ≠ trusted.expectedMachineScopeDigest ∨
    graph.peerDigest ≠ trusted.expectedPeerDigest ∨
    graph.observationSetDigest ≠ trusted.expectedObservationSetDigest ∨
    graph.socketOwnerDigest ≠ trusted.expectedSocketOwnerDigest ∨
      graph.generation ≠ trusted.expectedGeneration ∨
    graph.startedAtMilli ≠ trusted.expectedStartedAtMilli ∨
      graph.finishedAtMilli ≠ trusted.expectedFinishedAtMilli ∨
    graph.expiresAtMilli ≠ trusted.expectedExpiresAtMilli) .invalidEvidence
  failIf (graph.finishedAtMilli - graph.startedAtMilli > maxEvidenceWindowMillis ∨
    trusted.nowMilli < graph.finishedAtMilli ∨ trusted.nowMilli - graph.finishedAtMilli >
      maxEvidenceAgeMillis ∨
    trusted.nowMilli ≥ graph.expiresAtMilli ∨ graph.expiresAtMilli - graph.finishedAtMilli >
      maxEvidenceAgeMillis)
    .evidenceInsufficient

def validIssuedTransaction (issued : IssuedTransaction) (trusted : TrustedValidationContext) :
    Bool :=
  !allZero issued.transactionID && issued.source.strength != 0 && issued.observer.valid &&
    issued.notBeforeMilli ≥ trusted.expectedStartedAtMilli && issued.notAfterMilli ≤
      trusted.expectedFinishedAtMilli &&
    issued.notBeforeMilli ≤ issued.notAfterMilli &&
    match issued.kind with
    | .known .mapping | .known .filtering | .known .ipPooling => issued.ordinal == 0
    | .known .allocation => true
    | .known .rfc5780 => issued.source == .known .rfc5780 && issued.ordinal.toNat < rfc5780ExchangeCount
    | .other _ _ => false

section Digests

variable (sha256 : Bytes → Digest)

/-- `DigestValidationContext`; the evaluation time is not part of it. -/
def digestValidationContext (trusted : TrustedValidationContext) : Except Err Digest := do
  failIf (trusted.nowMilli ≤ 0 ∨ trusted.issued.length = 0) .invalidEvidence
  return sha256 (text "winkyou-hardnat-validation-v1\x00" ++ trusted.expectedAttemptDigest.toList ++
    trusted.expectedMachineScopeDigest.toList ++ trusted.expectedPeerDigest.toList ++
    trusted.expectedObservationSetDigest.toList ++ trusted.expectedSocketOwnerDigest.toList ++
    appendUint64 trusted.expectedGeneration ++ appendInt64 trusted.expectedStartedAtMilli ++
    appendInt64 trusted.expectedFinishedAtMilli ++ appendInt64 trusted.expectedExpiresAtMilli ++
    appendRecords (trusted.issued.map encodeIssuedTransaction))

/-- The records that a graph digest is taken over, before they are sorted. -/
def evidenceRecords (graph : EvidenceGraph) : List Bytes :=
  graph.mapping.map encodeMappingEvidence ++ graph.filtering.map encodeFilteringEvidence ++
    graph.ipPooling.map encodeIPPoolingEvidence ++ graph.allocation.map encodeAllocationSample ++
    graph.rfc5780.map encodeRFC5780Transcript

def digestEvidence (graph : EvidenceGraph) : Digest :=
  sha256 (text "winkyou-hardnat-evidence-v1\x00" ++ graph.attemptDigest.toList ++
    graph.machineScopeDigest.toList ++
    graph.peerDigest.toList ++ graph.observationSetDigest.toList ++ graph.socketOwnerDigest.toList ++
    appendUint64 graph.generation ++ appendInt64 graph.startedAtMilli ++
      appendInt64 graph.finishedAtMilli ++
    appendInt64 graph.expiresAtMilli ++ appendRecords (evidenceRecords graph))

def digestValidatedEvidence (graph : EvidenceGraph) (validationDigest : Digest) :
    Except Err Digest := do
  failIf (allZero validationDigest = true) .emptyValidationDigest
  return sha256 (text "winkyou-hardnat-actionable-evidence-v1\x00" ++ validationDigest.toList ++
    (digestEvidence sha256 graph).toList)

end Digests

/-! ## Binding entries to the manifest -/

def addIssued (trusted : TrustedValidationContext) (manifest : List IssuedTransaction)
    (issued : IssuedTransaction) :
    Except Err (List IssuedTransaction) := do
  failIf (issued.transactionID ∈ manifest.map (·.transactionID) ∨
    validIssuedTransaction issued trusted = false) .invalidEvidence
  return manifest ++ [issued]

/-- The arguments of `acceptBound`. -/
structure Binding where
  kind : KindName
  transaction : TransactionID
  source : EvidenceSource
  observer : AddressPort
  socketSlot : UInt16
  ordinal : UInt32
  observedAtMilli : Int64
  record : Bytes
  deriving DecidableEq

/-- The record accepted for each transaction. -/
abbrev Seen := List (TransactionID × Bytes)

def issuedFor (manifest : List IssuedTransaction) (transaction : TransactionID) :
    Option IssuedTransaction :=
  manifest.find? fun issued => decide (issued.transactionID = transaction)

/-- The manifest entry agrees with what was observed. -/
def Binding.matches (b : Binding) (issued : IssuedTransaction) : Bool :=
  issued.kind == .known b.kind && issued.source == b.source && issued.observer == b.observer &&
    issued.socketSlot == b.socketSlot && issued.ordinal == b.ordinal && issued.notBeforeMilli ≤
      b.observedAtMilli &&
    b.observedAtMilli ≤ issued.notAfterMilli

/-- `acceptBound`: whether the transaction was accepted before, with the same record. -/
def acceptBound (manifest : List IssuedTransaction) (seen : Seen) (b : Binding) :
    Except Err (Bool × Seen) :=
  match issuedFor manifest b.transaction with
  | none => .error .invalidEvidence
  | some issued =>
    if b.matches issued = false then .error .invalidEvidence
    else
      match seen.lookup b.transaction with
      | some previous => if previous = b.record then .ok (true, seen) else .error .evidenceInsufficient
      | none => .ok (false, seen ++ [(b.transaction, b.record)])

def actionableMeta (md : EvidenceMeta) (graph : EvidenceGraph) : Bool :=
  md.origin == .known .localTransaction && md.source.strength > 0 && md.observerAddress.valid &&
    md.observerPort != 0 && !allZero md.transactionID && md.attemptDigest == graph.attemptDigest &&
    md.generation == graph.generation && md.observedAtMilli ≥ graph.startedAtMilli &&
    md.observedAtMilli ≤ graph.finishedAtMilli

/-- What the four loops over single entries differ in: the check made before an entry is bound to
the manifest (with `actionableMeta`), and the arguments of the binding. -/
structure EntryKind (α : Type) where
  kind : KindName
  md : α → EvidenceMeta
  admissible : α → Bool
  socketSlot : α → UInt16
  ordinal : α → UInt32
  encode : α → Bytes

def EntryKind.binding {α : Type} (k : EntryKind α) (entry : α) : Binding :=
  ⟨k.kind, (k.md entry).transactionID, (k.md entry).source, (k.md entry).observer,
    k.socketSlot entry, k.ordinal entry, (k.md entry).observedAtMilli, k.encode entry⟩

def mappingEntries : EntryKind MappingEvidence :=
  ⟨.mapping, (·.md), fun entry => entry.md.source != .known .rfc5780, (·.md.socketSlot), fun _ => 0,
    encodeMappingEvidence⟩

def filteringEntries : EntryKind FilteringEvidence :=
  ⟨.filtering, (·.md), fun entry => entry.md.source != .known .rfc5780, (·.md.socketSlot),
    fun _ => 0, encodeFilteringEvidence⟩

def ipPoolingEntries : EntryKind IPPoolingEvidence :=
  ⟨.ipPooling, (·.md), fun _ => true, (·.md.socketSlot), fun _ => 0, encodeIPPoolingEvidence⟩

def allocationEntries : EntryKind AllocationSample :=
  ⟨.allocation, (·.md), fun entry => entry.md.socketSlot == entry.socketSlot, (·.socketSlot),
    (·.ordinal), encodeAllocationSample⟩

/-- One round of a loop over single entries: remote reports are passed over, repeated entries are
not kept. -/
def acceptEntry {α : Type} (k : EntryKind α) (graph : EvidenceGraph)
    (manifest : List IssuedTransaction) (acc : List α × Seen) (entry : α) :
    Except Err (List α × Seen) :=
  if (k.md entry).origin = .known .remoteReport then .ok acc
  else do
    failIf (k.admissible entry = false ∨ actionableMeta (k.md entry) graph = false) .invalidEvidence
    let (duplicate, seen) ← acceptBound manifest acc.2 (k.binding entry)
    return (if duplicate then acc.1 else acc.1 ++ [entry], seen)

def acceptEntries {α : Type} (k : EntryKind α) (graph : EvidenceGraph)
    (manifest : List IssuedTransaction) (entries : List α) (seen : Seen) :
    Except Err (List α × Seen) :=
  entries.foldlM (acceptEntry k graph manifest) ([], seen)

/-! ## Transcripts -/

def exchangeBinding (transcript : RFC5780Transcript) (index : ℕ) (exchange : RFC5780Exchange) :
    Binding :=
  ⟨.rfc5780, exchange.transactionID, .known .rfc5780, exchange.requestDestination, transcript.socketSlot,
    UInt32.ofNat index, exchange.observedAtMilli, encodeRFC5780Exchange exchange⟩

/-- The bindings of the five exchanges. -/
def transcriptBindings (transcript : RFC5780Transcript) : List Binding :=
  transcript.exchanges.toList.zipIdx.map fun item => exchangeBinding transcript item.2 item.1

/-- Accept bindings in turn and count those that were accepted before. -/
def countBound (manifest : List IssuedTransaction) (acc : ℕ × Seen) (b : Binding) :
    Except Err (ℕ × Seen) := do
  let (duplicate, seen) ← acceptBound manifest acc.2 b
  return (if duplicate then acc.1 + 1 else acc.1, seen)

def derivedRFC5780Meta (graph : EvidenceGraph) (transcript : RFC5780Transcript)
    (exchange : RFC5780Exchange) :
    EvidenceMeta :=
  ⟨.known .rfc5780, .known .localTransaction, exchange.requestDestination.address,
    exchange.requestDestination.port,
    transcript.socketSlot, exchange.transactionID, graph.attemptDigest, graph.generation,
    exchange.observedAtMilli⟩

/-- The mapping and the filtering entry that a transcript is turned into. -/
structure Reading where
  transcript : RFC5780Transcript
  mapping : MappingEvidence
  filtering : FilteringEvidence
  deriving DecidableEq

def readTranscript (graph : EvidenceGraph) (transcript : RFC5780Transcript)
    (derived : DerivedTranscript) : Reading :=
  ⟨transcript, ⟨derivedRFC5780Meta graph transcript (transcript.exchanges.get ⟨2,
    two_lt_rfc5780ExchangeCount⟩), derived.mapping⟩,
    ⟨derivedRFC5780Meta graph transcript (transcript.exchanges.get ⟨4,
    four_lt_rfc5780ExchangeCount⟩), derived.filtering⟩⟩

/-- One round of the loop over transcripts. -/
def acceptTranscript (graph : EvidenceGraph) (manifest : List IssuedTransaction)
    (acc : List Reading × Seen) (transcript : RFC5780Transcript) :
    Except Err (List Reading × Seen) :=
  if transcript.origin = .known .remoteReport then .ok acc
  else do
    failIf (transcript.origin ≠ .known .localTransaction) .invalidEvidence
    let derived ← deriveRFC5780Transcript transcript
    let (duplicates, seen) ← (transcriptBindings transcript).foldlM (countBound manifest) (0, acc.2)
    failIf (duplicates ≠ 0 ∧ duplicates ≠ rfc5780ExchangeCount) .evidenceInsufficient
    return (if duplicates = rfc5780ExchangeCount then acc.1
      else acc.1 ++ [readTranscript graph transcript derived], seen)

/-! ## Normalization -/

/-- The graph with only the entries of a normalized one. -/
def normalizedGraph (graph : EvidenceGraph) (mapping : List MappingEvidence)
    (filtering : List FilteringEvidence) (ipPooling : List IPPoolingEvidence)
    (allocation : List AllocationSample) (readings : List Reading) : EvidenceGraph :=
  { graph with
    mapping := mapping ++ readings.map (·.mapping)
    filtering := filtering ++ readings.map (·.filtering)
    ipPooling := ipPooling
    allocation := allocation
    rfc5780 := readings.map (·.transcript) }

variable (sha256 : Bytes → Digest)

def normalizeEvidence (graph : EvidenceGraph) (trusted : TrustedValidationContext) :
    Except Err (EvidenceGraph × Digest) := do
  validateTrustedHeader graph trusted
  let validationDigest ← digestValidationContext sha256 trusted
  let manifest ← trusted.issued.foldlM (addIssued trusted) []
  failIf (manifest.length = 0) .evidenceInsufficient
  let (mapping, seen) ← acceptEntries mappingEntries graph manifest graph.mapping []
  let (filtering, seen) ← acceptEntries filteringEntries graph manifest graph.filtering seen
  let (ipPooling, seen) ← acceptEntries ipPoolingEntries graph manifest graph.ipPooling seen
  let (allocation, seen) ← acceptEntries allocationEntries graph manifest graph.allocation seen
  let (readings, seen) ← graph.rfc5780.foldlM (acceptTranscript graph manifest) ([], seen)
  failIf (seen.length ≠ manifest.length) .evidenceInsufficient
  return (normalizedGraph graph mapping filtering ipPooling allocation readings, validationDigest)

/-! ## Merging -/

/-- The zero value of `EvidenceSource`, weaker than every named source. -/
def EvidenceSource.none : EvidenceSource := .other [] fun k => by cases k <;> decide

/-- One round of `mergeMapping` and of `mergeFiltering`, whose entries differ only in the behaviour
they carry; `none` stands for the unknown behaviour. -/
def mergeStep {α β : Type} [DecidableEq α] [DecidableEq β] (md : α → EvidenceMeta)
    (behavior : α → β) (valid : β → Bool) (graph : EvidenceGraph)
    (acc : List α × Option β × EvidenceSource) (entry : α) :
    Except Err (List α × Option β × EvidenceSource) :=
  if actionableMeta (md entry) graph = false ∨ valid (behavior entry) = false then .ok acc
  else
    match acc.1.find? fun previous => decide ((md previous).transactionID =
      (md entry).transactionID) with
    | some previous => if previous = entry then .ok acc else .error .evidenceInsufficient
    | none =>
      if acc.2.1.isSome = true ∧ acc.2.1 ≠ some (behavior entry) then .error .evidenceInsufficient
      else
        .ok (entry :: acc.1, some (behavior entry),
          if (md entry).source.strength > acc.2.2.strength then (md entry).source else acc.2.2)

def mergeMapping (graph : EvidenceGraph) : Except Err (MappingBehavior × EvidenceSource) := do
  let (_, behavior, strongest) ← (sortBy encodeMappingEvidence graph.mapping).foldlM
    (mergeStep (·.md) (·.behavior) MappingBehavior.valid graph) ([], none, .none)
  return (behavior.getD (.known .unknown), strongest)

def mergeFiltering (graph : EvidenceGraph) : Except Err (FilteringBehavior × EvidenceSource) := do
  let (_, behavior, strongest) ← (sortBy encodeFilteringEvidence graph.filtering).foldlM
    (mergeStep (·.md) (·.behavior) FilteringBehavior.valid graph) ([], none, .none)
  return (behavior.getD (.known .unknown), strongest)

def poolingStep (graph : EvidenceGraph) (acc : List IPPoolingEvidence × Option Digest)
    (entry : IPPoolingEvidence) :
    Except Err (List IPPoolingEvidence × Option Digest) :=
  if actionableMeta entry.md graph = false then .ok acc
  else
    match acc.1.find? fun previous => decide (previous.md.transactionID = entry.md.transactionID) with
    | some previous => if previous = entry then .ok acc else .error .evidenceInsufficient
    | none =>
      if entry.stable = false ∨ allZero entry.poolDigest = true then .error .evidenceInsufficient
      else if acc.2.isSome = true ∧ acc.2 ≠ some entry.poolDigest then .error .evidenceInsufficient
      else .ok (entry :: acc.1, some entry.poolDigest)

/-- `mergeIPPooling`: explicit pooling evidence may only agree. -/
def mergeIPPooling (graph : EvidenceGraph) : Except Err Bool := do
  let _ ← (sortBy encodeIPPoolingEvidence graph.ipPooling).foldlM (poolingStep graph) ([], none)
  return true

/-! ## Allocation -/

def AllocationSample.usable (sample : AllocationSample) : Bool :=
  sample.success && sample.mappedAddress.valid && sample.mappedPort != 0

def addByOrdinal (byOrdinal : List AllocationSample) (entry : AllocationSample) :
    Except Err (List AllocationSample) := do
  failIf (entry.ordinal ∈ byOrdinal.map (·.ordinal)) .evidenceInsufficient
  return byOrdinal ++ [entry]

/-- The usable samples below and at an ordinal, down to the first ordinal without one. -/
def suffixAt (byOrdinal : List AllocationSample) (ordinal : ℕ) : List AllocationSample :=
  match byOrdinal.find? fun entry => decide (entry.ordinal.toNat = ordinal) with
  | none => []
  | some entry =>
    if entry.usable then
      match ordinal with
      | 0 => [entry]
      | below + 1 => suffixAt byOrdinal below ++ [entry]
    else []

/-- The samples with the highest ordinals, and how many samples failed. -/
def continuousSuccessfulAllocationSuffix (entries : List AllocationSample) :
    Except Err (List AllocationSample × ℕ) := do
  let byOrdinal ← entries.foldlM addByOrdinal []
  let failedSamples := byOrdinal.countP (!·.success)
  failIf (byOrdinal.length = 0) .evidenceInsufficient
  let samples := suffixAt byOrdinal ((byOrdinal.map (·.ordinal.toNat)).foldl max 0)
  failIf (samples.length < minSuccessfulAllocationSamples) .evidenceInsufficient
  failIf (¬ samples.IsChain fun previous next : AllocationSample =>
    previous.ordinal + 1 = next.ordinal ∧ previous.md.observedAtMilli ≤
      next.md.observedAtMilli) .evidenceInsufficient
  return (samples, failedSamples)

/-- The number of observer addresses, and whether one of them was observed at two ports. -/
def observerCoverage (samples : List AllocationSample) : ℕ × Bool :=
  ((samples.map (·.md.observerAddress)).dedup.length,
    samples.any fun s => samples.any fun s' =>
      s.md.observerAddress == s'.md.observerAddress && s.md.observerPort != s'.md.observerPort)

def forwardPortDelta (previous next : UInt16) : UInt16 :=
  if next > previous then next - previous else UInt16.ofNat (65535 - previous.toNat + next.toNat)

def addPort (port delta : UInt16) : UInt16 :=
  ((port.toUInt32 - 1 + delta.toUInt32) % 65535 + 1).toUInt16

structure Classified where
  behavior : AllocationBehavior
  minimum : UInt16
  maximum : UInt16
  predicted : UInt16
  predictedStep : UInt16
  deriving DecidableEq

/-- The distances from each sample's port to the next one's. -/
def portDeltas (samples : List AllocationSample) : List UInt16 :=
  List.zipWith forwardPortDelta (samples.map (·.mappedPort)) (samples.map (·.mappedPort)).tail

def classifyAllocation (samples : List AllocationSample) : Classified :=
  if samples.length < minSuccessfulAllocationSamples then ⟨.insufficientData, 0, 0, 0, 0⟩
  else
    let deltas := portDeltas samples
    let minimum := deltas.foldl min 65535
    let maximum := deltas.foldl max 0
    let behavior :=
      if minimum = maximum ∧ maximum ≤ maxMonotonicDelta then .sequentialUniform
      else if maximum ≤ maxMonotonicDelta ∧ maximum.toNat - minimum.toNat ≤ maxMonotonicDeltaSpread then
        .monotonicNonuniform
      else .apparentlyRandom
    let median := deltas.insertionSort (· ≤ ·)
    let predictedStep := median.getD (median.length / 2) 0
    ⟨behavior, minimum, maximum, addPort ((samples.map (·.mappedPort)).getLastD 0) predictedStep,
      predictedStep⟩

def predictiveSourceSchedule (last step : UInt16) : List UInt16 :=
  if last = 0 ∨ step = 0 then [] else List.iterate (addPort · step) (addPort last step)
    predictiveWindowPorts

/-! ## The state model -/

structure StateModel where
  mapping : MappingBehavior := .known .unknown
  mappingSource : EvidenceSource := .none
  filtering : FilteringBehavior := .known .unknown
  filteringSource : EvidenceSource := .none
  allocation : AllocationBehavior := .insufficientData
  publicAddressStable : Bool := false
  successfulSamples : ℕ := 0
  failedSamples : ℕ := 0
  observerAddressCount : ℕ := 0
  hasAlternatePort : Bool := false
  minimumDelta : UInt16 := 0
  maximumDelta : UInt16 := 0
  predictedNextPort : UInt16 := 0
  residualUniverse : ℕ := 0
  allocationLimitation : Bytes := text "insufficient_bound_samples"
  predictedSourcePorts : List UInt16 := []
  reusableEndpoint : AddressPort := .zero
  reusableEndpointSlot : UInt16 := 0
  evidenceDigest : Digest := Vector.replicate 32 0
  rawEvidenceDigest : Digest := Vector.replicate 32 0
  validationDigest : Digest := Vector.replicate 32 0
  expiresAtMilli : Int64 := 0
  conditional : Bool := false
  coverage : Bytes := []
  deriving DecidableEq

def coverageString (model : StateModel) : Bytes :=
  text "local_successes=" ++ text (formatUint model.successfulSamples) ++
    text ";local_failures=" ++ text (formatUint model.failedSamples) ++
    text ";observer_addresses=" ++ text (formatUint model.observerAddressCount) ++
    text ";alternate_port=" ++ text (if model.hasAlternatePort then "true" else "false") ++
    text ";mapping=" ++ model.mapping.text ++ text ";filtering=" ++ model.filtering.text ++
    text ";allocation=" ++ text model.allocation.text ++
    text ";residual_universe=" ++ text (formatUint model.residualUniverse) ++
    text ";limitation=" ++ model.allocationLimitation

/-- The class of the allocator and what it predicts. -/
def withAllocation (model : StateModel) (samples : List AllocationSample) : StateModel :=
  let classified := classifyAllocation samples
  let model := { model with
    allocation := classified.behavior
    minimumDelta := classified.minimum
    maximumDelta := classified.maximum
    predictedNextPort := classified.predicted }
  if classified.behavior = .sequentialUniform ∨ classified.behavior = .monotonicNonuniform then
    let ports := predictiveSourceSchedule ((samples.map (·.mappedPort)).getLastD 0)
      classified.predictedStep
    { model with
      predictedSourcePorts := ports
      residualUniverse := ports.length
      allocationLimitation := text "short_window_only;competing_allocations_unbounded" }
  else
    { model with
      residualUniverse := 65535
      allocationLimitation := text "samples_do_not_bound_future_allocator;full_range_unknown" }

/-- The model of a normalized graph, apart from the digest of the raw one. -/
def inferNormalized (normalized : EvidenceGraph) (validationDigest evidenceDigest : Digest) :
    Except Err StateModel := do
  let (mapping, mappingSource) ← (mergeMapping normalized).mapError fun _ => .evidenceInsufficient
  let (filtering, filteringSource) ← (mergeFiltering normalized).mapError fun _ => .evidenceInsufficient
  let (endpoint, endpointSlot) ← (reusableRFC5780Endpoint normalized.rfc5780).mapError fun _ =>
    .evidenceInsufficient
  let (samples, failedSamples) ← continuousSuccessfulAllocationSuffix normalized.allocation
  let (observerAddressCount, hasAlternatePort) := observerCoverage samples
  failIf (samples.length < minSuccessfulAllocationSamples ∨ observerAddressCount < 2 ∨
    hasAlternatePort = false) .evidenceInsufficient
  let publicAddress := samples.head?.map (·.mappedAddress)
  failIf (∃ s ∈ samples, some s.mappedAddress ≠ publicAddress) .evidenceInsufficient
  failIf (endpoint.valid = true ∧ ¬ ∃ s ∈ samples, s.socketSlot = endpointSlot ∧
    s.mappedAddress = endpoint.address ∧ s.mappedPort = endpoint.port) .evidenceInsufficient
  let stable ← (mergeIPPooling normalized).mapError fun _ => .evidenceInsufficient
  failIf (stable = false) .evidenceInsufficient
  let model := withAllocation
    { mapping := mapping, mappingSource := mappingSource
      filtering := filtering, filteringSource := filteringSource
      publicAddressStable := true
      successfulSamples := samples.length, failedSamples := failedSamples
      observerAddressCount := observerAddressCount, hasAlternatePort := hasAlternatePort
      reusableEndpoint := if endpoint.valid then endpoint else .zero
      reusableEndpointSlot := if endpoint.valid then endpointSlot else 0
      evidenceDigest := evidenceDigest, validationDigest := validationDigest
      expiresAtMilli := normalized.expiresAtMilli, conditional := true } samples
  return { model with coverage := coverageString model }

def inferStateModel (graph : EvidenceGraph) (trusted : TrustedValidationContext) :
    Except Err StateModel := do
  let (normalized, validationDigest) ← normalizeEvidence sha256 graph trusted
  let evidenceDigest ← digestValidatedEvidence sha256 normalized validationDigest
  let model ← inferNormalized normalized validationDigest evidenceDigest
  return { model with rawEvidenceDigest := digestEvidence sha256 graph }

end Winkyou.HardNat
