import Winkyou.Spec.HardNat.Evidence

/-!
# The bilateral planner (`hardnatplan/planner.go`, `compact.go`)

Each side freezes a source commitment from its own evidence; two commitments of opposite roles
make the two directional plans and their joint commitment. The high-precision arithmetic of
`probability.go` and the keyed hash are parameters (`Primitives`); the caches of probability
numbers return what they would compute and are left out.
-/

namespace Winkyou.HardNat

open Except (failIf)

/-! ## Profiles, roles and costs -/

inductive ProfileName
  | predictiveEdm
  | asymmetricBirthday
  | hardBirthday
  deriving DecidableEq

def ProfileName.text : ProfileName → Bytes
  | .predictiveEdm => HardNat.text "predictive_edm/1"
  | .asymmetricBirthday => HardNat.text "asymmetric_birthday/1"
  | .hardBirthday => HardNat.text "hard_birthday_campaign/1"

/-- A profile as the wire names it, known or not. -/
abbrev Profile := Named ProfileName.text

inductive ResourceName
  | predictive
  | asymmetric
  | hard16KLab
  | hard32KCandidate
  deriving DecidableEq

def ResourceName.text : ResourceName → Bytes
  | .predictive => HardNat.text "predictive_32/1"
  | .asymmetric => HardNat.text "asymmetric_128x512/1"
  | .hard16KLab => HardNat.text "hard_16k_lab/1"
  | .hard32KCandidate => HardNat.text "hard_32k_candidate/1"

abbrev ResourceClass := Named ResourceName.text

/-- The part that a side plays in its profile. -/
inductive RoleName
  | initiator
  | responder
  | mappingSet
  | targetSet
  deriving DecidableEq

def RoleName.text : RoleName → Bytes
  | .initiator => HardNat.text "initiator"
  | .responder => HardNat.text "responder"
  | .mappingSet => HardNat.text "mapping_set_role"
  | .targetSet => HardNat.text "target_set_role"

abbrev Role := Named RoleName.text

structure Cost where
  sockets : ℕ
  targets : ℕ
  fiveTuples : ℕ
  packets : ℕ
  packetsPerSecond : ℕ
  activeMillis : ℕ
  deriving DecidableEq

/-- No entry of the cost exceeds its entry of the budget. -/
def Cost.admits (budget cost : Cost) : Prop :=
  budget.sockets ≥ cost.sockets ∧ budget.targets ≥ cost.targets ∧ budget.fiveTuples ≥ cost.fiveTuples ∧
    budget.packets ≥ cost.packets ∧ budget.packetsPerSecond ≥ cost.packetsPerSecond ∧
    budget.activeMillis ≥ cost.activeMillis

instance (budget cost : Cost) : Decidable (budget.admits cost) :=
  inferInstanceAs (Decidable (_ ∧ _ ∧ _ ∧ _ ∧ _ ∧ _))

structure Universe where
  name : Bytes
  min : UInt16 := 0
  max : UInt16 := 0
  count : ℕ := 0
  deriving DecidableEq

structure Probability where
  universe_ : ℕ
  leftDraws : ℕ
  rightDraws : ℕ
  precisionBits : ℕ
  lowerDecimal : Bytes
  upperDecimal : Bytes
  floorPartsPerTrillion : ℕ
  exactRational : Bytes
  deriving DecidableEq

structure ProbabilityReport where
  model : Bytes
  universe_ : Bytes
  assumptions : Bytes
  conditional : Bool
  modelCoverage : Bytes
  primary : Probability
  fullRangeBaseline : Probability
  poissonApproximation : Bytes
  approximationDelta : Bytes
  deriving DecidableEq

/-- One datagram of a schedule: its socket, its place and its target port. -/
structure Candidate where
  role : Role
  socketSlot : UInt16
  ordinal : ℕ
  expectedSourcePort : UInt16 := 0
  targetPort : UInt16
  deriving DecidableEq

structure DigestTriple where
  plan : Digest
  cost : Digest
  evidence : Digest
  deriving DecidableEq

structure Plan where
  profile : Profile
  resourceClass : ResourceClass
  role : Role
  generation : UInt64
  universe_ : Universe
  cost : Cost
  candidates : List Candidate
  probability : ProbabilityReport
  evidenceDigest : Digest
  costDigest : Digest
  planDigest : Digest
  executable : Bool
  deriving DecidableEq

def Plan.digests (plan : Plan) : DigestTriple :=
  ⟨plan.planDigest, plan.costDigest, plan.evidenceDigest⟩

structure SourceSlot where
  socketSlot : UInt16
  ordinal : ℕ
  expectedPublicSourcePort : UInt16 := 0
  deriving DecidableEq

/-- What one side fixes before it sees the plan of the other. -/
structure LocalSourceCommitment where
  profile : Profile
  resourceClass : ResourceClass
  role : Role
  attemptDigest : Digest
  generation : UInt64
  sourceSlots : List SourceSlot
  receiveEndpoint : AddressPort
  universe_ : Universe
  cost : Cost
  probability : ProbabilityReport
  evidenceDigest : Digest
  validationDigest : Digest
  costDigest : Digest
  sourceDigest : Digest
  executable : Bool
  deriving DecidableEq

structure DirectionalCommitment where
  role : Role
  sourceDigest : Digest
  triple : DigestTriple
  deriving DecidableEq

structure JointPlanCommitment where
  profile : Profile
  resourceClass : ResourceClass
  attemptDigest : Digest
  generation : UInt64
  directions : DirectionalCommitment × DirectionalCommitment
  jointDigest : Digest
  deriving DecidableEq

structure BilateralPlan where
  profile : Profile
  resourceClass : ResourceClass
  attemptDigest : Digest
  generation : UInt64
  plans : Plan × Plan
  sourceDigests : Digest × Digest
  jointDigest : Digest
  deriving DecidableEq

/-- The fields of a bilateral plan that its joint digest is over. -/
def BilateralPlan.commitment (plan : BilateralPlan) : JointPlanCommitment :=
  ⟨plan.profile, plan.resourceClass, plan.attemptDigest, plan.generation,
    (⟨plan.plans.1.role, plan.sourceDigests.1, plan.plans.1.digests⟩,
      ⟨plan.plans.2.role, plan.sourceDigests.2, plan.plans.2.digests⟩), plan.jointDigest⟩

structure PlannerKeyContext where
  attemptDigest : Digest
  generation : UInt64
  profile : Profile
  resourceClass : ResourceClass
  firstEvidenceDigest : Digest
  secondEvidenceDigest : Digest
  deriving DecidableEq

/-! ## Hashing and arithmetic -/

def uint64 (bytes : Bytes) : ℕ := bytes.foldl (fun n b => n * 256 + b.toNat) 0

/-- The input of one keyed draw. -/
def prpInput (domain : Bytes) (ordinal counter : ℕ) : Bytes :=
  text "winkyou-hardnat-prp-v1\x00" ++ appendString domain ++ appendUint32 ordinal ++
    appendUint32 counter

/-- A draw below this value is rejected: `-bound % bound` on 64 bits. -/
def prpThreshold (bound : ℕ) : ℕ := (2 ^ 64 - bound) % bound

/-- SHA-256, HMAC-SHA-256 and the results of the high-precision arithmetic. The loop of `prfIndex`
ends only at a draw that is not rejected, so the keyed hash is taken to have one among the
counters. -/
structure Primitives where
  sha256 : Bytes → Digest
  hmac : Digest → Bytes → Digest
  /-- The directed bounds and the floor of a collision probability between zero and one. -/
  collision : ℕ → ℕ → ℕ → Bytes × Bytes × ℕ × Bytes
  poisson : ℕ → ℕ → ℕ → Bytes
  delta : Probability → Bytes → Except Err Bytes
  draws : ∀ key domain ordinal bound, 0 < bound →
    ∃ counter < 2 ^ 32, prpThreshold bound ≤ uint64
      ((hmac key (prpInput domain ordinal counter)).toList.take 8)

variable (P : Primitives)

def probabilityScale : ℕ := 1000000000000
def probabilityPrecisionBits : ℕ := 512
/-- The dynamic port range. -/
def dynamicPortMin : UInt16 := 49152
def dynamicPortMax : UInt16 := 65535
def dynamicPortCount : ℕ := 16384

def zeroDecimal : Bytes := text "0.00000000000000000000000000000000000000000000000000"
def oneDecimal : Bytes := text "1.00000000000000000000000000000000000000000000000000"

/-- The chance that two draws without replacement share an element. -/
def collisionProbabilityWithoutReplacement (universe_ leftDraws rightDraws : ℕ) :
    Except Err Probability := do
  failIf (universe_ = 0 ∨ leftDraws > universe_ ∨ rightDraws > universe_) .invalidProbabilityInput
  if leftDraws = 0 ∨ rightDraws = 0 then
    return ⟨universe_, leftDraws, rightDraws, probabilityPrecisionBits, zeroDecimal, zeroDecimal, 0,
      text "0"⟩
  else if leftDraws > universe_ - rightDraws then
    return ⟨universe_, leftDraws, rightDraws, probabilityPrecisionBits, oneDecimal, oneDecimal,
      probabilityScale, text "1"⟩
  else
    let (lower, upper, floor, rational) := P.collision universe_ leftDraws rightDraws
    return ⟨universe_, leftDraws, rightDraws, probabilityPrecisionBits, lower, upper, floor, rational⟩

def poissonApproximation (universe_ leftDraws rightDraws : ℕ) : Except Err Bytes := do
  failIf (universe_ = 0) .invalidProbabilityInput
  return P.poisson universe_ leftDraws rightDraws

def appendProbability (probability : Probability) : Bytes :=
  appendUint64 (.ofNat probability.universe_) ++ appendUint64 (.ofNat probability.leftDraws) ++
    appendUint64 (.ofNat probability.rightDraws) ++ appendUint64 (.ofNat probability.precisionBits) ++
    appendString probability.lowerDecimal ++ appendString probability.upperDecimal ++
    appendUint64 (.ofNat probability.floorPartsPerTrillion) ++ appendString probability.exactRational

def appendProbabilityReport (report : ProbabilityReport) : Bytes :=
  appendString report.model ++ appendString report.universe_ ++ appendString report.assumptions ++
    appendBool report.conditional ++ appendString report.modelCoverage ++
      appendProbability report.primary ++
    appendProbability report.fullRangeBaseline ++ appendString report.poissonApproximation ++
    appendString report.approximationDelta

def appendUniverse (universe_ : Universe) : Bytes :=
  appendString universe_.name ++ appendUint16 universe_.min ++ appendUint16 universe_.max ++
    appendUint32 universe_.count

/-- The digest of a cost under its profile and class. -/
def digestCost (profile : Profile) (resource : ResourceClass) (cost : Cost) : Digest :=
  P.sha256 (text "winkyou-hardnat-cost-v1\x00" ++ appendString profile.text ++
    appendString resource.text ++
    appendUint32 cost.sockets ++ appendUint32 cost.targets ++ appendUint32 cost.fiveTuples ++
      appendUint32 cost.packets ++
    appendUint32 cost.packetsPerSecond ++ appendUint32 cost.activeMillis)

def appendSourceSlot (slot : SourceSlot) : Bytes :=
  appendUint16 slot.socketSlot ++ appendUint32 slot.ordinal ++
    appendUint16 slot.expectedPublicSourcePort

def digestSourceCommitment (commitment : LocalSourceCommitment) : Digest :=
  P.sha256 (text "winkyou-hardnat-source-commitment-v1\x00" ++ appendString commitment.profile.text ++
    appendString commitment.resourceClass.text ++ appendString commitment.role.text ++
    commitment.attemptDigest.toList ++ appendUint64 commitment.generation ++
      appendUniverse commitment.universe_ ++
    appendAddress commitment.receiveEndpoint.address ++ appendUint16 commitment.receiveEndpoint.port ++
    commitment.evidenceDigest.toList ++ commitment.validationDigest.toList ++
      commitment.costDigest.toList ++
    appendProbabilityReport commitment.probability ++ appendBool commitment.executable ++
    appendUint32 commitment.sourceSlots.length ++ commitment.sourceSlots.flatMap appendSourceSlot)

def appendCandidate (candidate : Candidate) : Bytes :=
  appendString candidate.role.text ++ appendUint16 candidate.socketSlot ++
    appendUint32 candidate.ordinal ++
    appendUint16 candidate.expectedSourcePort ++ appendUint16 candidate.targetPort

def digestPlan (plan : Plan) (attemptDigest : Digest) : Digest :=
  P.sha256 (text "winkyou-hardnat-plan-v3\x00" ++ appendString plan.profile.text ++
    appendString plan.resourceClass.text ++ appendString plan.role.text ++ attemptDigest.toList ++
    appendUint64 plan.generation ++ appendUniverse plan.universe_ ++ plan.evidenceDigest.toList ++
    plan.costDigest.toList ++ appendProbabilityReport plan.probability ++ appendBool plan.executable ++
    appendUint32 plan.candidates.length ++ plan.candidates.flatMap appendCandidate)

def appendDirection (direction : DirectionalCommitment) : Bytes :=
  appendString direction.role.text ++ direction.sourceDigest.toList ++
    direction.triple.plan.toList ++ direction.triple.cost.toList ++ direction.triple.evidence.toList

/-- The digest that both sides of a plan compare. -/
def digestJointCommitment (commitment : JointPlanCommitment) : Digest :=
  P.sha256 (text "winkyou-hardnat-joint-plan-v1\x00" ++ appendString commitment.profile.text ++
    appendString commitment.resourceClass.text ++ commitment.attemptDigest.toList ++
    appendUint64 commitment.generation ++ appendDirection commitment.directions.1 ++
    appendDirection commitment.directions.2)

/-! ## Shapes -/

structure PlanShape where
  cost : Cost
  universe_ : Universe
  candidates : ℕ
  executable : Bool
  deriving DecidableEq

def validateRole (profile : Profile) (role : Role) : Except Err Unit :=
  match profile with
  | .known .predictiveEdm | .known .hardBirthday =>
    failIf (role ≠ .known .initiator ∧ role ≠ .known .responder) .unsupportedRole
  | .known .asymmetricBirthday =>
    failIf (role ≠ .known .mappingSet ∧ role ≠ .known .targetSet) .unsupportedRole
  | .other _ _ => .error .unsupportedRole

/-- `shapeFor`; of the model it reads only how many source ports are predicted. -/
def shapeFor (profile : Profile) (resource : ResourceClass) (role : Role) (predictedPorts : ℕ) :
    Except Err PlanShape :=
  match profile, resource with
  | .known .predictiveEdm, .known .predictive =>
    .ok ⟨⟨8, 64, 64, 64, 32, 13000⟩, { name := text "peer-source-schedule/1", count := predictedPorts }, predictedPorts,
      true⟩
  | .known .asymmetricBirthday, .known .asymmetric =>
    .ok ⟨⟨128, 512, 512, 512, 64, 13000⟩, { name := text "nonzero-udp-ports/1", min := 1, max := 65535 },
      if role = .known .mappingSet then 128 else 512, true⟩
  | .known .hardBirthday, .known .hard16KLab =>
    .ok ⟨⟨16, 16400, 16400, 16432, 512, 45000⟩,
      { name := text "iana-dynamic-private-49152-65535/1", min := dynamicPortMin, max := dynamicPortMax },
      dynamicPortCount, true⟩
  | .known .hardBirthday, .known .hard32KCandidate =>
    .ok ⟨⟨32, 32768, 32768, 32768, 512, 45000⟩,
      { name := text "iana-dynamic-private-49152-65535/two-socket-rounds/1", min := dynamicPortMin,
        max := dynamicPortMax, count := 32768 },
      32768, false⟩
  | _, _ => .error .unsupportedProfile

/-- The model of a commitment has as many predicted ports as the commitment has slots. -/
def predictedPortsOf (commitment : LocalSourceCommitment) : ℕ :=
  if commitment.resourceClass = .known .predictive then commitment.sourceSlots.length else 0

def shapeForCommitment (commitment : LocalSourceCommitment) : Except Err PlanShape :=
  shapeFor commitment.profile commitment.resourceClass commitment.role (predictedPortsOf commitment)

def probabilityForHardShape (coverage : Bytes) (shape : PlanShape) : Except Err ProbabilityReport :=
  do
  let primary ← collisionProbabilityWithoutReplacement P (dynamicPortCount * dynamicPortCount)
    shape.candidates
    shape.candidates
  let baseline ← collisionProbabilityWithoutReplacement P (65535 * 65535) shape.candidates
    shape.candidates
  let approximation ← poissonApproximation P primary.universe_ primary.leftDraws primary.rightDraws
  let delta ← P.delta primary approximation
  return { model := ProfileName.text .hardBirthday
           universe_ := shape.universe_.name
           assumptions := text "public mappings remain uniformly inside the compiled 49152-65535 model universe"
           conditional := true
           modelCoverage := coverage
           primary := primary
           fullRangeBaseline := baseline
           poissonApproximation := approximation
           approximationDelta := delta }

/-- `probabilityFor`; of the model it reads the coverage text and the number of predicted ports. -/
def probabilityFor (resource : ResourceClass) (coverage : Bytes) (predictedPorts : ℕ)
    (shape : PlanShape) :
    Except Err ProbabilityReport :=
  match resource with
  | .known .hard16KLab | .known .hard32KCandidate => probabilityForHardShape P coverage shape
  | .known .predictive => do
    let primary ← collisionProbabilityWithoutReplacement P predictedPorts predictedPorts 1
    let approximation ← poissonApproximation P primary.universe_ primary.leftDraws primary.rightDraws
    let delta ← P.delta primary approximation
    return { model := ProfileName.text .predictiveEdm
             universe_ := shape.universe_.name
             assumptions := text "both committed source schedules remain valid for the directional attempt"
             conditional := true
             modelCoverage := coverage
             primary := primary
             fullRangeBaseline := primary
             poissonApproximation := approximation
             approximationDelta := delta }
  | .known .asymmetric => do
    let primary ← collisionProbabilityWithoutReplacement P 65535 128 512
    let approximation ← poissonApproximation P 65535 128 512
    let delta ← P.delta primary approximation
    return { model := ProfileName.text .asymmetricBirthday
             universe_ := shape.universe_.name
             assumptions :=
               text "EDM mappings are uniform without replacement and the opposite mapping is reusable"
             conditional := true
             modelCoverage := coverage
             primary := primary
             fullRangeBaseline := primary
             poissonApproximation := approximation
             approximationDelta := delta }
  | .other _ _ => .error .unsupportedProfile

def probabilityForCommitment (commitment : LocalSourceCommitment) (shape : PlanShape) :
    Except Err ProbabilityReport :=
  probabilityFor P commitment.resourceClass commitment.probability.modelCoverage
    (predictedPortsOf commitment) shape

def probabilityAdmitted (resource : ResourceClass) (report : ProbabilityReport) : Bool :=
  match resource with
  | .known .predictive => report.primary.floorPartsPerTrillion == probabilityScale
  | .known .asymmetric => report.primary.floorPartsPerTrillion ≥ 632000000000
  | .known .hard16KLab => report.fullRangeBaseline.floorPartsPerTrillion ≥ 60000000000
  | .known .hard32KCandidate => report.fullRangeBaseline.floorPartsPerTrillion ≥ 221000000000
  | .other _ _ => false

/-! ## Local commitments -/

def validateModelForProfile (profile : Profile) (role : Role) (model : StateModel) :
    Except Err Unit := do
  failIf (model.publicAddressStable = false ∨ model.successfulSamples < minSuccessfulAllocationSamples ∨
    model.observerAddressCount < 2 ∨ model.hasAlternatePort = false) .evidenceInsufficient
  match profile with
  | .known .predictiveEdm =>
    failIf (MappingBehavior.endpointDependent model.mapping = false ∨
      (model.allocation ≠ .sequentialUniform ∧ model.allocation ≠ .monotonicNonuniform) ∨
      model.predictedSourcePorts.length ≠ predictiveWindowPorts) .evidenceInsufficient
  | .known .asymmetricBirthday => do
    failIf (role = .known .mappingSet ∧ MappingBehavior.endpointDependent model.mapping =
      false) .evidenceInsufficient
    failIf (role = .known .targetSet ∧ (model.mapping ≠ .known .eim ∨
      model.reusableEndpoint.valid = false))
      .evidenceInsufficient
  | .known .hardBirthday =>
    failIf (MappingBehavior.endpointDependent model.mapping = false ∨
      model.allocation ≠ .apparentlyRandom) .evidenceInsufficient
  | .other _ _ => .error .unsupportedProfile

def receiveEndpointRequired (profile : Profile) (role : Role) : Bool :=
  profile == .known .asymmetricBirthday && role == .known .targetSet

def validateReceiveEndpoint (profile : Profile) (role : Role) (endpoint : AddressPort) :
    Except Err Unit := do
  failIf (receiveEndpointRequired profile role = true ∧ endpoint.valid = false) .invalidEvidence
  failIf (receiveEndpointRequired profile role = false ∧ endpoint ≠ .zero) .invalidEvidence

/-- Slots numbered from zero, each on its own socket and without an expected port. -/
def numberedSlots (count : ℕ) : List SourceSlot :=
  (List.range count).map fun index => { socketSlot := UInt16.ofNat index, ordinal := index }

/-- The predictive slots, on eight sockets in turn. -/
def predictiveSlots (ports : List UInt16) : List SourceSlot :=
  ports.zipIdx.map fun item => ⟨UInt16.ofNat (item.2 % 8), item.2, item.1⟩

def sourceSlotsFor (resource : ResourceClass) (role : Role) (ports : List UInt16)
    (endpointSlot : UInt16) (endpoint : AddressPort) : Except Err (List SourceSlot) :=
  match resource with
  | .known .predictive => do
    failIf (0 ∈ ports) .evidenceInsufficient
    return predictiveSlots ports
  | .known .asymmetric =>
    if role = .known .mappingSet then .ok (numberedSlots 128)
    else if role = .known .targetSet ∧ endpoint.valid = true then .ok [⟨endpointSlot, 0, endpoint.port⟩]
    else .error .unsupportedProfile
  | .known .hard16KLab => .ok (numberedSlots 16)
  | .known .hard32KCandidate => .ok (numberedSlots 32)
  | .other _ _ => .error .unsupportedProfile

structure AttemptContext where
  attemptDigest : Digest
  generation : UInt64
  role : Role

structure LocalCommitmentInput where
  profile : Profile
  resourceClass : ResourceClass
  context : AttemptContext
  evidence : EvidenceGraph
  validation : TrustedValidationContext
  budget : Cost

/-- The commitment with its source digest. -/
def sealCommitment (commitment : LocalSourceCommitment) : LocalSourceCommitment :=
  { commitment with sourceDigest := digestSourceCommitment P commitment }

/-- The commitment whose fields are computed from a shape, a report and slots. -/
def commitmentOf (profile : Profile) (resource : ResourceClass) (role : Role)
    (attemptDigest : Digest) (generation : UInt64) (evidenceDigest validationDigest : Digest)
    (endpoint : AddressPort) (shape : PlanShape) (report : ProbabilityReport)
    (slots : List SourceSlot) : LocalSourceCommitment :=
  sealCommitment P
    { profile := profile, resourceClass := resource, role := role, attemptDigest := attemptDigest,
      generation := generation, sourceSlots := slots, receiveEndpoint := endpoint, universe_ :=
      shape.universe_,
      cost := shape.cost, probability := report, evidenceDigest :=
      evidenceDigest, validationDigest := validationDigest,
      costDigest := digestCost P profile resource shape.cost, sourceDigest := Vector.replicate 32 0,
      executable := shape.executable }

def buildLocalCommitment (input : LocalCommitmentInput) : Except Err LocalSourceCommitment := do
  failIf (input.context.generation = 0 ∨ allZero input.context.attemptDigest = true ∨
    input.context.attemptDigest ≠ input.evidence.attemptDigest ∨
    input.context.generation ≠ input.evidence.generation) .invalidEvidence
  validateRole input.profile input.context.role
  let model ← inferStateModel P.sha256 input.evidence input.validation
  validateModelForProfile input.profile input.context.role model
  let endpoint :=
    if receiveEndpointRequired input.profile input.context.role then model.reusableEndpoint else .zero
  validateReceiveEndpoint input.profile input.context.role endpoint
  let shape ← shapeFor input.profile input.resourceClass input.context.role
    model.predictedSourcePorts.length
  let report ← probabilityFor P input.resourceClass model.coverage model.predictedSourcePorts.length
    shape
  failIf (probabilityAdmitted input.resourceClass report = false ∨
    ¬ input.budget.admits shape.cost) .insufficientBudget
  let slots ← sourceSlotsFor input.resourceClass input.context.role model.predictedSourcePorts
    model.reusableEndpointSlot endpoint
  return commitmentOf P input.profile input.resourceClass input.context.role input.context.attemptDigest
    input.context.generation model.evidenceDigest model.validationDigest endpoint shape report slots

def wantedSlots (resource : ResourceName) (role : Role) : ℕ :=
  match resource with
  | .predictive => predictiveWindowPorts
  | .asymmetric => if role = .known .targetSet then 1 else 128
  | .hard16KLab => 16
  | .hard32KCandidate => 32

/-- The check of the slot at an index. -/
def validSlot (commitment : LocalSourceCommitment) (resource : ResourceName) (index : ℕ)
    (slot : SourceSlot) : Prop :=
  slot.ordinal = index ∧
    match resource with
    | .predictive => slot.socketSlot = UInt16.ofNat (index % 8) ∧ slot.expectedPublicSourcePort ≠ 0
    | .asymmetric =>
      (commitment.role = .known .mappingSet → slot.socketSlot = UInt16.ofNat index ∧
        slot.expectedPublicSourcePort = 0) ∧ (commitment.role = .known .targetSet →
          slot.expectedPublicSourcePort = commitment.receiveEndpoint.port ∧
            slot.socketSlot.toNat < commitment.cost.sockets)
    | .hard16KLab | .hard32KCandidate =>
      slot.socketSlot = UInt16.ofNat index ∧ slot.expectedPublicSourcePort = 0

instance (commitment : LocalSourceCommitment) (resource : ResourceName) (index : ℕ)
    (slot : SourceSlot) : Decidable (validSlot commitment resource index slot) := by
  unfold validSlot
  cases resource <;> infer_instance

def validateSourceSlots (commitment : LocalSourceCommitment) : Except Err Unit :=
  match commitment.resourceClass with
  | .other _ _ => .error .unsupportedProfile
  | .known resource => do
    failIf (commitment.sourceSlots.length ≠ wantedSlots resource commitment.role) .planMismatch
    failIf (¬ ∀ item ∈ commitment.sourceSlots.zipIdx, validSlot commitment resource item.2 item.1)
      .planMismatch
    failIf (resource = .predictive ∧ ¬ (commitment.sourceSlots.map
      (·.expectedPublicSourcePort)).Nodup) .planMismatch

def validateLocalCommitment (commitment : LocalSourceCommitment) : Except Err Unit := do
  validateRole commitment.profile commitment.role
  validateReceiveEndpoint commitment.profile commitment.role commitment.receiveEndpoint
  let shape ← shapeForCommitment commitment
  let probability ← probabilityForCommitment P commitment shape
  failIf (commitment.cost ≠ shape.cost ∨ commitment.universe_ ≠ shape.universe_ ∨
    commitment.executable ≠ shape.executable ∨
    commitment.costDigest ≠ digestCost P commitment.profile commitment.resourceClass commitment.cost ∨
    allZero commitment.evidenceDigest = true ∨ allZero commitment.validationDigest = true ∨
    commitment.sourceDigest ≠ digestSourceCommitment P commitment ∨
      commitment.probability ≠ probability ∨
    probabilityAdmitted commitment.resourceClass commitment.probability = false) .planMismatch
  validateSourceSlots commitment

/-! ## The compact form -/

def maxModelCoverageBytes : ℕ := 256

structure CompactSourceInput where
  profile : Profile
  resourceClass : ResourceClass
  role : Role
  attemptDigest : Digest
  generation : UInt64
  predictedPorts : List UInt16
  receiveEndpoint : AddressPort
  receiveSocketSlot : UInt16
  evidenceDigest : Digest
  validationDigest : Digest
  modelCoverage : Bytes
  deriving DecidableEq

/-- The fields that each resource class may and may not carry. -/
def validateCompactFields (input : CompactSourceInput) : Except Err Unit :=
  match input.resourceClass with
  | .known .predictive =>
    failIf (input.profile ≠ .known .predictiveEdm ∨
      input.predictedPorts.length ≠ predictiveWindowPorts ∨
      input.receiveEndpoint ≠ .zero ∨ input.receiveSocketSlot ≠ 0) .planMismatch
  | .known .asymmetric => do
    failIf (input.profile ≠ .known .asymmetricBirthday ∨ input.predictedPorts.length ≠ 0) .planMismatch
    if input.role = .known .targetSet then failIf (input.receiveEndpoint.valid = false) .planMismatch
    else failIf (input.receiveEndpoint ≠ .zero ∨ input.receiveSocketSlot ≠ 0) .planMismatch
  | .known .hard16KLab =>
    failIf (input.profile ≠ .known .hardBirthday ∨ input.predictedPorts.length ≠ 0 ∨
      input.receiveEndpoint ≠ .zero ∨ input.receiveSocketSlot ≠ 0) .planMismatch
  | _ => .error .unsupportedProfile

def reconstructLocalCommitment (input : CompactSourceInput) : Except Err LocalSourceCommitment := do
  failIf (input.generation = 0 ∨ allZero input.attemptDigest = true ∨ allZero input.evidenceDigest =
    true ∨ allZero input.validationDigest = true ∨ input.modelCoverage.length = 0 ∨
    input.modelCoverage.length > maxModelCoverageBytes) .planMismatch
  validateRole input.profile input.role
  validateCompactFields input
  let shape ← (shapeFor input.profile input.resourceClass input.role
    input.predictedPorts.length).mapError
    fun _ => .unsupportedProfile
  failIf (shape.executable = false) .unsupportedProfile
  let report ← (probabilityFor P input.resourceClass input.modelCoverage input.predictedPorts.length
    shape).mapError
    fun _ => .canonicalProbability
  failIf (probabilityAdmitted input.resourceClass report = false) .canonicalProbability
  let slots ← sourceSlotsFor input.resourceClass input.role input.predictedPorts input.receiveSocketSlot
    input.receiveEndpoint
  let commitment := commitmentOf P input.profile input.resourceClass input.role input.attemptDigest
    input.generation
    input.evidenceDigest input.validationDigest input.receiveEndpoint shape report slots
  validateLocalCommitment P commitment
  return commitment

/-- The fields of a commitment that its compact form carries. -/
def compactForm (commitment : LocalSourceCommitment) : CompactSourceInput where
  profile := commitment.profile
  resourceClass := commitment.resourceClass
  role := commitment.role
  attemptDigest := commitment.attemptDigest
  generation := commitment.generation
  predictedPorts :=
    if commitment.resourceClass = .known .predictive then
      commitment.sourceSlots.map (·.expectedPublicSourcePort)
    else []
  receiveEndpoint := commitment.receiveEndpoint
  receiveSocketSlot :=
    if commitment.resourceClass = .known .asymmetric ∧ commitment.role = .known .targetSet then
      (commitment.sourceSlots.head?.map (·.socketSlot)).getD 0
    else 0
  evidenceDigest := commitment.evidenceDigest
  validationDigest := commitment.validationDigest
  modelCoverage := commitment.probability.modelCoverage

def compactSourceInputFor (commitment : LocalSourceCommitment) : Except Err CompactSourceInput := do
  validateLocalCommitment P commitment
  return compactForm commitment

/-! ## Directional candidates -/

/-- `prfIndex`: the first draw that is not rejected. -/
def prfIndex (key : Digest) (domain : Bytes) (ordinal bound : ℕ) (hbound : 0 < bound) : ℕ :=
  let draw counter := uint64 ((P.hmac key (prpInput domain ordinal counter)).toList.take 8)
  have hdraw : ∃ counter, prpThreshold bound ≤ draw counter :=
    (P.draws key domain ordinal bound hbound).imp fun _ h => h.2
  draw (Nat.find hdraw) % bound

/-- `shuffleUint16` from an index down: a keyed Fisher-Yates permutation. -/
def shuffleFrom (key : Digest) (domain : Bytes) : ℕ → Array UInt16 → Array UInt16
  | 0, values => values
  | index + 1, values =>
    shuffleFrom key domain index
      (values.swapIfInBounds (index + 1) (prfIndex P key domain (index + 1) (index + 2) (by omega)))

def shuffleUint16 (key : Digest) (domain : Bytes) (values : Array UInt16) : Array UInt16 :=
  shuffleFrom P key domain (values.size - 1) values

def portRange (minimum maximum : UInt16) : Array UInt16 :=
  ((List.range (maximum.toNat - minimum.toNat + 1)).map fun index =>
    UInt16.ofNat (minimum.toNat + index)).toArray

/-- The position of each value in a permutation of its indices. -/
def inversePermutation (permutation : Array UInt16) : Array UInt16 :=
  ((List.range permutation.size).map fun value =>
    UInt16.ofNat (permutation.toList.idxOf (UInt16.ofNat value))).toArray

def buildDirectionalCandidates (localSide peer : LocalSourceCommitment) (key : Digest) :
    Except Err (List Candidate) :=
  match localSide.resourceClass with
  | .known .predictive =>
    let indices := ((List.range peer.sourceSlots.length).map UInt16.ofNat).toArray
    let shuffled := shuffleUint16 P key (text
      "predictive-bilateral-pairing\x00initiator\x00responder") indices
    let permutation := if localSide.role = .known .responder then inversePermutation shuffled
      else shuffled
    .ok (localSide.sourceSlots.zipIdx.map fun item =>
      ⟨localSide.role, item.1.socketSlot, item.2, item.1.expectedPublicSourcePort,
        ((peer.sourceSlots.map (·.expectedPublicSourcePort)).getD (permutation.getD item.2 0).toNat 0)⟩)
  | .known .asymmetric =>
    if localSide.role = .known .mappingSet then do
      failIf (peer.receiveEndpoint.valid = false) .planMismatch
      let slots := shuffleUint16 P key (localSide.role.text ++ text "\x00mapping-slots")
        (localSide.sourceSlots.map (·.socketSlot)).toArray
      return slots.toList.zipIdx.map fun item =>
        { role := localSide.role, socketSlot := item.1, ordinal := item.2, targetPort := peer.receiveEndpoint.port }
    else
      let ports := shuffleUint16 P key (localSide.role.text ++ text "\x00target-ports")
        (portRange 1 65535)
      .ok ((ports.toList.take 512).zipIdx.map fun item =>
        ⟨localSide.role, (localSide.sourceSlots.head?.map (·.socketSlot)).getD 0, item.2,
          localSide.receiveEndpoint.port, item.1⟩)
  | .known .hard16KLab =>
    let ports := shuffleUint16 P key (localSide.role.text ++ text "\x00hard-16k")
      (portRange dynamicPortMin dynamicPortMax)
    .ok (ports.toList.zipIdx.map fun item =>
      { role := localSide.role, socketSlot := UInt16.ofNat (item.2 / 1024), ordinal := item.2, targetPort := item.1 })
  | .known .hard32KCandidate =>
    let ports := shuffleUint16 P key (localSide.role.text ++ text "\x00hard-32k")
      (portRange dynamicPortMin dynamicPortMax)
    .ok ((ports.toList ++ ports.toList).zipIdx.map fun item =>
      { role := localSide.role, socketSlot := UInt16.ofNat (item.2 / 1024), ordinal := item.2, targetPort := item.1 })
  | .other _ _ => .error .unsupportedProfile

/-! ## The bilateral plan -/

/-- The roles of the first and of the second direction. -/
def directionRoles : ProfileName → Role × Role
  | .predictiveEdm | .hardBirthday => (.known .initiator, .known .responder)
  | .asymmetricBirthday => (.known .mappingSet, .known .targetSet)

def canonicalCommitments (left right : LocalSourceCommitment) :
    Except Err (LocalSourceCommitment × LocalSourceCommitment) := do
  failIf (left.profile ≠ right.profile ∨ left.resourceClass ≠ right.resourceClass ∨
    left.attemptDigest ≠ right.attemptDigest ∨ left.generation ≠ right.generation ∨
      left.generation = 0 ∨
    allZero left.attemptDigest = true) .planMismatch
  match left.profile with
  | .other _ _ => .error .unsupportedProfile
  | .known profile =>
    if left.role = (directionRoles profile).1 ∧ right.role = (directionRoles profile).2 then
      .ok (left, right)
    else if right.role = (directionRoles profile).1 ∧ left.role = (directionRoles profile).2 then
      .ok (right, left)
    else .error .planMismatch

def directionalPlan (localSide : LocalSourceCommitment) (candidates : List Candidate) : Plan :=
  let plan : Plan :=
    { profile := localSide.profile, resourceClass := localSide.resourceClass, role := localSide.role,
      generation := localSide.generation, universe_ := localSide.universe_, cost := localSide.cost,
      candidates := candidates, probability := localSide.probability, evidenceDigest :=
      localSide.evidenceDigest,
      costDigest := localSide.costDigest, planDigest := Vector.replicate 32 0, executable :=
      localSide.executable }
  { plan with planDigest := digestPlan P plan localSide.attemptDigest }

def buildDirection (key : Digest) (localSide peer : LocalSourceCommitment) : Except Err Plan := do
  let candidates ← buildDirectionalCandidates P localSide peer key
  let shape ← shapeForCommitment localSide
  failIf (candidates.length ≠ shape.candidates) .candidateShapeMismatch
  return directionalPlan P localSide candidates

/-- `BuildBilateralPlan`; a key source is absent or may fail to derive a key. -/
def buildBilateralPlan (left right : LocalSourceCommitment)
    (keySource : Option (PlannerKeyContext → Option Digest)) :
    Except Err BilateralPlan := do
  let (first, second) ← canonicalCommitments left right
  validateLocalCommitment P first
  validateLocalCommitment P second
  let context : PlannerKeyContext := ⟨first.attemptDigest, first.generation, first.profile,
    first.resourceClass, first.evidenceDigest, second.evidenceDigest⟩
  match keySource.bind (· context) with
  | none => .error .invalidPlannerKey
  | some key => do
    failIf (allZero key = true) .invalidPlannerKey
    let firstPlan ← buildDirection P key first second
    let secondPlan ← buildDirection P key second first
    let plan : BilateralPlan := ⟨first.profile, first.resourceClass, first.attemptDigest,
      first.generation,
      (firstPlan, secondPlan), (first.sourceDigest, second.sourceDigest), Vector.replicate 32 0⟩
    return { plan with jointDigest := digestJointCommitment P plan.commitment }

/-! ## Verification -/

def validDirection (direction : DirectionalCommitment) : Bool :=
  !allZero direction.sourceDigest && !allZero direction.triple.plan &&
    !allZero direction.triple.cost && !allZero direction.triple.evidence

/-- The resource classes of a profile. -/
def resourceMatches : ProfileName → ResourceClass → Bool
  | .predictiveEdm, resource => resource == .known .predictive
  | .asymmetricBirthday, resource => resource == .known .asymmetric
  | .hardBirthday, resource => resource == .known .hard16KLab || resource == .known .hard32KCandidate

def validJointCommitmentShape (commitment : JointPlanCommitment) : Bool :=
  commitment.generation != 0 && !allZero commitment.attemptDigest &&
    !allZero commitment.jointDigest && match commitment.profile with
    | .other _ _ => false
    | .known profile =>
      resourceMatches profile commitment.resourceClass &&
        commitment.directions.1.role == (directionRoles profile).1 &&
        commitment.directions.2.role == (directionRoles profile).2 &&
          validDirection commitment.directions.1 &&
        validDirection commitment.directions.2

/-- The check of the candidate at an index. -/
def validCandidate (plan : Plan) (source : LocalSourceCommitment) (shape : PlanShape) (index : ℕ)
    (candidate : Candidate) : Prop :=
  candidate.role = plan.role ∧ candidate.ordinal = index ∧ candidate.targetPort ≠ 0 ∧
    candidate.socketSlot.toNat < shape.cost.sockets ∧
    match source.resourceClass with
    | .known .predictive =>
      ∃ slot ∈ source.sourceSlots[index]?, candidate.socketSlot = slot.socketSlot ∧
        candidate.expectedSourcePort = slot.expectedPublicSourcePort
    | .known .asymmetric =>
      (source.role = .known .mappingSet → candidate.expectedSourcePort = 0) ∧
        (source.role = .known .targetSet →
          candidate.socketSlot = (source.sourceSlots.head?.map (·.socketSlot)).getD 0 ∧
            candidate.expectedSourcePort = source.receiveEndpoint.port)
    | .known .hard16KLab | .known .hard32KCandidate => candidate.expectedSourcePort = 0
    | .other _ _ => False

instance (plan : Plan) (source : LocalSourceCommitment) (shape : PlanShape) (index : ℕ)
    (candidate : Candidate) : Decidable (validCandidate plan source shape index candidate) := by
  unfold validCandidate
  rcases source.resourceClass with ⟨_ | _ | _ | _⟩ | _ <;> infer_instance

def validatePlanCandidates (plan : Plan) (source : LocalSourceCommitment) (shape : PlanShape) :
    Except Err Unit := do
  failIf (plan.candidates.length ≠ shape.candidates) .planMismatch
  failIf (¬ ∀ item ∈ plan.candidates.zipIdx, validCandidate plan source shape item.2 item.1)
    .planMismatch
  failIf (¬ (plan.candidates.map fun c => (c.socketSlot, c.targetPort)).Nodup) .planMismatch

def verifyPlanAgainstCommitment (plan : Plan) (source : LocalSourceCommitment)
    (joint : JointPlanCommitment) :
    Except Err Unit := do
  validateLocalCommitment P source
  failIf (validJointCommitmentShape joint = false ∨
    joint.jointDigest ≠ digestJointCommitment P joint) .planMismatch
  failIf (joint.profile ≠ source.profile ∨ joint.resourceClass ≠ source.resourceClass ∨
    joint.attemptDigest ≠ source.attemptDigest ∨ joint.generation ≠ source.generation) .planMismatch
  failIf (plan.profile ≠ source.profile ∨ plan.resourceClass ≠ source.resourceClass ∨
    plan.role ≠ source.role ∨
    plan.generation ≠ source.generation ∨ plan.universe_ ≠ source.universe_ ∨ plan.cost ≠ source.cost ∨
    plan.probability ≠ source.probability ∨ plan.evidenceDigest ≠ source.evidenceDigest ∨
    plan.costDigest ≠ source.costDigest ∨ plan.executable ≠ source.executable ∨
    plan.planDigest ≠ digestPlan P plan source.attemptDigest) .planMismatch
  let shape ← shapeForCommitment source
  validatePlanCandidates plan source shape
  let direction : DirectionalCommitment := ⟨plan.role, source.sourceDigest, plan.digests⟩
  failIf (joint.directions.1 ≠ direction ∧ joint.directions.2 ≠ direction) .planMismatch

end Winkyou.HardNat
