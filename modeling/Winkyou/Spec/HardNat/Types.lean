import Winkyou.Lib.Named
import Winkyou.Spec.Ledger.Frame
import Mathlib.Data.List.Sort

/-!
# Evidence of one hard-NAT attempt (`hardnatplan/types.go`, `encoding.go`)

The values that the planner reads: what the local machine observed of its NAT (mapping,
filtering, pooling, allocation samples and RFC 5780 transcripts), the manifest of transactions
that were issued before the observation, and the big-endian encoding that every digest is
taken over. SHA-256 and HMAC-SHA-256 are the parameters `sha256` and `hmac`.
-/

namespace Winkyou.HardNat

abbrev Digest := Vector UInt8 32
abbrev TransactionID := Vector UInt8 12

instance : LawfulBEq TransactionID := inferInstance

def allZero {n : ℕ} (v : Vector UInt8 n) : Bool := v.toList.all (· == 0)

/-! ## Errors -/

/-- The errors that the modelled functions return. -/
inductive Err
  | invalidEvidence
  | emptyValidationDigest
  | evidenceInsufficient
  | unsupportedEvidence
  | unsupportedProfile
  | unsupportedRole
  | candidateShapeMismatch
  | insufficientBudget
  | invalidPlannerKey
  | planMismatch
  | canonicalProbability
  | invalidProbabilityInput
  | probabilityInputOverflow
  | rfc5780Message
  | rfc5780Order
  deriving DecidableEq, Repr

/-! ## Enumerations

Each is a Go string type: its constants, and every other text. -/

def text (s : String) : Bytes := utf8 s.toList

/-- The mapping behaviours of RFC 4787, by name. -/
inductive MappingName
  | unknown
  | eim
  | adm
  | apdm
  deriving DecidableEq

def MappingName.text : MappingName → Bytes
  | .unknown => HardNat.text "mapping_unknown"
  | .eim => HardNat.text "eim"
  | .adm => HardNat.text "adm"
  | .apdm => HardNat.text "apdm"

abbrev MappingBehavior := Named MappingName.text

def MappingBehavior.valid (behavior : MappingBehavior) : Bool :=
  behavior == .known .eim || behavior == .known .adm || behavior == .known .apdm

/-- The mapping depends on the destination. -/
def MappingBehavior.endpointDependent (behavior : MappingBehavior) : Bool :=
  behavior == .known .adm || behavior == .known .apdm

inductive FilteringName
  | unknown
  | eif
  | adf
  | apdf
  deriving DecidableEq

def FilteringName.text : FilteringName → Bytes
  | .unknown => HardNat.text "filtering_unknown"
  | .eif => HardNat.text "eif"
  | .adf => HardNat.text "adf"
  | .apdf => HardNat.text "apdf"

abbrev FilteringBehavior := Named FilteringName.text

/-- Known, and not `unknown`. -/
def FilteringBehavior.valid (behavior : FilteringBehavior) : Bool :=
  behavior == .known .eif || behavior == .known .adf || behavior == .known .apdf

inductive AllocationBehavior
  | sequentialUniform
  | monotonicNonuniform
  | apparentlyRandom
  | insufficientData
  deriving DecidableEq, Repr

def AllocationBehavior.text : AllocationBehavior → String
  | .sequentialUniform => "sequential_uniform"
  | .monotonicNonuniform => "monotonic_nonuniform"
  | .apparentlyRandom => "apparently_random"
  | .insufficientData => "insufficient_data"

inductive SourceName
  | authorizedGateway
  | rfc5780
  | peerReflector
  | localTomography
  deriving DecidableEq

def SourceName.text : SourceName → Bytes
  | .authorizedGateway => HardNat.text "authorized_gateway"
  | .rfc5780 => HardNat.text "rfc5780"
  | .peerReflector => HardNat.text "peer_reflector"
  | .localTomography => HardNat.text "local_tomography"

abbrev EvidenceSource := Named SourceName.text

/-- How much a source counts when entries are merged. -/
def EvidenceSource.strength : EvidenceSource → ℕ
  | .known .authorizedGateway => 4
  | .known .rfc5780 => 3
  | .known .peerReflector => 2
  | .known .localTomography => 1
  | .other _ _ => 0

inductive OriginName
  | localTransaction
  | remoteReport
  deriving DecidableEq

def OriginName.text : OriginName → Bytes
  | .localTransaction => HardNat.text "local_transaction"
  | .remoteReport => HardNat.text "remote_report"

abbrev EvidenceOrigin := Named OriginName.text

/-- The kinds of issued transactions. -/
inductive KindName
  | mapping
  | filtering
  | ipPooling
  | allocation
  | rfc5780
  deriving DecidableEq

def KindName.text : KindName → Bytes
  | .mapping => HardNat.text "mapping"
  | .filtering => HardNat.text "filtering"
  | .ipPooling => HardNat.text "ip_pooling"
  | .allocation => HardNat.text "allocation"
  | .rfc5780 => HardNat.text "rfc5780_exchange"

abbrev EvidenceKind := Named KindName.text

/-- `DiscoveryStep`. -/
inductive StepName
  | primary
  | sameAddressOtherPort
  | otherAddress
  | changeIPPort
  | changePort
  deriving DecidableEq

def StepName.text : StepName → Bytes
  | .primary => HardNat.text "primary"
  | .sameAddressOtherPort => HardNat.text "same_address_other_port"
  | .otherAddress => HardNat.text "other_address"
  | .changeIPPort => HardNat.text "change_ip_port"
  | .changePort => HardNat.text "change_port"

abbrev DiscoveryStep := Named StepName.text

/-! ## Addresses -/

def addressFamilyIPv4 : UInt8 := 4
def addressFamilyIPv6 : UInt8 := 6

/-- An IPv4 address is in the first four bytes; the other twelve are meant to be zero. -/
structure Address where
  family : UInt8
  bytes : Vector UInt8 16
  deriving DecidableEq

namespace Address

def zero : Address := ⟨0, Vector.replicate 16 0⟩

/-- `Address4`. -/
def ofIPv4 (value : Vector UInt8 4) : Address :=
  ⟨addressFamilyIPv4, (value ++ (Vector.replicate 12 0 : Vector UInt8 12)).cast rfl⟩

/-- `Address6`. -/
def ofIPv6 (value : Vector UInt8 16) : Address := ⟨addressFamilyIPv6, value⟩

def valid (address : Address) : Bool :=
  if address.family = addressFamilyIPv4 then
    (address.bytes.toList.drop 4).all (· == 0) && (address.bytes.toList.take 4).any (· != 0)
  else if address.family = addressFamilyIPv6 then address.bytes.toList.any (· != 0)
  else false

def canonicalBytes (address : Address) : Bytes :=
  address.family :: address.bytes.toList.take (if address.family = addressFamilyIPv4 then 4 else 16)

end Address

structure AddressPort where
  address : Address
  port : UInt16
  deriving DecidableEq

def AddressPort.zero : AddressPort := ⟨.zero, 0⟩

def AddressPort.valid (endpoint : AddressPort) : Bool :=
  endpoint.address.valid && endpoint.port != 0

/-! ## Evidence -/

structure EvidenceMeta where
  source : EvidenceSource
  origin : EvidenceOrigin
  observerAddress : Address
  observerPort : UInt16
  socketSlot : UInt16
  transactionID : TransactionID
  attemptDigest : Digest
  generation : UInt64
  observedAtMilli : Int64
  deriving DecidableEq

/-- The endpoint that an entry says it was observed at. -/
def EvidenceMeta.observer (m : EvidenceMeta) : AddressPort := ⟨m.observerAddress, m.observerPort⟩

structure MappingEvidence where
  md : EvidenceMeta
  behavior : MappingBehavior
  deriving DecidableEq

structure FilteringEvidence where
  md : EvidenceMeta
  behavior : FilteringBehavior
  deriving DecidableEq

structure IPPoolingEvidence where
  md : EvidenceMeta
  stable : Bool
  poolDigest : Digest
  deriving DecidableEq

structure AllocationSample where
  md : EvidenceMeta
  socketSlot : UInt16
  ordinal : UInt32
  mappedAddress : Address
  mappedPort : UInt16
  success : Bool
  deriving DecidableEq

/-- A request of the discovery and the reply to it, as they were on the wire. -/
structure RFC5780Exchange where
  step : DiscoveryStep
  transactionID : TransactionID
  requestDestination : AddressPort
  responseSource : AddressPort
  observedAtMilli : Int64
  received : Bool
  request : Bytes
  response : Bytes
  deriving DecidableEq

def rfc5780ExchangeCount : ℕ := 5

theorem two_lt_rfc5780ExchangeCount : 2 < rfc5780ExchangeCount := by decide
theorem four_lt_rfc5780ExchangeCount : 4 < rfc5780ExchangeCount := by decide

structure RFC5780Transcript where
  origin : EvidenceOrigin
  socketSlot : UInt16
  exchanges : Vector RFC5780Exchange rfc5780ExchangeCount
  deriving DecidableEq

structure IssuedTransaction where
  kind : EvidenceKind
  transactionID : TransactionID
  source : EvidenceSource
  observer : AddressPort
  socketSlot : UInt16
  ordinal : UInt32
  notBeforeMilli : Int64
  notAfterMilli : Int64
  deriving DecidableEq

/-- `TrustedValidationContext`: fixed by the attempt authority before responses arrive. -/
structure TrustedValidationContext where
  nowMilli : Int64
  expectedAttemptDigest : Digest
  expectedMachineScopeDigest : Digest
  expectedPeerDigest : Digest
  expectedObservationSetDigest : Digest
  expectedSocketOwnerDigest : Digest
  expectedGeneration : UInt64
  expectedStartedAtMilli : Int64
  expectedFinishedAtMilli : Int64
  expectedExpiresAtMilli : Int64
  issued : List IssuedTransaction
  deriving DecidableEq

structure EvidenceGraph where
  attemptDigest : Digest
  machineScopeDigest : Digest
  peerDigest : Digest
  observationSetDigest : Digest
  socketOwnerDigest : Digest
  generation : UInt64
  startedAtMilli : Int64
  finishedAtMilli : Int64
  expiresAtMilli : Int64
  mapping : List MappingEvidence
  filtering : List FilteringEvidence
  ipPooling : List IPPoolingEvidence
  allocation : List AllocationSample
  rfc5780 : List RFC5780Transcript
  deriving DecidableEq

/-! ## Encoding -/

def appendUint16 (value : UInt16) : Bytes :=
  [UInt8.ofNat (value.toNat / 256), UInt8.ofNat value.toNat]

def appendUint32 (value : ℕ) : Bytes := putUint32 value

/-- Eight bytes, big endian. -/
def appendUint64 (value : UInt64) : Bytes :=
  putUint32 (value.toNat / 4294967296) ++ putUint32 value.toNat

def appendInt64 (value : Int64) : Bytes := appendUint64 value.toUInt64

def appendString (value : Bytes) : Bytes := appendUint32 value.length ++ value

def appendAddress (address : Address) : Bytes := address.canonicalBytes

def appendBool (value : Bool) : Bytes := [if value then 1 else 0]

/-- A record with its length before it. -/
def appendRecord (record : Bytes) : Bytes := appendUint32 record.length ++ record

def encodeEvidenceRecord (kind : UInt8) (md : EvidenceMeta) (value extra : Bytes) : Bytes :=
  kind :: (appendString md.source.text ++ appendString md.origin.text ++
    appendAddress md.observerAddress ++
    appendUint16 md.observerPort ++ appendUint16 md.socketSlot ++ md.transactionID.toList ++
      md.attemptDigest.toList ++
    appendUint64 md.generation ++ appendInt64 md.observedAtMilli ++ appendString value ++
      appendRecord extra)

def encodeMappingEvidence (entry : MappingEvidence) : Bytes :=
  encodeEvidenceRecord 1 entry.md entry.behavior.text []

def encodeFilteringEvidence (entry : FilteringEvidence) : Bytes :=
  encodeEvidenceRecord 2 entry.md entry.behavior.text []

def encodeIPPoolingEvidence (entry : IPPoolingEvidence) : Bytes :=
  encodeEvidenceRecord 3 entry.md [] (appendBool entry.stable ++ entry.poolDigest.toList)

/-- An allocation sample as the digest of the evidence reads it. -/
def encodeAllocationSample (entry : AllocationSample) : Bytes :=
  encodeEvidenceRecord 4 entry.md [] (appendUint16 entry.socketSlot ++
    appendUint32 entry.ordinal.toNat ++
    appendAddress entry.mappedAddress ++ appendUint16 entry.mappedPort ++ appendBool entry.success)

def encodeRFC5780Exchange (exchange : RFC5780Exchange) : Bytes :=
  appendString exchange.step.text ++ exchange.transactionID.toList ++
    appendAddress exchange.requestDestination.address ++ appendUint16 exchange.requestDestination.port ++
    appendAddress exchange.responseSource.address ++ appendUint16 exchange.responseSource.port ++
    appendInt64 exchange.observedAtMilli ++ appendBool exchange.received ++
      appendRecord exchange.request ++
    appendRecord exchange.response

def encodeRFC5780Transcript (transcript : RFC5780Transcript) : Bytes :=
  5 :: (appendString transcript.origin.text ++ appendUint16 transcript.socketSlot ++
    appendUint32 rfc5780ExchangeCount ++
    transcript.exchanges.toList.flatMap fun exchange => appendRecord (encodeRFC5780Exchange exchange))

def encodeIssuedTransaction (issued : IssuedTransaction) : Bytes :=
  appendString issued.kind.text ++ issued.transactionID.toList ++ appendString issued.source.text ++
    appendAddress issued.observer.address ++ appendUint16 issued.observer.port ++
      appendUint16 issued.socketSlot ++
    appendUint32 issued.ordinal.toNat ++ appendInt64 issued.notBeforeMilli ++
      appendInt64 issued.notAfterMilli

/-- `sort.Slice` by `bytes.Compare` of the encodings. -/
def sortBy {α : Type} (encode : α → Bytes) (entries : List α) : List α :=
  entries.insertionSort fun left right => encode left ≤ encode right

/-- The number of records, and each with its length before it. -/
def appendRecords (records : List Bytes) : Bytes :=
  appendUint32 records.length ++ (sortBy id records).flatMap appendRecord

end Winkyou.HardNat
