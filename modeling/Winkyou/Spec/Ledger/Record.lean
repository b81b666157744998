import Winkyou.Spec.Governor.Limits

/-!
# Pairing journal records (`pairing_ledger.go`, `pairing_ledger_format.go`)

The append-only pairing journal partitions its records into two classes, ordinary
pairing admissions and the hard-NAT campaign. This file has the record and request
types, the compiled constants and every validator a record passes before it is
written or after it is read.
-/

namespace Winkyou

/-! ## Compiled constants -/

def pairingLedgerSchemaVersion : ℤ := 1
def maxPairingLedgerBytes : ℕ := 4194304
def maxPairingLedgerRecords : ℕ := 8192
/-- The longest frame; the length field before it is not counted. -/
def maxPairingLedgerFrameBytes : ℕ := 16384
def pairingAdmissionMinimumInterval : Duration := 60 * second
def pairingAdmissionOneHourWindow : Duration := hour
def pairingAdmissionOneHourLimit : ℤ := 4
def pairingAdmissionDayWindow : Duration := 24 * hour
def pairingAdmissionDayLimit : ℤ := 12
/-- What the admissions of a day may send together. -/
def pairingAdmissionDayPackets : ℤ := 2048
def pairingAdmissionFailureLimit : ℕ := 3
def pairingAdmissionCircuitHorizon : Duration := 6 * hour
def pairingLedgerClockRollbackSkew : Duration := 2 * minute
def pairingCredentialMaxLifetime : Duration := 10 * minute
/-- The limits of a hard NAT campaign are over this window. -/
def hardNATCampaignWindow : Duration := 24 * hour
def hardNATCampaignAdmissions : ℤ := 1
def hardNATCampaignPackets : ℤ := 16432
def maxSafetyTripNoteLen : ℕ := 1024

/-! ## Enumerations of the journal

Each is a Go string type; `unknown` stands for every text the code does not name. -/

inductive PairingRecordType
  | init
  | rebuildBaseline
  | burnAndAdmit
  | finish
  | circuitReset
  | unknown (text : String)
  deriving DecidableEq, Repr

def PairingRecordType.text : PairingRecordType → String
  | .init => "initialize"
  | .rebuildBaseline => "rebuild_baseline"
  | .burnAndAdmit => "burn_and_admit"
  | .finish => "finish"
  | .circuitReset => "circuit_reset"
  | .unknown text => text

/-- `PairingLedgerRecordClass`; the ordinary class is the omitted field. -/
inductive RecordClass
  | ordinary
  | hardNATCampaign
  | unknown (text : String)
  deriving DecidableEq, Repr

def RecordClass.text : RecordClass → String
  | .ordinary => ""
  | .hardNATCampaign => "hard_nat_campaign/1"
  | .unknown text => text

def RecordClass.valid (c : RecordClass) : Bool := c == .ordinary || c == .hardNATCampaign

/-- `PairingTerminalReason`; `none` is the empty text of a record without one. -/
inductive TerminalReason
  | none
  | success
  | cancelled
  | expired
  | protocolError
  | scopeChanged
  | carrierError
  | unknown (text : String)
  deriving DecidableEq, Repr

def TerminalReason.text : TerminalReason → String
  | .none => ""
  | .success => "success"
  | .cancelled => "cancelled"
  | .expired => "expired"
  | .protocolError => "protocol_error"
  | .scopeChanged => "scope_changed"
  | .carrierError => "carrier_error"
  | .unknown text => text

def TerminalReason.valid : TerminalReason → Bool
  | .success | .cancelled | .expired | .protocolError | .scopeChanged | .carrierError => true
  | .none | .unknown _ => false

def Scope.text : Scope → String
  | .machine => "machine"
  | .userAcknowledged => "user_acknowledged"
  | .unknown text => text

/-- `Scope("")`, the scope of every record that is not an admission. -/
def Scope.empty : Scope := .unknown ""

/-! ## Records, requests and receipts -/

/-- `PairingAdmissionEnvelope`: the worst-case cost charged by an admission. -/
structure Envelope where
  sockets : ℤ := 0
  targets : ℤ := 0
  packetsPerSecond : ℤ := 0
  packets : ℤ := 0
  fiveTuples : ℤ := 0
  durationMillis : ℤ := 0
  heavyweight : Bool := false
  deriving DecidableEq, Repr

def Envelope.resources (e : Envelope) : Resources :=
  ⟨e.sockets, e.targets, e.packetsPerSecond, e.packets, e.fiveTuples⟩

structure Record where
  schemaVersion : ℤ := pairingLedgerSchemaVersion
  sequence : ℕ
  type : PairingRecordType
  recordedAt : Time
  recordClass : RecordClass := .ordinary
  credentialID : String := ""
  attemptID : String := ""
  contextDigest : String := ""
  ownerInstanceID : String := ""
  scope : Scope := .empty
  expiresAt : Time := .zero
  envelope : Envelope := {}
  reason : TerminalReason := .none
  resetNote : String := ""
  deriving DecidableEq, Repr

structure AdmissionRequest where
  recordClass : RecordClass
  credentialID : String
  attemptID : String
  contextDigest : String
  scope : Scope
  expiresAt : Time
  envelope : Envelope
  deriving DecidableEq, Repr

/-- `PairingAdmissionReceipt`. Its fields are unexported: only a successful `Admit`
constructs one. -/
structure Receipt where
  sequence : ℕ
  recordClass : RecordClass
  credentialID : String
  attemptID : String
  contextDigest : String
  ownerInstanceID : String
  committedAt : Time
  deriving DecidableEq, Repr

/-! ## Errors -/

inductive LedgerSentinel
  | notInitialized
  | indeterminate
  | credentialUsed
  | rateLimited
  | circuitOpen
  | capacity
  | clockRollback
  | resetRejected
  | invalidRequest
  | machineScopeRequired
  | campaignRateLimited
  | campaignCircuitOpen
  deriving DecidableEq, Repr

def LedgerSentinel.text : LedgerSentinel → String
  | .notInitialized => "pairing ledger is not initialized"
  | .indeterminate => "pairing ledger is indeterminate"
  | .credentialUsed => "pairing credential is already burned"
  | .rateLimited => "pairing admission persistent budget is exhausted"
  | .circuitOpen => "pairing admission circuit is open"
  | .capacity => "pairing ledger capacity is exhausted"
  | .clockRollback => "pairing ledger clock moved backwards"
  | .resetRejected => "pairing ledger reset was rejected"
  | .invalidRequest => "invalid pairing ledger request"
  | .machineScopeRequired => "pairing ledger requires machine governor scope"
  | .campaignRateLimited => "hard NAT campaign persistent budget is exhausted"
  | .campaignCircuitOpen => "hard NAT campaign circuit is open"

inductive RecordErr
  /-- `errors.New` or `fmt.Errorf` without a wrapped sentinel. -/
  | plain (text : String)
  /-- A sentinel, returned as it is. -/
  | sentinel (cause : LedgerSentinel)
  /-- `fmt.Errorf("%w: …", cause)`. -/
  | wrap (cause : LedgerSentinel) (detail : String)
  /-- An error of `limits.go`. -/
  | limits (e : LimitsErr)
  deriving DecidableEq, Repr

/-! ## Validators -/

/-- `validatePairingOpaqueID`: exactly 16 bytes in unpadded base64url. -/
def validatePairingOpaqueID (field value : String) : Except RecordErr Unit :=
  .failIf (¬ ((base64Decode value.toList).any fun decoded =>
      decoded.length == 16 && base64Encode decoded == value.toList))
    (.wrap .invalidRequest (field ++ " must encode exactly 16 bytes"))

/-- `validatePairingOwnerInstanceID`: 16 bytes in lowercase hexadecimal. -/
def validatePairingOwnerInstanceID (value : String) : Except RecordErr Unit :=
  .failIf (¬ ((hexDecode value.toList).any fun decoded =>
      decoded.length == 16 && hexEncode decoded == value.toList))
    (.wrap .invalidRequest "owner instance id must be 32 lowercase hexadecimal characters")

def validatePairingResetNote (note : String) : Except RecordErr Unit :=
  .failIf (trimSpace note ≠ note ∨ note = "" ∨ note.utf8ByteSize > maxSafetyTripNoteLen ∨
      note.toList.any isControl)
    (.plain "pairing circuit reset note is missing, malformed, or too long")

def resourceMaximum (left right : Resources) : Resources where
  sockets := max left.sockets right.sockets
  targets := max left.targets right.targets
  packetsPerSecond := max left.packetsPerSecond right.packetsPerSecond
  packets := max left.packets right.packets
  fiveTuples := max left.fiveTuples right.fiveTuples

/-- `validatePairingEnvelope`: a positive reservation within the larger of the machine
and manual per-attempt ceilings. -/
def validatePairingEnvelope (envelope : Envelope) : Except RecordErr Unit := do
  let resources := envelope.resources
  resources.validateNonNegative.mapError fun e => .wrap .invalidRequest e.text
  .failIf (resources = {}) (.wrap .invalidRequest "envelope reserves no resources")
  .failIf (envelope.packets ≤ 0) (.wrap .invalidRequest "packet reservation must be positive")
  .failIf (envelope.durationMillis ≤ 0) (.wrap .invalidRequest "duration must be positive")
  let machine ← (hardLimits .phase1Machine).mapError .limits
  let manual ← (hardLimits .phase1ManualTraversal).mapError .limits
  let hard := resourceMaximum machine.perAttempt manual.perAttempt
  (resourcesWithin "pairing_per_attempt_" resources hard).mapError .limits
  let maximumDuration := max machine.maxAttemptDuration manual.maxAttemptDuration
  .failIf (envelope.durationMillis > maximumDuration / millisecond)
    (.limits (.limit ⟨"pairing_attempt_duration_ms", envelope.durationMillis,
      maximumDuration / millisecond⟩))
  .failIf (envelope.heavyweight ∧ machine.maxHeavyweightAttempts = 0 ∧
    manual.maxHeavyweightAttempts = 0) (.wrap .invalidRequest "heavyweight attempt is unavailable")

/-- `hardNATCampaignEnvelope`: the one envelope a campaign may declare. -/
def hardNATCampaignEnvelope : Envelope where
  sockets := 16
  targets := 16400
  packetsPerSecond := 512
  packets := 16432
  fiveTuples := 16400
  durationMillis := 47000
  heavyweight := true

def validatePairingAdmissionRequest (r : AdmissionRequest) : Except RecordErr Unit := do
  .failIf (¬ r.recordClass.valid)
    (.wrap .invalidRequest ("unknown record class \"" ++ r.recordClass.text ++ "\""))
  .failIf (r.scope ≠ .machine) (.sentinel .machineScopeRequired)
  validatePairingOpaqueID "credential id" r.credentialID
  validatePairingOpaqueID "attempt id" r.attemptID
  .failIf (r.credentialID = r.attemptID)
    (.wrap .invalidRequest "credential and attempt ids must differ")
  .failIf (¬ ((hexDecode r.contextDigest.toList).any fun digest =>
      digest.length == 32 && hexEncode digest == r.contextDigest.toList))
    (.wrap .invalidRequest "context digest must be 32 lowercase hexadecimal bytes")
  .failIf (r.expiresAt.isZero ∨ ¬ r.expiresAt.isUTC) (.wrap .invalidRequest "expiry must be UTC")
  if r.recordClass = .hardNATCampaign then
    .failIf (r.envelope ≠ hardNATCampaignEnvelope)
      (.wrap .invalidRequest "hard NAT campaign envelope is not exact")
  else validatePairingEnvelope r.envelope

/-- The fields that only an admission carries are empty. -/
def Record.noAdmissionFields (r : Record) : Bool :=
  r.contextDigest == "" && r.ownerInstanceID == "" && r.scope == .empty && r.expiresAt.isZero &&
    decide (r.envelope = {})

/-- The admission request a burn record was made from. -/
def Record.request (r : Record) : AdmissionRequest where
  recordClass := r.recordClass
  credentialID := r.credentialID
  attemptID := r.attemptID
  contextDigest := r.contextDigest
  scope := r.scope
  expiresAt := r.expiresAt
  envelope := r.envelope

/-- The fields of a record by its type: the switch of `validatePairingJournalRecord`. -/
def validateRecordFields (r : Record) : Except RecordErr Unit :=
  match r.type with
  | .init | .rebuildBaseline =>
    .failIf (r.recordClass ≠ .ordinary ∨ r.credentialID ≠ "" ∨ r.attemptID ≠ "" ∨
        ¬ r.noAdmissionFields ∨ r.reason ≠ .none ∨ r.resetNote ≠ "")
      (.plain "pairing journal initialization record has unexpected fields")
  | .burnAndAdmit => do
    validatePairingAdmissionRequest r.request
    validatePairingOwnerInstanceID r.ownerInstanceID
    .failIf (¬ r.recordedAt.before r.expiresAt ∨
        r.expiresAt.sub r.recordedAt > pairingCredentialMaxLifetime)
      (.plain "pairing admission expiry is outside the ten-minute lifetime")
    .failIf (r.reason ≠ .none ∨ r.resetNote ≠ "")
      (.plain "pairing admission record has terminal-only fields")
  | .finish => do
    .failIf (¬ r.recordClass.valid)
      (.plain ("invalid pairing ledger record class \"" ++ r.recordClass.text ++ "\""))
    validatePairingOpaqueID "credential id" r.credentialID
    validatePairingOpaqueID "attempt id" r.attemptID
    .failIf (¬ r.reason.valid) (.plain ("invalid pairing terminal reason \"" ++ r.reason.text ++ "\""))
    .failIf (¬ r.noAdmissionFields ∨ r.resetNote ≠ "")
      (.plain "pairing finish record has unexpected fields")
  | .circuitReset => do
    .failIf (¬ r.recordClass.valid)
      (.plain ("invalid pairing ledger record class \"" ++ r.recordClass.text ++ "\""))
    validatePairingResetNote r.resetNote
    .failIf (r.credentialID ≠ "" ∨ r.attemptID ≠ "" ∨ ¬ r.noAdmissionFields ∨ r.reason ≠ .none)
      (.plain "pairing circuit reset has unexpected fields")
  | .unknown text => .error (.plain ("unknown pairing journal record type \"" ++ text ++ "\""))

def validatePairingJournalRecord (r : Record) : Except RecordErr Unit := do
  .failIf (r.schemaVersion ≠ pairingLedgerSchemaVersion)
    (.plain ("pairing journal schema version " ++ toString r.schemaVersion ++ ", want " ++
      toString pairingLedgerSchemaVersion))
  .failIf (r.sequence = 0) (.plain "pairing journal sequence is zero")
  .failIf (r.recordedAt.isZero ∨ ¬ r.recordedAt.isUTC)
    (.plain "pairing journal recorded_at must be UTC")
  validateRecordFields r

end Winkyou
