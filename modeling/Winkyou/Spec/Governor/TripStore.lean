import Winkyou.Spec.Governor.SafetyTrip
import Winkyou.Spec.Ledger.Frame

/-!
# The safety-trip file (`safety_trip.go`)

The file is one latch byte and a checksummed record. A trip writes the latch first and then the
record, a reset the record first and then the latch, all in place. Every write and every truncation
is a step of its own; a process can stop after any of them (`Disk.left`), and the file stays as it
is then. As for the journal, SHA-256 and the JSON decoder are parameters, the decoder with its round
trip.
-/

namespace Winkyou.TripStore

def safetyTripSchemaVersion : ℤ := 1
def maxSafetyTripFileBytes : ℕ := 16384

/-- `'C'`. -/
def safetyTripLatchClear : UInt8 := 67

/-- `'T'`. -/
def safetyTripLatchTripped : UInt8 := 84

/-! ## Records -/

/-- The `SafetyTripState` of a record: any text can stand in the file. -/
inductive RecordState
  | clear
  | tripped
  | unknown (text : String)
  deriving DecidableEq, Repr

def RecordState.text : RecordState → String
  | .clear => "clear"
  | .tripped => "tripped"
  | .unknown text => text

/-- `SafetyTripRecord`; the defaults are the zero values. -/
structure SafetyTripRecord where
  schemaVersion : ℤ := 0
  state : RecordState := .unknown ""
  sequence : ℕ := 0
  updatedAt : Time := .zero
  reason : SafetyTripReason := .unknown ""
  detail : String := ""
  peerID : String := ""
  attemptID : String := ""
  buildVersion : String := ""
  resetNote : String := ""
  deriving DecidableEq, Repr

inductive TripErr
  /-- `errors.New`, or `fmt.Errorf` without a wrapped error -/
  | plain (text : String)
  /-- an error of a validator that the governor shares -/
  | governor (e : GovernorErr)
  /-- an error of `json.Marshal` -/
  | marshal (e : RecordErr)
  /-- `ErrSafetyStateCorrupt` with its cause -/
  | corrupt (cause : TripErr)
  /-- `ErrSafetyResetRejected` with a detail -/
  | rejected (detail : String)
  /-- `*SafetyTripError` -/
  | blocked (status : SafetyTripStatus)
  /-- a write that did not take effect -/
  | write (step : String)
  deriving DecidableEq, Repr

/-- `Error()`, for the errors that end up in the detail of a status. -/
def TripErr.text : TripErr → String
  | .plain text | .marshal (.plain text) | .write text => text
  | .governor (.invalidRequest detail) => "invalid governor request: " ++ detail
  | .corrupt cause => "safety trip state is corrupt or indeterminate: " ++ cause.text
  | .rejected detail => "safety trip reset was rejected: " ++ detail
  | .governor _ | .marshal _ | .blocked _ => ""

/-- The fields of a record by its state: the switch of `validateSafetyTripRecord`. -/
def validateRecordState (record : SafetyTripRecord) : Except TripErr Unit :=
  match record.state with
  | .clear => do
    .failIf (record.reason.text ≠ "" ∨ record.detail ≠ "" ∨ record.peerID ≠ "" ∨
      record.attemptID ≠ "") (.plain "clear record contains trip-only fields")
    .failIf (record.sequence > 0 ∧ record.resetNote =
      "") (.plain "reset clear record has no operator note")
  | .tripped => do
    .failIf (record.reason.valid = false) (.plain ("unknown trip reason \"" ++ record.reason.text ++
      "\""))
    .failIf (record.sequence = 0) (.plain "tripped record sequence is zero")
    .failIf (record.resetNote ≠ "") (.plain "tripped record contains a reset note")
  | .unknown text => .error (.plain ("unknown record state \"" ++ text ++ "\""))

def validateSafetyTripRecord (record : SafetyTripRecord) : Except TripErr Unit := do
  .failIf (record.schemaVersion ≠ safetyTripSchemaVersion)
    (.plain ("schema version is " ++ toString record.schemaVersion ++ ", want " ++
      toString safetyTripSchemaVersion))
  .failIf (record.updatedAt.isZero = true) (.plain "updated_at is missing")
  (validateSafetyDiagnosticText "detail" record.detail maxSafetyTripDetailLen true).mapError .plain
  (validateSafetyDiagnosticText "reset note" record.resetNote maxSafetyTripNoteLen true).mapError .plain
  (validateSafetyDiagnosticText "build version" record.buildVersion maxSafetyTripBuildLen
    true).mapError .plain
  (if record.peerID ≠ "" then validateIdentifier "peer id" record.peerID else .ok ()).mapError .governor
  (if record.attemptID ≠ "" then validateIdentifier "attempt id" record.attemptID
    else .ok ()).mapError .governor
  validateRecordState record

/-! ## The envelope -/

/-- `json.Marshal(record)`. -/
def SafetyTripRecord.marshal (record : SafetyTripRecord) : Except TripErr (List Char) := do
  let updatedAt ← (marshalTime record.updatedAt).mapError .marshal
  .ok (jsonObject (
    [("schema_version", jsonInt record.schemaVersion), ("state", jsonString record.state.text),
      ("sequence", jsonInt record.sequence), ("updated_at", updatedAt)] ++
    omitEmpty "reason" record.reason.text ++
    omitEmpty "detail" record.detail ++
    omitEmpty "peer_id" record.peerID ++
    omitEmpty "attempt_id" record.attemptID ++
    omitEmpty "build_version" record.buildVersion ++
    omitEmpty "reset_note" record.resetNote))

/-- `json.Marshal(safetyTripEnvelope{…})`. -/
def marshalEnvelope (record : SafetyTripRecord) (checksum : List Char) :
    Except TripErr (List Char) := do
  let text ← record.marshal
  .ok (jsonObject [("record", text), ("checksum", '\x22' :: (checksum ++ ['\x22']))])

def encodeSafetyTripRecord (sha : Sha256) (record : SafetyTripRecord) : Except TripErr Bytes := do
  validateSafetyTripRecord record
  let recordPayload ← record.marshal
  let payload ← marshalEnvelope record (sha.checksum recordPayload)
  .ok (utf8 payload ++ [10])

/-- The `json.Decoder` of an envelope that allows no unknown field: the envelope at the start of the
input, and the input after it. It gives back the records that the store writes: valid, in UTC, and
with a sequence that fits a `uint64`. -/
structure EnvelopeDecoder where
  decode : Bytes → Except TripErr (SafetyTripRecord × List Char × Bytes)
  round_trip : ∀ {record checksum text} (rest : Bytes), validateSafetyTripRecord record = .ok () →
    record.updatedAt.isUTC = true → record.sequence < 2 ^ 64 →
      (∀ c ∈ checksum, (fromHexChar c).isSome = true) →
    marshalEnvelope record checksum = .ok text → decode (utf8 text ++ rest) = .ok (record, checksum,
      rest)

/-- White space between JSON values. -/
def isJSONSpace (b : UInt8) : Bool := b == 32 || b == 9 || b == 10 || b == 13

/-- `decodeSafetyTripRecord`. The second `Decode` finds the end of the input when only white space
is left. -/
def decodeSafetyTripRecord (sha : Sha256) (json : EnvelopeDecoder) (payload : Bytes) :
    Except TripErr SafetyTripRecord := do
  let (record, checksum, rest) ← (json.decode payload).mapError .corrupt
  .failIf (rest.all isJSONSpace = false) (.corrupt (.plain "trailing data"))
  (validateSafetyTripRecord record).mapError .corrupt
  let recordPayload ← record.marshal.mapError .corrupt
  .failIf (hexDecode checksum ≠ some (sha (utf8 recordPayload)).bytes)
    (.corrupt (.plain "checksum mismatch"))
  .ok record

/-! ## Reading -/

/-- `SafetyTripStatus` with its record. -/
structure StoredStatus extends SafetyTripStatus where
  record : SafetyTripRecord := {}
  deriving DecidableEq, Repr

/-- `indeterminateSafetyTripStatus`. -/
def indeterminate (detail : String) : StoredStatus := { indeterminateSafetyTripStatus detail with }

def readSafetyTripFile (data : Bytes) : Except TripErr Bytes := do
  .failIf (data.length < 2) (.plain "safety trip state is empty or truncated")
  .failIf (data.length > maxSafetyTripFileBytes)
    (.plain ("safety trip state exceeds " ++ toString maxSafetyTripFileBytes ++ " bytes"))
  .ok data

/-- The status by the latch and the record. -/
def statusOf (latch : UInt8) (record : SafetyTripRecord) : StoredStatus :=
  if latch = safetyTripLatchClear ∧ record.state = .clear then { state := .clear, record }
  else if latch = safetyTripLatchTripped ∧ record.state = .tripped then
    { state := .tripped, blocksActiveWork := true, record }
  else
    indeterminate ("safety trip latch '" ++ String.singleton (Char.ofNat latch.toNat) ++
      "' does not match record state \"" ++ record.state.text ++ "\"")

/-- `readLocked`, on the bytes of the file. -/
def readLocked (sha : Sha256) (json : EnvelopeDecoder) (data : Bytes) : StoredStatus :=
  match readSafetyTripFile data with
  | .error e => indeterminate e.text
  | .ok data =>
    match decodeSafetyTripRecord sha json (data.drop 1) with
    | .error e => indeterminate e.text
    | .ok record => statusOf (data.headD 0) record

/-! ## Writing -/

def writeAt (data payload : Bytes) (offset : ℕ) : Bytes :=
  data.take offset ++ List.replicate (offset - data.length) 0 ++ payload ++
    data.drop (offset + payload.length)

/-- One step on the file. -/
inductive Write
  /-- the initial latch and record in one -/
  | create (payload : Bytes)
  | latch (value : UInt8)
  | record (payload : Bytes)
  | truncate (size : ℕ)
  deriving DecidableEq, Repr

def Write.apply (data : Bytes) : Write → Bytes
  | .create payload => writeAt data payload 0
  | .latch value => writeAt data [value] 0
  | .record payload => writeAt data payload 1
  | .truncate size => data.take size ++ List.replicate (size - data.length) 0

/-- The file, the number of steps that still take effect, and those that did. -/
structure Disk where
  data : Bytes
  left : ℕ
  done : List Write := []
  deriving DecidableEq, Repr

/-- A step on the file, and whether it took effect. -/
def Disk.write (d : Disk) (w : Write) : Disk × Bool :=
  match d.left with
  | 0 => (d, false)
  | left + 1 => (⟨w.apply d.data, left, d.done ++ [w]⟩, true)

def writeSafetyTripLatch (d : Disk) (latch : UInt8) : Disk × Option TripErr :=
  match d.write (.latch latch) with
  | (d, false) => (d, some (.write "write safety trip latch"))
  | (d, true) => (d, none)

def writeSafetyTripRecord (sha : Sha256) (d : Disk) (record : SafetyTripRecord) :
    Disk × Option TripErr :=
  match encodeSafetyTripRecord sha record with
  | .error e => (d, some e)
  | .ok payload =>
    if 1 + payload.length > maxSafetyTripFileBytes then
      (d, some (.plain ("safety trip state exceeds " ++ toString maxSafetyTripFileBytes ++ " bytes")))
    else
      match d.write (.record payload) with
      | (d, false) => (d, some (.write "write safety trip record"))
      | (d, true) =>
        match d.write (.truncate (1 + payload.length)) with
        | (d, false) => (d, some (.write "truncate safety trip record"))
        | (d, true) => (d, none)

def initialRecord (now : Time) : SafetyTripRecord where
  schemaVersion := safetyTripSchemaVersion
  state := .clear
  updatedAt := now.toUTC

def initializeSafetyTripFile (sha : Sha256) (d : Disk) (now : Time) : Disk × Option TripErr :=
  match encodeSafetyTripRecord sha (initialRecord now) with
  | .error e => (d, some e)
  | .ok payload =>
    match d.write (.create (safetyTripLatchClear :: payload)) with
    | (d, false) => (d, some (.write "write initial safety trip state"))
    | (d, true) =>
      match d.write (.truncate (1 + payload.length)) with
      | (d, false) => (d, some (.write "truncate initial safety trip state"))
      | (d, true) => (d, none)

/-! ## Trips and resets -/

/-- The `uint64` sequence after another. -/
def nextSequence (sequence : ℕ) : ℕ := (sequence + 1) % 2 ^ 64

def tripRecord (current : SafetyTripRecord) (event : SafetyTripEvent) (time : Time) :
    SafetyTripRecord where
  schemaVersion := safetyTripSchemaVersion
  state := .tripped
  sequence := nextSequence current.sequence
  updatedAt := time.toUTC
  reason := event.reason
  detail := event.detail
  peerID := event.peerID
  attemptID := event.attemptID
  buildVersion := event.buildVersion

/-- `tripThen`: the time is that of the event, or the store's. -/
def tripThen (sha : Sha256) (json : EnvelopeDecoder) (d : Disk) (event : SafetyTripEvent)
    (occurredAt now : Time) :
    Disk × StoredStatus × Option TripErr :=
  match validateSafetyTripEvent event with
  | .error e => (d, {}, some (.governor e))
  | .ok _ =>
    let current := readLocked sha json d.data
    if current.state = .tripped then (d, current, none)
    else if current.blocksActiveWork then (d, current, some (.blocked current.toSafetyTripStatus))
    else
      let time := if occurredAt.isZero then now else occurredAt
      match writeSafetyTripLatch d safetyTripLatchTripped with
      | (d, some e) => (d, indeterminate e.text, some e)
      | (d, none) =>
        match writeSafetyTripRecord sha d (tripRecord current.record event time) with
        | (d, some e) => (d, readLocked sha json d.data, some e)
        | (d, none) =>
          let status := readLocked sha json d.data
          (d, status, if status.state = .tripped then none
            else some (.blocked status.toSafetyTripStatus))

def validateSafetyResetRequest (expectedSequence : ℕ) (note buildVersion : String) :
    Except TripErr Unit := do
  .failIf (expectedSequence = 0) (.rejected "expected sequence must be greater than zero")
  .failIf (trimSpace note ≠ note) (.rejected "reset note must not have surrounding whitespace")
  (validateSafetyDiagnosticText "reset note" note maxSafetyTripNoteLen false).mapError .rejected
  (validateSafetyDiagnosticText "build version" buildVersion maxSafetyTripBuildLen true).mapError
    .rejected

def clearRecord (current : SafetyTripRecord) (note buildVersion : String) (now : Time) :
    SafetyTripRecord where
  schemaVersion := safetyTripSchemaVersion
  state := .clear
  sequence := nextSequence current.sequence
  updatedAt := now.toUTC
  buildVersion := buildVersion
  resetNote := note

/-- The text of a `SafetyTripState`. -/
def stateText : SafetyTripState → String
  | .unset => ""
  | .clear => "clear"
  | .tripped => "tripped"
  | .indeterminate => "indeterminate"

def reset (sha : Sha256) (json : EnvelopeDecoder) (d : Disk) (expectedSequence : ℕ)
    (note buildVersion : String) (now : Time) : Disk × StoredStatus × Option TripErr :=
  match validateSafetyResetRequest expectedSequence note buildVersion with
  | .error e => (d, {}, some e)
  | .ok _ =>
    let current := readLocked sha json d.data
    if current.state ≠ .tripped then
      (d, current, some (if current.blocksActiveWork then .blocked current.toSafetyTripStatus
        else .rejected ("state is " ++ stateText current.state)))
    else if expectedSequence = 0 ∨ expectedSequence ≠ current.record.sequence then
      (d, current, some (.rejected ("expected sequence " ++ toString expectedSequence ++
        ", current sequence " ++
        toString current.record.sequence)))
    else
      -- the latch stays tripped until the complete clear record is there
      match writeSafetyTripRecord sha d (clearRecord current.record note buildVersion now) with
      | (d, some e) => (d, readLocked sha json d.data, some e)
      | (d, none) =>
        match writeSafetyTripLatch d safetyTripLatchClear with
        | (d, some e) => (d, readLocked sha json d.data, some e)
        | (d, none) =>
          let status := readLocked sha json d.data
          (d, status, if status.state = .clear then none else some (.blocked status.toSafetyTripStatus))

/-! ## Runs -/

/-- A call on the store. -/
inductive Op
  | trip (event : SafetyTripEvent) (occurredAt now : Time)
  | reset (expectedSequence : ℕ) (note buildVersion : String) (now : Time)

def Op.run (sha : Sha256) (json : EnvelopeDecoder) (d : Disk) :
    Op → Disk × StoredStatus × Option TripErr
  | .trip event occurredAt now => tripThen sha json d event occurredAt now
  | .reset expectedSequence note buildVersion now =>
    TripStore.reset sha json d expectedSequence note buildVersion now

/-- A call that was made: the file it found, and its steps that took effect. -/
structure Performed where
  op : Op
  before : Bytes
  done : List Write

/-- The file, and the calls that were made since it was initialised, the last one first. -/
structure World where
  file : Bytes
  history : List Performed

/-- A call of which only so many steps take effect: the store serialises the calls, and the process
may stop after any step, or see a write fail. -/
def World.perform (sha : Sha256) (json : EnvelopeDecoder) (w : World) (op : Op) (steps : ℕ) :
    World :=
  let d := (op.run sha json ⟨w.file, steps, []⟩).1
  ⟨d.data, ⟨op, w.file, d.done⟩ :: w.history⟩

/-- One step of a run. -/
def World.step (sha : Sha256) (json : EnvelopeDecoder) (w : World) (act : Op × ℕ) : Option World :=
  some (w.perform sha json act.1 act.2)

/-- A file that was created and of whose initialisation so many steps took effect. -/
def Initial (sha : Sha256) (w : World) : Prop :=
  ∃ now steps, w = ⟨(initializeSafetyTripFile sha ⟨[], steps, []⟩ now).1.data, []⟩

end Winkyou.TripStore
