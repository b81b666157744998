import Winkyou.Spec.Ledger.Snapshot
import Winkyou.Spec.Ledger.Frame

/-!
# The pairing admission ledger (`pairing_ledger.go`, `hard_nat_campaign_ledger.go`)

`Admit`, `Finish`, `ResetCircuit` and `ResetHardNATCampaignCircuit`. Each reads the
journal, decides, appends at most one frame and, except `Finish`, reads it back.
The decisions are functions of the snapshot that was read (`planAdmit`, …), so that they
are the same over any storage of the journal:

* `journalStorage`: the journal as its list of records and its size;
* `fileStorage`: the journal as the bytes of a file, to which an append may add only
  the beginning of a frame.

A `World` is a journal with the succession of machine owners that hold it.
-/

namespace Winkyou

/-! ## Reading -/

/-- What `readPairingLedgerSnapshot` returns: a snapshot, and maybe an error with it. -/
structure Reading where
  snapshot : Snapshot
  err : Option LedgerErr := none

/-- A reading without records. -/
def Reading.blocked (status : LedgerStatus) (cause : LedgerSentinel) : Reading where
  snapshot := { status, bytes := 0, ownerInstanceID := "" }
  err := some (.ledger status cause)

/-- The end of `readValidatedPairingLedgerSnapshot`, from the decoded records. -/
def readRecords (records : List Record) (bytes : ℕ) (now : Time) (ownerInstanceID : String) :
    Reading :=
  match buildPairingLedgerSnapshot records bytes ownerInstanceID with
  | .error _ =>
    .blocked (indeterminatePairingLedgerStatus "journal record transitions are invalid") .indeterminate
  | .ok s =>
    let s := { s with status := s.statusAt now }
    { snapshot := s
      err := if s.status.state = .clockRollback then some (.ledger s.status .clockRollback) else none }

/-- The error of a reading, when the journal is not initialized or indeterminate: the
check every operation makes first. Another error of the reading is left to
`effectiveNow`. -/
def Reading.usable (r : Reading) : Except LedgerErr Snapshot :=
  match r.err with
  | some e =>
    if r.snapshot.status.state = .notInitialized ∨ r.snapshot.status.state = .indeterminate then
      .error e
    else .ok r.snapshot
  | none => .ok r.snapshot

/-! ## Decisions -/

/-- `Admit` up to the append (and `Preflight`): the burn record and its frame. -/
def planAdmit (sha : Sha256) (read : Time → Reading) (ownerInstanceID : String) (now : Time)
    (request : AdmissionRequest) : Except LedgerErr (Record × Bytes) := do
  (validatePairingAdmissionRequest request).mapError .record
  let now := now.toUTC
  let s ← (read now).usable
  let effectiveNow ← s.effectiveNow now
  .failIf (¬ effectiveNow.before request.expiresAt)
    (.record (.wrap .invalidRequest "bundle expired before admission"))
  .failIf (s.admissions request.credentialID).isSome (.ledger (s.statusAt effectiveNow) .credentialUsed)
  .failIf (s.attempts request.attemptID).isSome
    (.record (.wrap .invalidRequest "attempt id already recorded"))
  s.admissionError effectiveNow request.envelope request.recordClass
  let record : Record := {
    sequence := s.sequence + 1
    type := .burnAndAdmit
    recordedAt := effectiveNow
    recordClass := request.recordClass
    credentialID := request.credentialID
    attemptID := request.attemptID
    contextDigest := request.contextDigest
    ownerInstanceID := ownerInstanceID
    scope := .machine
    expiresAt := request.expiresAt.toUTC
    envelope := request.envelope }
  let frame ← (encodePairingJournalFrame sha record).mapError .record
  s.ensureAdmissionCapacity frame.length
  .ok (record, frame)

/-- `Admit` after the append: verify the burn and hand out its receipt. -/
def verifyAdmit (verified : Reading) (record : Record) (ownerInstanceID : String)
    (request : AdmissionRequest) : Except LedgerErr Receipt :=
  match verified.err with
  | some e => .error e
  | none =>
    match verified.snapshot.admissions request.credentialID with
    | some admission =>
      if admission.record.sequence = record.sequence then
        .ok {
          sequence := record.sequence
          recordClass := request.recordClass
          credentialID := request.credentialID
          attemptID := request.attemptID
          contextDigest := request.contextDigest
          ownerInstanceID := ownerInstanceID
          committedAt := record.recordedAt }
      else .error (.ledger (indeterminatePairingLedgerStatus
        "committed admission could not be verified") .indeterminate)
    | none => .error (.ledger (indeterminatePairingLedgerStatus
        "committed admission could not be verified") .indeterminate)

/-- `Finish` up to the append; no record when the same reason is already recorded. -/
def planFinish (sha : Sha256) (read : Time → Reading) (ownerInstanceID : String) (now : Time)
    (receipt : Receipt) (reason : TerminalReason) : Except LedgerErr (Option (Record × Bytes)) := do
  .failIf (¬ reason.valid)
    (.record (.wrap .invalidRequest ("terminal reason \"" ++ reason.text ++ "\"")))
  .failIf (receipt.ownerInstanceID ≠ ownerInstanceID)
    (.record (.wrap .invalidRequest "receipt belongs to another owner instance"))
  let now := now.toUTC
  let s ← (read now).usable
  let effectiveNow ← s.effectiveNow now
  match s.admissions receipt.credentialID with
  | none => .error (.record (.wrap .invalidRequest "receipt does not match durable admission"))
  | some admission => do
    .failIf (admission.record.sequence ≠ receipt.sequence ∨
        admission.record.recordClass ≠ receipt.recordClass ∨
        admission.record.attemptID ≠ receipt.attemptID ∨
        admission.record.contextDigest ≠ receipt.contextDigest)
      (.record (.wrap .invalidRequest "receipt does not match durable admission"))
    match admission.finish with
    | some finish => do
      .failIf (finish.reason ≠ reason)
        (.record (.wrap .invalidRequest "terminal reason already recorded"))
      .ok none
    | none => do
      let record : Record := {
        sequence := s.sequence + 1
        type := .finish
        recordedAt := effectiveNow
        recordClass := receipt.recordClass
        credentialID := receipt.credentialID
        attemptID := receipt.attemptID
        reason := reason }
      let frame ← (encodePairingJournalFrame sha record).mapError .record
      s.ensureRecordCapacity frame.length
      .ok (some (record, frame))

/-- `ResetCircuit` up to the append. -/
def planReset (sha : Sha256) (read : Time → Reading) (now : Time) (expectedSequence : ℕ)
    (note : String) : Except LedgerErr (Record × Bytes) := do
  .failIf (expectedSequence = 0 ∨ ¬ (validatePairingResetNote note).isOk)
    (.record (.wrap .resetRejected "expected sequence and operator note are required"))
  let now := now.toUTC
  let s ← (read now).usable
  let effectiveNow ← s.effectiveNow now
  let status := s.statusAt effectiveNow
  .failIf (expectedSequence ≠ s.sequence)
    (.record (.wrap .resetRejected ("expected sequence " ++ toString expectedSequence ++
      ", current " ++ toString s.sequence)))
  .failIf (¬ status.explicitResetRequired ∨ status.circuitOpenedAt.isZero)
    (.record (.wrap .resetRejected "circuit is not open"))
  .failIf (effectiveNow.before status.circuitResetEligibleAt)
    (.record (.wrap .resetRejected "circuit minimum horizon has not elapsed"))
  let record : Record := {
    sequence := s.sequence + 1, type := .circuitReset, recordedAt := effectiveNow, resetNote := note }
  let frame ← (encodePairingJournalFrame sha record).mapError .record
  s.ensureRecordCapacity frame.length
  .ok (record, frame)

/-- `ResetHardNATCampaignCircuit` up to the append: it has no minimum horizon. -/
def planCampaignReset (sha : Sha256) (read : Time → Reading) (now : Time) (expectedSequence : ℕ)
    (note : String) : Except LedgerErr (Record × Bytes) := do
  .failIf (expectedSequence = 0 ∨ ¬ (validatePairingResetNote note).isOk)
    (.record (.sentinel .resetRejected))
  let now := now.toUTC
  let s ← (read now).usable
  let effectiveNow ← s.effectiveNow now
  let status := s.hardNATCampaignStatusAt effectiveNow
  .failIf (expectedSequence ≠ s.sequence ∨ ¬ status.explicitResetRequired ∨
    status.circuitOpenedAt.isZero)
    (.record (.wrap .resetRejected "campaign circuit or expected sequence does not match"))
  let record : Record := {
    sequence := s.sequence + 1, type := .circuitReset, recordedAt := effectiveNow
    recordClass := .hardNATCampaign, resetNote := note }
  let frame ← (encodePairingJournalFrame sha record).mapError .record
  s.ensureRecordCapacity frame.length
  .ok (record, frame)

/-! ## Operations over a storage -/

/-- A storage of journals `σ`. An append is given what happens to it (`ω`); it returns the
journal after it and whether it is reported as synchronized. -/
structure Storage (σ ω : Type) where
  read : σ → String → Time → Reading
  append : σ → ω → Record → Bytes → σ × Bool

/-- The error of `appendAndSync`. -/
def appendErr : LedgerErr :=
  .ledger (indeterminatePairingLedgerStatus "journal append or synchronization failed") .indeterminate

namespace Storage

variable {σ ω : Type} (S : Storage σ ω) (sha : Sha256) (j : σ) (ownerInstanceID : String)

/-- `Admit`. -/
def admitRequest (now : Time) (request : AdmissionRequest) (o : ω) : σ × Except LedgerErr Receipt :=
  match planAdmit sha (S.read j ownerInstanceID) ownerInstanceID now request with
  | .error e => (j, .error e)
  | .ok (record, frame) =>
    match S.append j o record frame with
    | (j', true) =>
      (j', verifyAdmit (S.read j' ownerInstanceID record.recordedAt) record ownerInstanceID request)
    | (j', false) => (j', .error appendErr)

def finish (now : Time) (receipt : Receipt) (reason : TerminalReason) (o : ω) :
    σ × Except LedgerErr Unit :=
  match planFinish sha (S.read j ownerInstanceID) ownerInstanceID now receipt reason with
  | .error e => (j, .error e)
  | .ok none => (j, .ok ())
  | .ok (some (record, frame)) =>
    match S.append j o record frame with
    | (j', true) => (j', .ok ())
    | (j', false) => (j', .error appendErr)

/-- The end of a reset: append the record and return the status read back at its time. -/
def reset {α : Type} (statusAt : Snapshot → Time → α) (plan : Except LedgerErr (Record × Bytes))
    (o : ω) : σ × Except LedgerErr α :=
  match plan with
  | .error e => (j, .error e)
  | .ok (record, frame) =>
    match S.append j o record frame with
    | (j', true) =>
      let verified := S.read j' ownerInstanceID record.recordedAt
      (j', match verified.err with
        | some e => .error e
        | none => .ok (statusAt verified.snapshot record.recordedAt))
    | (j', false) => (j', .error appendErr)

def resetCircuit (now : Time) (expectedSequence : ℕ) (note : String) (o : ω) :
    σ × Except LedgerErr LedgerStatus :=
  S.reset j ownerInstanceID Snapshot.statusAt
    (planReset sha (S.read j ownerInstanceID) now expectedSequence note) o

def resetHardNATCampaignCircuit (now : Time) (expectedSequence : ℕ) (note : String) (o : ω) :
    σ × Except LedgerErr CampaignStatus :=
  S.reset j ownerInstanceID Snapshot.hardNATCampaignStatusAt
    (planCampaignReset sha (S.read j ownerInstanceID) now expectedSequence note) o

end Storage

/-! ## The two storages -/

/-- A journal by its records and its size. -/
structure Journal where
  records : List Record
  bytes : ℕ
  deriving DecidableEq, Repr

/-- Read a journal of records: the ceilings of the decoder, then the replay. -/
def Journal.read (j : Journal) (ownerInstanceID : String) (now : Time) : Reading :=
  if j.bytes > maxPairingLedgerBytes then
    .blocked (indeterminatePairingLedgerStatus "journal exceeds its compiled byte ceiling")
      .indeterminate
  else if j.records.length > maxPairingLedgerRecords then
    .blocked (indeterminatePairingLedgerStatus "journal framing, sequence, or checksum is invalid")
      .indeterminate
  else readRecords j.records j.bytes now ownerInstanceID

def Journal.append (j : Journal) (record : Record) (frame : Bytes) : Journal :=
  ⟨j.records ++ [record], j.bytes + frame.length⟩

/-- Whole appends; an append may be durable without being reported so. -/
def journalStorage : Storage Journal Bool where
  read := Journal.read
  append j reported record frame := (j.append record frame, reported)

/-- The journal file, absent before machine setup. `appended` is history: the records
whose frames were written in full. -/
structure JournalFile where
  data : Option Bytes
  appended : List Record := []

/-- What happens to a write: how many bytes of the frame reach the file, and whether a
complete write is reported as synchronized. -/
structure Write where
  written : ℕ
  reported : Bool

/-- `readPairingLedgerSnapshot`, with a file whose metadata is trusted. -/
def JournalFile.read (sha : Sha256) (json : FrameDecoder) (file : JournalFile)
    (ownerInstanceID : String) (now : Time) : Reading :=
  match file.data with
  | none =>
    .blocked {
      state := .notInitialized, blocksActiveWork := true
      detail := "explicit machine setup has not initialized the pairing journal" } .notInitialized
  | some data =>
    if data.length > maxPairingLedgerBytes then
      .blocked (indeterminatePairingLedgerStatus "journal exceeds its compiled byte ceiling")
        .indeterminate
    else
      match decodePairingJournal sha json data with
      | .error _ =>
        .blocked (indeterminatePairingLedgerStatus "journal framing, sequence, or checksum is invalid")
          .indeterminate
      | .ok records => readRecords records data.length now ownerInstanceID

/-- `appendPairingJournalFrame`: nothing is ever written before the end of the file, and an
incomplete write is an error. -/
def JournalFile.append (file : JournalFile) (write : Write) (record : Record) (frame : Bytes) :
    JournalFile × Bool :=
  match file.data with
  | none => (file, false)
  | some data =>
    if frame.length ≤ write.written then
      (⟨some (data ++ frame), file.appended ++ [record]⟩, write.reported)
    else (⟨some (data ++ frame.take write.written), file.appended⟩, false)

def fileStorage (sha : Sha256) (json : FrameDecoder) : Storage JournalFile Write where
  read := JournalFile.read sha json
  append := JournalFile.append

/-! ## Owners and runs -/

/-- A journal with its machine owners: the instance that holds it, every instance that
has held it, and every receipt handed out. -/
structure World (σ : Type) where
  journal : σ
  owner : String
  owners : List String
  receipts : List Receipt := []

/-- A call by the current owner at some wall-clock time, with what happens to its
append, or the end of an owner and its replacement. -/
inductive Action (ω : Type)
  | takeOver (ownerInstanceID : String)
  | admitRequest (now : Time) (request : AdmissionRequest) (o : ω)
  | finish (now : Time) (receipt : Receipt) (reason : TerminalReason) (o : ω)
  | resetCircuit (now : Time) (expectedSequence : ℕ) (note : String) (o : ω)
  | resetHardNATCampaignCircuit (now : Time) (expectedSequence : ℕ) (note : String) (o : ω)

variable {σ ω : Type}

/-- An instance id is fresh and has the form of `newInstanceID`; a receipt is one that
`Admit` returned. -/
def Action.legal (w : World σ) : Action ω → Prop
  | .takeOver ownerInstanceID =>
    ownerInstanceID ∉ w.owners ∧ validatePairingOwnerInstanceID ownerInstanceID = .ok ()
  | .finish _ receipt _ _ => receipt ∈ w.receipts
  | _ => True

instance (w : World σ) : DecidablePred (Action.legal (ω := ω) w) := fun a =>
  match a with
  | .takeOver ownerInstanceID =>
    decidable_of_iff (ownerInstanceID ∉ w.owners ∧
      (validatePairingOwnerInstanceID ownerInstanceID).isOk = true)
      (by
        have h : ∀ e : Except RecordErr Unit, e.isOk = true ↔ e = .ok () := by
          intro e
          cases e <;> simp [Except.isOk, Except.toBool]
        simp [Action.legal, h])
  | .admitRequest .. => isTrue trivial
  | .finish _ receipt _ _ => inferInstanceAs (Decidable (receipt ∈ w.receipts))
  | .resetCircuit .. => isTrue trivial
  | .resetHardNATCampaignCircuit .. => isTrue trivial

def World.act (S : Storage σ ω) (sha : Sha256) (w : World σ) : Action ω → World σ
  | .takeOver ownerInstanceID =>
    { w with owner := ownerInstanceID, owners := ownerInstanceID :: w.owners }
  | .admitRequest now request o =>
    let result := S.admitRequest sha w.journal w.owner now request o
    { w with
      journal := result.1
      receipts := match result.2 with
        | .ok receipt => receipt :: w.receipts
        | .error _ => w.receipts }
  | .finish now receipt reason o =>
    { w with journal := (S.finish sha w.journal w.owner now receipt reason o).1 }
  | .resetCircuit now expectedSequence note o =>
    { w with journal := (S.resetCircuit sha w.journal w.owner now expectedSequence note o).1 }
  | .resetHardNATCampaignCircuit now expectedSequence note o =>
    { w with journal :=
        (S.resetHardNATCampaignCircuit sha w.journal w.owner now expectedSequence note o).1 }

/-- The record `createPairingLedgerFile` writes. -/
def firstRecord (now : Time) (rebuild : Bool) : Record where
  sequence := 1
  type := if rebuild then .rebuildBaseline else .init
  recordedAt := now.toUTC

/-- The worlds of the record level before any call: a journal as `createPairingLedgerFile`
leaves it, and its first owner. -/
def World.Initial (sha : Sha256) (w : World Journal) : Prop :=
  ∃ now rebuild frame owner, encodePairingJournalFrame sha (firstRecord now rebuild) = .ok frame ∧
    validatePairingOwnerInstanceID owner = .ok () ∧
    w = { journal := ⟨[firstRecord now rebuild], frame.length⟩, owner := owner, owners := [owner] }

/-- The worlds a run of calls and takeovers can reach. -/
inductive World.Reachable (sha : Sha256) : World Journal → Prop
  | init {w : World Journal} : w.Initial sha → Reachable sha w
  | act {w : World Journal} (a : Action Bool) :
      Reachable sha w → a.legal w → Reachable sha (w.act journalStorage sha a)

/-- The worlds over a file before any call: the file as `createPairingLedgerFile` leaves it,
complete or after a short write, and its first owner. -/
def World.FileInitial (sha : Sha256) (w : World JournalFile) : Prop :=
  ∃ now rebuild frame owner write, encodePairingJournalFrame sha (firstRecord now rebuild) =
    .ok frame ∧ validatePairingOwnerInstanceID owner = .ok () ∧
    w = { journal := (JournalFile.append ⟨some [], []⟩ write (firstRecord now rebuild) frame).1
          owner := owner, owners := [owner] }

/-- The worlds over a file that a run of calls, crashes and takeovers can reach. -/
inductive World.FileReachable (sha : Sha256) (json : FrameDecoder) : World JournalFile → Prop
  | init {w : World JournalFile} : w.FileInitial sha → FileReachable sha json w
  | act {w : World JournalFile} (a : Action Write) :
      FileReachable sha json w → a.legal w → FileReachable sha json (w.act (fileStorage sha json) sha a)

end Winkyou
