import Winkyou.Spec.Ledger.Record

/-!
# Replaying the pairing journal (`pairing_ledger_format.go`, `hard_nat_campaign_ledger.go`)

`buildPairingLedgerSnapshot` replays the records of a journal for one owner
instance. Every decision of the ledger is a function of the snapshot and a time: the
effective clock, the rolling windows, the failure circuit of each class, the
admission policy and the capacity checks.

Go's `admissions` and `attempts` maps and the `admissionOrder` slice share their
entries, and every entry is put into all three at once; the model keeps the slice and
reads the maps off it (`admissions`, `attempts`).
-/

namespace Winkyou

/-! ## Status -/

inductive LedgerState
  | ready
  | notInitialized
  | indeterminate
  | rateLimited
  | circuitOpen
  | capacityFull
  | clockRollback
  deriving DecidableEq, Repr

/-- `PairingLedgerStatus`, without the constant `Limits` it repeats. -/
structure LedgerStatus where
  state : LedgerState
  blocksActiveWork : Bool := false
  sequence : ℕ := 0
  records : ℕ := 0
  bytes : ℕ := 0
  highWatermark : Time := .zero
  lastAdmissionAt : Time := .zero
  oneHourAdmissions : ℤ := 0
  twentyFourHourAdmissions : ℤ := 0
  twentyFourHourPackets : ℤ := 0
  consecutiveFailures : ℕ := 0
  circuitOpenedAt : Time := .zero
  circuitResetEligibleAt : Time := .zero
  explicitResetRequired : Bool := false
  nextAdmissionAt : Time := .zero
  detail : String := ""
  deriving DecidableEq, Repr

/-- `HardNATCampaignStatus`, without the constant `Limits` it repeats. -/
structure CampaignStatus where
  state : LedgerState
  blocksCampaign : Bool := false
  sequence : ℕ := 0
  records : ℕ := 0
  bytes : ℕ := 0
  highWatermark : Time := .zero
  lastAdmissionAt : Time := .zero
  twentyFourHourAdmissions : ℤ := 0
  twentyFourHourPackets : ℤ := 0
  circuitOpenedAt : Time := .zero
  explicitResetRequired : Bool := false
  detail : String := ""
  deriving DecidableEq, Repr

inductive LedgerErr
  /-- `*PairingLedgerError`: the blocking status and its cause. -/
  | ledger (status : LedgerStatus) (cause : LedgerSentinel)
  /-- `*PairingCampaign…`: a campaign sentinel wrapped with a text. -/
  | campaign (cause : LedgerSentinel) (detail : String)
  /-- An error of a validator. -/
  | record (e : RecordErr)
  deriving DecidableEq, Repr

def indeterminatePairingLedgerStatus (detail : String) : LedgerStatus where
  state := .indeterminate
  blocksActiveWork := true
  detail := detail

def indeterminateHardNATCampaignStatus (detail : String) : CampaignStatus where
  state := .indeterminate
  blocksCampaign := true
  detail := detail

/-! ## Snapshots -/

/-- `pairingAdmissionEntry`: a burn record and its finish record, if any. -/
structure AdmissionEntry where
  record : Record
  finish : Option Record := none
  deriving DecidableEq, Repr

structure Snapshot where
  status : LedgerStatus
  sequence : ℕ := 0
  records : List Record := []
  admissionOrder : List AdmissionEntry := []
  rebuildAt : Time := .zero
  bytes : ℕ
  highWatermark : Time := .zero
  ownerInstanceID : String
  deriving DecidableEq, Repr

namespace Snapshot

variable (s : Snapshot)

/-- `snapshot.admissions[credentialID]`. -/
def admissions (credentialID : String) : Option AdmissionEntry :=
  s.admissionOrder.find? fun e => e.record.credentialID == credentialID

/-- `snapshot.attempts[attemptID]`. -/
def attempts (attemptID : String) : Option AdmissionEntry :=
  s.admissionOrder.find? fun e => e.record.attemptID == attemptID

/-- `entry.finish = &finish` for the entry of a credential. -/
def setFinish (finish : Record) : Snapshot :=
  { s with admissionOrder := s.admissionOrder.map fun e =>
      if e.record.credentialID == finish.credentialID then { e with finish := some finish } else e }

/-! ### The clock -/

/-- `effectiveNow`: the wall clock, never behind the durable high-watermark, and an
error when it is more than the tolerated skew behind. -/
def effectiveNow (now : Time) : Except LedgerErr Time :=
  let now := now.toUTC
  if s.status.state = .notInitialized ∨ s.status.state = .indeterminate then
    .error (.ledger s.status .indeterminate)
  else if (now.add pairingLedgerClockRollbackSkew).before s.highWatermark then
    .error (.ledger { s.status with
      state := .clockRollback
      blocksActiveWork := true
      detail := "wall clock is behind the durable high-watermark" } .clockRollback)
  else if now.before s.highWatermark then .ok s.highWatermark
  else .ok now

/-! ### The failure circuit -/

/-- The streak of failures that opens the circuit of a class. -/
def failureLimit : RecordClass → ℕ
  | .hardNATCampaign => 1
  | _ => pairingAdmissionFailureLimit

/-- The state of the record loop of `failureState`. -/
structure Streak where
  pending : List AdmissionEntry := []
  streak : ℕ := 0
  openedAt : Time := .zero
  deriving DecidableEq, Repr

/-- `finishBySequence[sequence]` of the class. -/
def finishBySequence (recordClass : RecordClass) (sequence : ℕ) : Option Record :=
  s.admissionOrder.findSome? fun e =>
    if e.record.recordClass = recordClass then
      e.finish.bind fun f => if f.sequence = sequence then some f else none
    else none

/-- One record of the loop of `failureState`. -/
def streakStep (recordClass : RecordClass) (st : Streak) (record : Record) : Streak :=
  if record.recordClass ≠ recordClass then st
  else
    match record.type with
    | .burnAndAdmit =>
      match s.admissions record.credentialID with
      | some entry => if entry.finish.isNone then { st with pending := st.pending ++ [entry] } else st
      | none => st
    | .finish =>
      match s.finishBySequence recordClass record.sequence with
      | none => st
      | some finish =>
        if finish.reason = .success ∧ st.openedAt.isZero then { st with streak := 0 }
        else
          let streak := if finish.reason ≠ .success then st.streak + 1 else st.streak
          { st with
            streak := streak
            openedAt := if streak ≥ failureLimit recordClass ∧ st.openedAt.isZero then
              finish.recordedAt else st.openedAt }
    | .circuitReset => {}
    | _ => st

/-- One admission of the loop over the pending ones: an unfinished admission of another
owner instance is a failure. -/
def pendingStep (recordClass : RecordClass) (st : ℕ × Time) (admission : AdmissionEntry) :
    ℕ × Time :=
  if s.ownerInstanceID ≠ "" ∧ admission.record.ownerInstanceID = s.ownerInstanceID then st
  else
    (st.1 + 1, if st.1 + 1 ≥ failureLimit recordClass ∧ st.2.isZero then admission.record.recordedAt
      else st.2)

/-- `failureState`: the failure streak of a class and when its circuit opened. -/
def failureState (recordClass : RecordClass) : ℕ × Time :=
  let st := s.records.foldl (s.streakStep recordClass) {}
  st.pending.foldl (s.pendingStep recordClass) (st.streak, st.openedAt)

/-! ### Rolling windows -/

/-- One ordinary admission of the loop of `statusAt`. -/
def windowStep (oneHourCutoff dayCutoff : Time) (status : LedgerStatus)
    (admission : AdmissionEntry) :
    LedgerStatus :=
  if admission.record.recordClass ≠ .ordinary then status
  else
    let when := admission.record.recordedAt
    { status with
      lastAdmissionAt := if when.after status.lastAdmissionAt then when else status.lastAdmissionAt
      oneHourAdmissions := if when.after oneHourCutoff then status.oneHourAdmissions + 1
        else status.oneHourAdmissions
      twentyFourHourAdmissions := if when.after dayCutoff then status.twentyFourHourAdmissions + 1
        else status.twentyFourHourAdmissions
      twentyFourHourPackets := if when.after dayCutoff then
          status.twentyFourHourPackets + admission.record.envelope.packets
        else status.twentyFourHourPackets }

/-- The status at the start of `statusAt`: the counters and the circuit are cleared, the
last admission is kept. -/
def clearedStatus : LedgerStatus :=
  { s.status with
    state := .ready
    blocksActiveWork := false
    detail := ""
    oneHourAdmissions := 0
    twentyFourHourAdmissions := 0
    twentyFourHourPackets := 0
    consecutiveFailures := 0
    circuitOpenedAt := .zero
    circuitResetEligibleAt := .zero
    explicitResetRequired := false
    nextAdmissionAt := .zero }

/-- A rebuilt journal is charged with full windows until they have passed. -/
def chargeRebuild (effectiveNow : Time) (status : LedgerStatus) : LedgerStatus :=
  if s.rebuildAt.isZero then status
  else
    { status with
      oneHourAdmissions := if effectiveNow.before (s.rebuildAt.add pairingAdmissionOneHourWindow) then
        status.oneHourAdmissions + pairingAdmissionOneHourLimit else status.oneHourAdmissions
      twentyFourHourAdmissions := if effectiveNow.before (s.rebuildAt.add pairingAdmissionDayWindow) then
        status.twentyFourHourAdmissions + pairingAdmissionDayLimit else status.twentyFourHourAdmissions
      twentyFourHourPackets := if effectiveNow.before (s.rebuildAt.add pairingAdmissionDayWindow) then
        status.twentyFourHourPackets + pairingAdmissionDayPackets else status.twentyFourHourPackets
      lastAdmissionAt := s.rebuildAt }

/-- The end of the minimum interval after the last admission. -/
def setNextAdmission (status : LedgerStatus) : LedgerStatus :=
  if status.lastAdmissionAt.isZero then status
  else { status with nextAdmissionAt := status.lastAdmissionAt.add pairingAdmissionMinimumInterval }

/-- The counters of `statusAt` at an effective time, before the state is decided. -/
def windowStatus (effectiveNow : Time) : LedgerStatus :=
  setNextAdmission (s.admissionOrder.foldl
    (windowStep (effectiveNow.add (-pairingAdmissionOneHourWindow))
      (effectiveNow.add (-pairingAdmissionDayWindow)))
    (s.chargeRebuild effectiveNow s.clearedStatus))

def statusAt (now : Time) : LedgerStatus :=
  if s.status.state = .notInitialized ∨ s.status.state = .indeterminate then s.status
  else
    match s.effectiveNow now with
    | .error (.ledger status _) => status
    | .error _ => indeterminatePairingLedgerStatus "journal clock evaluation failed"
    | .ok effectiveNow =>
      let status := s.windowStatus effectiveNow
      let failure := s.failureState .ordinary
      let status := { status with consecutiveFailures := failure.1, circuitOpenedAt := failure.2 }
      if !status.circuitOpenedAt.isZero then
        { status with
          circuitResetEligibleAt := status.circuitOpenedAt.add pairingAdmissionCircuitHorizon
          explicitResetRequired := true
          state := .circuitOpen
          blocksActiveWork := true
          detail := "three consecutive terminal failures require explicit reset" }
      else if status.records ≥ maxPairingLedgerRecords ∨ status.bytes ≥ maxPairingLedgerBytes then
        { status with
          state := .capacityFull
          blocksActiveWork := true
          detail := "journal reached a compiled capacity ceiling" }
      else if (!status.nextAdmissionAt.isZero ∧ effectiveNow.before status.nextAdmissionAt) ∨
          status.oneHourAdmissions ≥ pairingAdmissionOneHourLimit ∨
          status.twentyFourHourAdmissions ≥ pairingAdmissionDayLimit ∨
          status.twentyFourHourPackets ≥ pairingAdmissionDayPackets then
        { status with
          state := .rateLimited
          blocksActiveWork := true
          detail := "persistent admission interval or rolling window is exhausted" }
      else status

/-! ### The hard-NAT campaign -/

/-- One campaign admission of the loop of `hardNATCampaignStatusAt`. -/
def campaignStep (cutoff : Time) (status : CampaignStatus) (admission : AdmissionEntry) :
    CampaignStatus :=
  if admission.record.recordClass ≠ .hardNATCampaign then status
  else
    let when := admission.record.recordedAt
    { status with
      lastAdmissionAt := if when.after status.lastAdmissionAt then when else status.lastAdmissionAt
      twentyFourHourAdmissions := if when.after cutoff then status.twentyFourHourAdmissions + 1
        else status.twentyFourHourAdmissions
      twentyFourHourPackets := if when.after cutoff then
          status.twentyFourHourPackets + admission.record.envelope.packets
        else status.twentyFourHourPackets }

/-- The counters of `hardNATCampaignStatusAt` at an effective time. -/
def campaignWindow (effectiveNow : Time) : CampaignStatus :=
  let status : CampaignStatus := {
    state := .ready, sequence := s.sequence, records := s.records.length, bytes := s.bytes
    highWatermark := s.highWatermark }
  let status := if !s.rebuildAt.isZero ∧
      effectiveNow.before (s.rebuildAt.add hardNATCampaignWindow) then
    { status with
      lastAdmissionAt := s.rebuildAt
      twentyFourHourAdmissions := hardNATCampaignAdmissions
      twentyFourHourPackets := hardNATCampaignPackets } else status
  s.admissionOrder.foldl (campaignStep (effectiveNow.add (-hardNATCampaignWindow))) status

def hardNATCampaignStatusAt (now : Time) : CampaignStatus :=
  if s.status.state = .notInitialized ∨ s.status.state = .indeterminate then
    { state := s.status.state, blocksCampaign := true, detail := s.status.detail }
  else
    match s.effectiveNow now with
    | .error (.ledger status _) =>
      { state := status.state, blocksCampaign := true, sequence := s.sequence
        records := s.records.length, bytes := s.bytes, highWatermark := s.highWatermark
        detail := status.detail }
    | .error _ => indeterminateHardNATCampaignStatus "journal clock evaluation failed"
    | .ok effectiveNow =>
      let status := s.campaignWindow effectiveNow
      let status := { status with circuitOpenedAt := (s.failureState .hardNATCampaign).2 }
      if !status.circuitOpenedAt.isZero then
        { status with
          state := .circuitOpen
          blocksCampaign := true
          explicitResetRequired := true
          detail := "a post-burn hard NAT campaign failure requires explicit reset" }
      else
        let ordinary := s.statusAt effectiveNow
        match ordinary.state with
        | .circuitOpen | .capacityFull | .clockRollback | .notInitialized | .indeterminate =>
          { status with state := ordinary.state, blocksCampaign := true, detail := ordinary.detail }
        | .ready | .rateLimited =>
          if status.records ≥ maxPairingLedgerRecords ∨ status.bytes ≥ maxPairingLedgerBytes then
            { status with
              state := .capacityFull
              blocksCampaign := true
              detail := "journal reached a compiled capacity ceiling" }
          else if status.twentyFourHourAdmissions ≥ hardNATCampaignAdmissions ∨
              status.twentyFourHourPackets ≥ hardNATCampaignPackets then
            { status with
              state := .rateLimited
              blocksCampaign := true
              detail := "hard NAT campaign 24-hour reservation is exhausted" }
          else status

/-! ### Admission policy and capacity -/

def hardNATCampaignAdmissionError (now : Time) (envelope : Envelope) : Except LedgerErr Unit :=
  let status := s.hardNATCampaignStatusAt now
  match status.state with
  | .circuitOpen =>
    -- an ordinary circuit also blocks the campaign, and keeps its own error
    let ordinary := s.statusAt now
    if ordinary.state = .circuitOpen then .error (.ledger ordinary .circuitOpen)
    else .error (.campaign .campaignCircuitOpen ("sequence=" ++ toString status.sequence))
  | .rateLimited => .error (.campaign .campaignRateLimited ("admissions=" ++
      toString status.twentyFourHourAdmissions ++ " packets=" ++ toString status.twentyFourHourPackets))
  | .capacityFull => .error (.ledger (s.statusAt now) .capacity)
  | .clockRollback => .error (.ledger (s.statusAt now) .clockRollback)
  | .notInitialized => .error (.ledger (s.statusAt now) .notInitialized)
  | .indeterminate => .error (.ledger (s.statusAt now) .indeterminate)
  | .ready =>
    if envelope ≠ hardNATCampaignEnvelope then
      .error (.record (.wrap .invalidRequest "hard NAT campaign envelope is not exact"))
    else if status.twentyFourHourAdmissions + 1 > hardNATCampaignAdmissions ∨
        status.twentyFourHourPackets + envelope.packets > hardNATCampaignPackets then
      .error (.campaign .campaignRateLimited "")
    else .ok ()

def admissionError (now : Time) (envelope : Envelope) (recordClass : RecordClass) :
    Except LedgerErr Unit :=
  if recordClass = .hardNATCampaign then s.hardNATCampaignAdmissionError now envelope
  else
    let status := s.statusAt now
    match status.state with
    | .circuitOpen => .error (.ledger status .circuitOpen)
    | .capacityFull => .error (.ledger status .capacity)
    | .clockRollback => .error (.ledger status .clockRollback)
    | .notInitialized => .error (.ledger status .notInitialized)
    | .indeterminate => .error (.ledger status .indeterminate)
    | .ready | .rateLimited =>
      if (!status.nextAdmissionAt.isZero ∧ now.before status.nextAdmissionAt) ∨
          status.oneHourAdmissions + 1 > pairingAdmissionOneHourLimit ∨
          status.twentyFourHourAdmissions + 1 > pairingAdmissionDayLimit ∨
          status.twentyFourHourPackets + envelope.packets > pairingAdmissionDayPackets then
        .error (.ledger { status with
          state := .rateLimited
          blocksActiveWork := true
          detail := "new worst-case envelope exceeds a persistent admission window" } .rateLimited)
      else .ok ()

/-- `ensureAdmissionCapacity`: reserve one maximum-size terminal frame, so that a
successful admission cannot consume the last record slot or byte range that FINISH
needs. -/
def ensureAdmissionCapacity (frameBytes : ℕ) : Except LedgerErr Unit :=
  if s.records.length + 2 > maxPairingLedgerRecords ∨
      s.bytes + frameBytes + 4 + maxPairingLedgerFrameBytes > maxPairingLedgerBytes then
    .error (.ledger { s.status with
      state := .capacityFull
      blocksActiveWork := true
      detail := "journal lacks reserved capacity for admission and terminal records" } .capacity)
  else .ok ()

def ensureRecordCapacity (frameBytes : ℕ) : Except LedgerErr Unit :=
  if s.records.length + 1 > maxPairingLedgerRecords ∨
      s.bytes + frameBytes > maxPairingLedgerBytes then
    .error (.ledger { s.status with
      state := .capacityFull
      blocksActiveWork := true
      detail := "journal reached a compiled capacity ceiling" } .capacity)
  else .ok ()

/-! ### Replay -/

/-- The order checks of the loop of `buildPairingLedgerSnapshot`; the loop index is the
number of records replayed so far. -/
def checkOrder (record : Record) : Except String Unit := do
  .failIf (record.sequence ≠ s.records.length + 1)
    ("pairing journal sequence " ++ toString record.sequence ++ ", want " ++
      toString (s.records.length + 1))
  .failIf (s.records.getLast?.any fun previous => record.recordedAt.before previous.recordedAt)
    "pairing journal timestamp regressed"

/-- The high-watermark after a record. -/
def watermark (record : Record) : Snapshot :=
  if record.recordedAt.after s.highWatermark then { s with highWatermark := record.recordedAt } else s

/-- The check of a reset record against the circuit of its class, at its own time. -/
def checkReset (record : Record) : Except String Unit :=
  if record.recordClass = .hardNATCampaign then
    let status := s.hardNATCampaignStatusAt record.recordedAt
    .failIf (¬ status.explicitResetRequired ∨ status.circuitOpenedAt.isZero)
      "hard NAT campaign reset has no matching open circuit"
  else do
    let status := s.statusAt record.recordedAt
    .failIf (¬ status.explicitResetRequired ∨ status.circuitOpenedAt.isZero)
      "circuit reset has no matching open circuit"
    .failIf (record.recordedAt.before status.circuitResetEligibleAt)
      "circuit reset precedes its minimum horizon"

/-- The switch of the loop of `buildPairingLedgerSnapshot`. -/
def applyRecord (record : Record) : Except String Snapshot :=
  match record.type with
  | .init => do
    .failIf (s.records.length ≠ 0) "initialize record is not first"
    .ok s
  | .rebuildBaseline => do
    .failIf (s.records.length ≠ 0) "rebuild baseline is not first"
    .ok { s with rebuildAt := record.recordedAt }
  | .burnAndAdmit => do
    .failIf (s.records.length = 0) "burn record precedes initialization"
    .failIf (s.admissions record.credentialID).isSome "credential has duplicate burn records"
    .failIf (s.attempts record.attemptID).isSome "attempt id has duplicate burn records"
    .ok { s with admissionOrder := s.admissionOrder ++ [{ record }] }
  | .finish =>
    match s.admissions record.credentialID with
    | none => .error "finish record has no matching admission"
    | some entry => do
      .failIf (entry.record.attemptID ≠ record.attemptID ∨
        entry.record.recordClass ≠ record.recordClass) "finish record has no matching admission"
      .failIf entry.finish.isSome "admission has duplicate finish records"
      .ok (s.setFinish record)
  | .circuitReset => do
    .failIf (s.records.length = 0) "circuit reset precedes initialization"
    s.checkReset record
    .ok s
  | .unknown text => .error ("unknown pairing journal record type \"" ++ text ++ "\"")

/-- The body of the loop of `buildPairingLedgerSnapshot`. -/
def replayRecord (record : Record) : Except String Snapshot := do
  s.checkOrder record
  let s ← (s.watermark record).applyRecord record
  .ok { s with records := s.records ++ [record] }

end Snapshot

def emptySnapshot (bytes : ℕ) (ownerInstanceID : String) : Snapshot where
  status := { state := .ready }
  bytes := bytes
  ownerInstanceID := ownerInstanceID

def buildPairingLedgerSnapshot (records : List Record) (bytes : ℕ) (ownerInstanceID : String) :
    Except String Snapshot := do
  .failIf (records = []) "pairing journal has no initialization record"
  let s ← records.foldlM Snapshot.replayRecord (emptySnapshot bytes ownerInstanceID)
  .ok { s with
    sequence := records.length
    status := {
      state := .ready, sequence := records.length, records := records.length, bytes := bytes
      highWatermark := s.highWatermark } }

end Winkyou
