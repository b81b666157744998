import Winkyou.Spec.Ledger.Ledger

/-!
# The pairing gate (`pairing_gate.go`, `finishLoopback` of `loopback_termination.go`)

A committed attempt and its carrier authorization, with every call on them as a thread. A section
under a mutex is one step; between its sections a call is at a `Point`, where any other call can
run. What a call learns from outside (`inspectPairingAttempt`, the drains, the loopback verdict) is
an argument of the step, so every answer is possible at any time. The journal is the one of the
ledger, and other admissions keep using it.
-/

namespace Winkyou.PairingGate

/-- The errors that the gate tells apart. -/
inductive GateErr
  | deadlineExceeded
  | canceled
  | credentialExpired
  | leaseClosed
  | safetyTripped
  | machineScopeRequired
  | committedAttemptInvalid
  | committedAttemptConsumed
  | firstEmissionAlreadyAuthorized
  /-- `ErrPairingLedgerInvalidRequest` with the reason refused. -/
  | invalidTerminalReason (reason : TerminalReason)
  /-- An error of the pairing ledger. -/
  | ledger (e : LedgerErr)
  /-- Any other error: of a hook, of a drain or of the governor. -/
  | other (text : String)

/-- An error built by `errors.Join`: the errors joined, none for `nil`. -/
abbrev Errors := List GateErr

def pairingTerminalReasonForGateError (err : Errors) : TerminalReason :=
  if err.any (· matches .deadlineExceeded | .credentialExpired) then .expired
  else if err.any (· matches .canceled | .leaseClosed | .safetyTripped) then .cancelled
  else if err.any (· matches .machineScopeRequired | .committedAttemptInvalid) then .scopeChanged
  else .protocolError

/-! ## State -/

inductive Call
  | consumeForCarrier
  | beforeFirstEmission
  | checkActive
  | finish (reason : TerminalReason)
  | watchInvalidation

/-- Where a call is. `cause` is the error that made the call finish the attempt, none for `Finish`
itself and for the watcher. -/
inductive Point
  | start
  /-- `ConsumeForCarrier` found the terminal chosen and waits for it to be finished. -/
  | awaitConsumed
  /-- Before the section of `validate`. -/
  | validate
  /-- `validate` found the terminal chosen and waits for it to be finished. -/
  | awaitTerminal
  /-- Past the section of `validate`: the contexts and `inspectPairingAttempt`. -/
  | inspect
  /-- Before the section of `finish`. -/
  | finish (reason : TerminalReason) (cause : Errors)
  /-- `finish` found the terminal chosen with reason `chosen` and waits for it to be finished. -/
  | awaitFinish (chosen reason : TerminalReason) (cause : Errors)
  /-- `finish` has chosen the terminal. -/
  | write (reason : TerminalReason) (cause : Errors)
  /-- Before `drain.Complete`, with the result of the ledger. -/
  | complete (reason : TerminalReason) (err cause : Errors)
  /-- Before the last section of `finish`. -/
  | publish (reason : TerminalReason) (err cause : Errors)
  /-- In `closeLoopbackAttempt`, which returns the verdict. -/
  | verdict (reason : TerminalReason) (cause : Errors)
  | awaitWriter (reason : TerminalReason) (cause : Errors)
  /-- Before the last section of `finishLoopback`. -/
  | publishLoopback (reason : TerminalReason) (result cause : Errors)
  | returned (err : Errors)

/-- A call. `late` and `finished` are history: whether the terminal was already chosen when the call
began, and what its `finish` returned. -/
structure Thread where
  call : Call
  late : Bool
  point : Point := .start
  finished : Option (TerminalReason × Errors) := none

/-- Where the writer of `finishLoopback` is. -/
inductive WriterPoint
  | hook
  | keepHookErr (hookErr : Errors)
  | network (hookErr : Errors)
  | ledger (hookErr networkErr : Errors)
  | publish (err : Errors)
  | complete
  | done

/-- `CommittedAttempt`, the carrier authorization made from it (`first`, and the call that holds its
mutex), the journal and the calls. The first call is the watcher. -/
structure Gate where
  ledger : World Journal
  receipt : Receipt
  loopback : Bool
  consumed : Bool := false
  terminalChosen : Bool := false
  terminalReason : TerminalReason := .none
  terminalErr : Errors := []
  finished : Bool := false
  writer : Option (TerminalReason × WriterPoint) := none
  writerErr : Errors := []
  writerDone : Bool := false
  first : Bool := false
  holder : Option ℕ := none
  threads : List Thread := [{ call := .watchInvalidation, late := false }]

/-- What a step learns from outside: the error of an inspection, of a hook, of a drain, of the
verdict or of `holdOwner`, the clock, and whether an append is reported as synchronized. -/
structure Answer where
  err : Errors := []
  now : Time
  reported : Bool := true

/-- Why the watcher fires. -/
inductive Invalidation
  | stopping
  | contextEnd (deadline : Bool)
  | expiry

def Invalidation.reason : Invalidation → TerminalReason
  | .stopping => .cancelled
  | .contextEnd deadline => if deadline then .expired else .cancelled
  | .expiry => .expired

namespace Gate

/-! ## The steps of a call -/

/-- The return of a call; `BeforeFirstEmission` gives back the mutex. -/
def ret (g : Gate) (t : ℕ) (th : Thread) (err : Errors) : Gate × Thread :=
  ({ g with holder := if g.holder = some t then none else g.holder },
    { th with point := .returned err })

/-- The return of `finish`, and then of its caller. -/
def finishRet (g : Gate) (t : ℕ) (th : Thread) (reason : TerminalReason) (err cause : Errors) :
    Gate × Thread :=
  g.ret t { th with finished := some (reason, err) } (cause ++ err)

/-- `validate` returned an error: the caller finishes the attempt for it. -/
def invalid (g : Gate) (th : Thread) (err : Errors) : Gate × Thread :=
  (g, { th with point := .finish (pairingTerminalReasonForGateError err) (.committedAttemptInvalid
    :: err) })

/-- `validate` returned nil. -/
def accept (g : Gate) (t : ℕ) (th : Thread) : Gate × Thread :=
  match th.call with
  | .beforeFirstEmission => { g with first := true }.ret t th []
  | _ => g.ret t th []

/-- The first section of a call; none if the mutex of the authorization is held. -/
def startCall (g : Gate) (t : ℕ) (th : Thread) : Option (Gate × Thread) :=
  match th.call with
  | .consumeForCarrier =>
    if g.consumed then some (g.ret t th [.committedAttemptConsumed])
    else if g.terminalChosen then some (g, { th with point := .awaitConsumed })
    else some ({ g with consumed := true }, { th with point := .validate })
  | .beforeFirstEmission =>
    if g.holder.isSome then none
    else if g.first then some (g.ret t th [.firstEmissionAlreadyAuthorized])
    else some ({ g with holder := some t }, { th with point := .validate })
  | .checkActive =>
    if g.holder.isSome then none
    else if g.first then some (g, { th with point := .validate })
    else some (g.ret t th [.committedAttemptInvalid])
  | .finish reason =>
    if g.holder.isSome then none
    else if reason = .success ∧ g.first = false then some (g.ret t th [.committedAttemptInvalid])
    else some (g, { th with point := .finish reason [] })
  -- the watcher's select: it returns when the terminal is finished, and fires by an action of its
  -- own
  | .watchInvalidation => if g.finished then some (g.ret t th []) else none

/-- `finish` up to its first section. -/
def choose (g : Gate) (t : ℕ) (th : Thread) (reason : TerminalReason) (cause : Errors) :
    Gate × Thread :=
  if reason.valid = false then g.finishRet t th reason [.invalidTerminalReason reason] cause
  else if g.terminalChosen then (g, { th with point := .awaitFinish g.terminalReason reason cause })
  else ({ g with terminalChosen := true, terminalReason := reason },
    { th with point := .write reason cause })

/-- `ledger.Finish` with the receipt of the attempt. -/
def finishLedger (sha : Sha256) (g : Gate) (reason : TerminalReason) (o : Answer) : Gate × Errors :=
  if o.err ≠ [] then (g, o.err)
  else
    ({ g with ledger := g.ledger.act journalStorage sha (.finish o.now g.receipt reason o.reported) },
      match (journalStorage.finish sha g.ledger.journal g.ledger.owner o.now g.receipt reason
      o.reported).2 with
      | .ok () => []
      | .error e => [.ledger e])

/-- The last section of a `finish` that has chosen the terminal. -/
def publish (g : Gate) (t : ℕ) (th : Thread) (reason : TerminalReason) (err cause : Errors) :
    Gate × Thread :=
  { g with terminalErr := err, finished := true }.finishRet t th reason err cause

/-- The next section of a call; none while it waits. -/
def advance (sha : Sha256) (g : Gate) (t : ℕ) (th : Thread) (o : Answer) : Option (Gate × Thread) :=
  match th.point with
  | .start => g.startCall t th
  | .awaitConsumed =>
    if g.finished then some (g.ret t th (.committedAttemptInvalid :: g.terminalErr)) else none
  | .validate => some (g, { th with point := if g.terminalChosen then .awaitTerminal else .inspect })
  | .awaitTerminal =>
    if g.finished then some (g.invalid th (.committedAttemptInvalid :: g.terminalErr)) else none
  | .inspect => some (if o.err = [] then g.accept t th else g.invalid th o.err)
  | .finish reason cause => some (g.choose t th reason cause)
  | .awaitFinish chosen reason cause =>
    if g.finished then
      some (g.finishRet t th reason
        (if chosen ≠ reason then .committedAttemptInvalid :: g.terminalErr else g.terminalErr) cause)
    else none
  | .write reason cause =>
    if g.loopback then some ({ g with writer := some (reason, .hook) },
      { th with point := .verdict reason cause })
    else
      let (g, err) := g.finishLedger sha reason o
      some (g, { th with point := .complete reason err cause })
  | .complete reason err cause => some (g, { th with point := .publish reason (err ++ o.err) cause })
  | .publish reason err cause => some (g.publish t th reason err cause)
  | .verdict reason cause =>
    some (g, { th with point := if o.err = [] then .awaitWriter reason cause else .publishLoopback reason o.err cause })
  | .awaitWriter reason cause =>
    if g.writerDone then some (g, { th with point := .publishLoopback reason [] cause }) else none
  | .publishLoopback reason result cause => some (g.publish t th reason (result ++ g.writerErr) cause)
  | .returned _ => none

/-- The next step of the writer of `finishLoopback`. -/
def write (sha : Sha256) (g : Gate) (o : Answer) : Option Gate :=
  match g.writer with
  | none | some (_, .done) => none
  | some (reason, .hook) => some { g with writer := some (reason, .keepHookErr o.err) }
  | some (reason, .keepHookErr hookErr) =>
    some { g with writerErr := hookErr, writer := some (reason, .network hookErr) }
  | some (reason, .network hookErr) => some { g with writer := some (reason, .ledger hookErr o.err) }
  | some (reason, .ledger hookErr networkErr) =>
    let (g, finishErr) := g.finishLedger sha reason o
    some { g with writer := some (reason, .publish (hookErr ++ networkErr ++ finishErr)) }
  | some (reason, .publish err) =>
    some { g with writerErr := err, writerDone := true, writer := some (reason, .complete) }
  | some (reason, .complete) => some { g with writer := some (reason, .done) }

/-! ## Runs -/

/-- `ConsumeForCarrier` has returned the authorization to a caller. -/
def authorized (g : Gate) : Bool :=
  g.threads.any fun th => (th.call matches .consumeForCarrier) && (th.point matches .returned [])

/-- The calls that can be made: those of the authorization only once it has been returned. -/
def callable (g : Gate) : Call → Bool
  | .consumeForCarrier => true
  | .beforeFirstEmission | .checkActive | .finish _ => g.authorized
  | .watchInvalidation => false

inductive Action
  | call (call : Call)
  | run (t : ℕ) (o : Answer)
  | fire (invalidation : Invalidation)
  | write (o : Answer)
  /-- A use of the journal for another admission, or a change of its owner. -/
  | other (a : Winkyou.Action Bool)

/-- Whether a call of the ledger is a `Finish` of a credential. -/
def finishes (credentialID : String) : Winkyou.Action Bool → Bool
  | .finish _ receipt _ _ => receipt.credentialID == credentialID
  | _ => false

/-- The action is for another admission: a credential is admitted once, and its receipt is in the
gate only. -/
def foreign (g : Gate) (a : Winkyou.Action Bool) : Prop :=
  a.legal g.ledger ∧ finishes g.receipt.credentialID a = false

instance (g : Gate) (a : Winkyou.Action Bool) : Decidable (g.foreign a) :=
  inferInstanceAs (Decidable (_ ∧ _))

def step (sha : Sha256) (g : Gate) : Action → Option Gate
  | .call call =>
    if g.callable call then some { g with threads := g.threads ++ [{ call := call, late := g.terminalChosen }] }
    else none
  | .run t o => do
    let th ← g.threads[t]?
    let (g', th') ← g.advance sha t th o
    return { g' with threads := g.threads.set t th' }
  | .fire invalidation =>
    match g.threads with
    | ⟨.watchInvalidation, late, .start, finished⟩ :: rest =>
      some { g with threads := ⟨.watchInvalidation, late, .finish invalidation.reason [],
        finished⟩ :: rest }
    | _ => none
  | .write o => g.write sha o
  | .other a =>
    if g.foreign a then some { g with ledger := g.ledger.act journalStorage sha a } else none

/-- The gate as `Commit` returns it: `Admit` has handed out the receipt, and the watcher has
started. -/
def Initial (sha : Sha256) (g : Gate) : Prop :=
  ∃ w now request reported receipt loopback, World.Reachable sha w ∧
    (journalStorage.admitRequest sha w.journal w.owner now request reported).2 = .ok receipt ∧
    g = { ledger := w.act journalStorage sha (.admitRequest now request reported), receipt := receipt
          loopback := loopback }

/-- The FINISH records of the admission. -/
def finishRecords (g : Gate) : List Record :=
  g.ledger.journal.records.filter fun r => r.type == .finish && r.credentialID == g.receipt.credentialID

end Gate

end Winkyou.PairingGate
