import Mathlib.Data.List.Sort
import Mathlib.Logic.Function.Basic
import Winkyou.Spec.Governor.Lease

/-!
# The governor (`governor.go`, `loopback_termination.go`)

The state of one `Governor` with its leases and goroutines, and its mutex-protected
sections as functions on that state. A call that waits outside the mutex is a thread: a
program point, and the values the call still needs. `step` (`Spec/Governor/Run.lean`) runs
one section of one thread or one whole section of a caller.
-/

namespace Winkyou.Governor

/-! ## Threads -/

/-- Who runs `drainAttempts`, and so which section follows it. -/
inductive Caller
  | governorClose
  | peerClose (p : PeerRef)
  | attemptClose
  /-- `finishSafetyTripDrain`. -/
  | tripDrain
  deriving DecidableEq, Repr

/-- The next section, select or channel receive of a `drainAttempts` call. -/
inductive DrainPoint
  /-- `drainAttempts`: start the stop of every phased attempt. -/
  | phasedStop
  /-- `drainOrdinaryAttempts`: start the stop of every ordinary attempt. -/
  | ordinaryStop
  /-- `waitForAttemptDrains`: the select on attempt `i`. -/
  | wait (i : ℕ)
  /-- `waitForAttemptDrains` after the timer: the select on candidate `i`. -/
  | scan (i : ℕ)
  /-- The section that looks again at the candidate that timed out. -/
  | recheck (timedOut : AttemptRef)
  /-- The section that releases the ordinary attempts. -/
  | release (result : JoinedErr)
  /-- `closeLoopbackAttempt` of phased attempt `i`: start its stop. -/
  | phased (i : ℕ) (result : JoinedErr)
  /-- `closeLoopbackAttempt` of phased attempt `i`: wait for the verdict. -/
  | verdict (i : ℕ) (result : JoinedErr)
  /-- The caller's section after `drainAttempts`. -/
  | after (result : JoinedErr)
  /-- `Governor.Close` after `owner.closeClaimed`. -/
  | ownerClosed (result : JoinedErr)
  deriving DecidableEq, Repr

/-- A running `drainAttempts` call: its attempts split by lifecycle, the ordinary ones sorted
by request id. -/
structure DrainCall where
  caller : Caller
  ordinary : List AttemptRef
  phased : List AttemptRef
  point : DrainPoint := .phasedStop
  deriving DecidableEq, Repr

/-- The next section, select or channel receive of `runLoopbackTermination`. -/
inductive LoopbackPoint
  /-- The select on `networkDrained` and the network timer. -/
  | network
  /-- The section after the network timer. -/
  | networkExpired
  /-- The section that publishes the network result. -/
  | publish (networkErr : JoinedErr)
  /-- The select on `accountingDone` and the finish timer. -/
  | accounting (networkErr : JoinedErr)
  /-- The section that gives the verdict. -/
  | settle (networkErr : JoinedErr) (timedOut : Bool)
  /-- After a failed verdict: wait for `drained`, then settle. -/
  | drained
  deriving DecidableEq, Repr

inductive Thread
  /-- Returned, or never started. -/
  | idle
  | drain (call : DrainCall)
  | loopback (a : AttemptRef) (point : LoopbackPoint)
  deriving DecidableEq, Repr

/-! ## State -/

/-- **One governor, its heap and its goroutines.** -/
structure State where
  owner : OwnerInfo
  profile : Profile
  scope : Scope
  limits : Limits
  trip : SafetyTripStatus
  closing : Bool := false
  closed : Bool := false
  closeErr : JoinedErr := []
  tripDrainStarted : Bool := false
  loopbackFinalizing : ℤ := 0
  finalizationFault : JoinedErr := []
  peers : GoMap PeerRef := ∅
  attempts : GoMap AttemptRef := ∅
  reserved : Resources := {}
  heavyweightAttempts : ℤ := 0
  /-- The heap of peer leases; the references below `peerCount` are allocated. -/
  peer : PeerRef → PeerLease := fun _ => { peerID := "" }
  peerCount : ℕ := 0
  /-- The heap of attempt leases; the references below `attemptCount` are allocated. -/
  attempt : AttemptRef → AttemptLease := fun _ =>
    { peer := 0, request := { id := "", operation := .unknown "", cost := { resources := {}, duration := 0 } } }
  attemptCount : ℕ := 0
  thread : ℕ → Thread := fun _ => .idle
  threadCount : ℕ := 0

/-- The limits of a new governor: the compiled ceiling, or a configuration that lowers it. -/
def configuredLimits (hard : Limits) : Option Limits → Except GovernorErr Limits
  | none => .ok hard
  | some requested => do
    (validateNotRaised requested hard).mapError .limits
    .ok requested

/-- `newGovernor` under a usable owner whose trip store reads `trip`. -/
def newGovernor (owner : OwnerInfo) (profile : Profile) (requested : Option Limits)
    (trip : SafetyTripStatus) : Except GovernorErr State := do
  let scope ← profile.scope.mapError .limits
  .failIf (owner.scope ≠ scope) (.invalidRequest "owner scope does not match profile scope")
  let hard ← (hardLimits profile).mapError .limits
  let limits ← configuredLimits hard requested
  .failIf (trip.blocksActiveWork = true) (.safetyTrip trip)
  .ok { owner, profile, scope, limits, trip }

namespace State

/-! ## Heap and threads -/

def modifyAttempt (s : State) (a : AttemptRef) (f : AttemptLease → AttemptLease) : State :=
  { s with attempt := Function.update s.attempt a (f (s.attempt a)) }

def modifyPeer (s : State) (p : PeerRef) (f : PeerLease → PeerLease) : State :=
  { s with peer := Function.update s.peer p (f (s.peer p)) }

def setThread (s : State) (t : ℕ) (th : Thread) : State :=
  { s with thread := Function.update s.thread t th }

/-- `go`. -/
def spawn (s : State) (th : Thread) : State :=
  { s with thread := Function.update s.thread s.threadCount th, threadCount := s.threadCount + 1 }

/-- `drainAttempts` on a list of attempts, as a new call. -/
def drainCall (s : State) (caller : Caller) (attempts : List AttemptRef) : DrainCall where
  caller := caller
  ordinary := (attempts.filter fun a => (s.attempt a).ordinary).insertionSort fun a b =>
    (s.attempt a).request.id ≤ (s.attempt b).request.id
  phased := attempts.filter fun a => !(s.attempt a).ordinary

/-! ## Stopping and tripping -/

/-- `beginAttemptStoppingLocked`. -/
def beginStopping (s : State) (a : AttemptRef) : State :=
  let l := s.attempt a
  if l.closed || l.stoppingStarted then s
  else
    let s := s.modifyAttempt a AttemptLease.beginStopping
    if l.ordinary then s
    else { s with loopbackFinalizing := s.loopbackFinalizing + 1 }.spawn (.loopback a .network)

/-- `beginAttemptStoppingLocked` of every attempt of a list. -/
def beginStoppingAll (s : State) (attempts : List AttemptRef) : State :=
  attempts.foldl beginStopping s

def beginSafetyTripDrain (s : State) : State :=
  let attempts := GoMap.values s.attempts
  let s := s.beginStoppingAll attempts
  if attempts.isEmpty || s.tripDrainStarted then s
  else { s with tripDrainStarted := true }.spawn (.drain (s.drainCall .tripDrain attempts))

/-- `tripLocked`, with the answer of the trip store. -/
def tripLocked (s : State) (event : SafetyTripEvent) (reply : StoreReply) : State × JoinedErr :=
  if s.closed then (s, [.governorClosed])
  else if s.trip.blocksActiveWork then (s.beginSafetyTripDrain, [])
  else
    let answer := tripThen event reply
    -- the store calls back once the latch is durable
    let s := if answer.latched then s.beginSafetyTripDrain else s
    if answer.status.blocksActiveWork then
      ({ s with trip := answer.status }.beginSafetyTripDrain, answer.err)
    else
      let status := indeterminateSafetyTripStatus "trip operation did not produce a blocking state"
      ({ s with trip := status }.beginSafetyTripDrain,
        if answer.err.isEmpty then [.safetyTrip status] else answer.err)

def releaseAttempt (s : State) (a : AttemptRef) : State :=
  if (s.attempt a).closed then s
  else
    let s := s.beginStopping a
    let l := s.attempt a
    { s with
      attempt := Function.update s.attempt a { l with closed := true }
      attempts := s.attempts.erase l.request.id
      peer := Function.update s.peer l.peer
        { s.peer l.peer with attempts := (s.peer l.peer).attempts.erase l.request.id }
      reserved := s.reserved.subtract l.request.cost.resources
      heavyweightAttempts := s.heavyweightAttempts - if l.request.cost.heavyweight then 1 else 0 }

/-! ## Acquisition -/

def loopbackAdmissionBlocked (s : State) : Except JoinedErr Unit := do
  .failIf (s.finalizationFault ≠ []) s.finalizationFault
  .failIf (s.loopbackFinalizing ≠ 0) [.terminalFinalizing]

def acquirePeer (s : State) (peerID : String) : Except JoinedErr State := do
  (validateIdentifier "peer id" peerID).mapError ([·])
  .failIf (s.closed ∨ s.closing) [.governorClosed]
  s.loopbackAdmissionBlocked
  .failIf (s.trip.blocksActiveWork = true) [.safetyTrip s.trip]
  .failIf (peerID ∈ s.peers) [.duplicatePeer peerID]
  .failIf (s.peers.entries.length ≥ s.limits.maxActivePeers)
    [.limits (.limit ⟨"active_peers", s.peers.entries.length + 1, s.limits.maxActivePeers⟩)]
  .ok { s with
    peers := s.peers.insert peerID s.peerCount
    peer := Function.update s.peer s.peerCount { peerID := peerID }
    peerCount := s.peerCount + 1 }

def validateAttempt (s : State) (p : PeerRef) (request : AttemptRequest) :
    Except GovernorErr Unit := do
  let limit (field : String) (requested maximum : ℤ) : GovernorErr :=
    .limits (.limit ⟨field, requested, maximum⟩)
  validateIdentifier "attempt id" request.id
  .failIf (s.profile.allows request.operation = false)
    (.notAllowed ("profile=" ++ s.profile.text ++ " operation=" ++ request.operation.text))
  .failIf (request.id ∈ s.attempts) (.duplicateAttempt request.id)
  .failIf (s.attempts.entries.length ≥ s.limits.maxActiveAttempts)
    (limit "active_attempts" (s.attempts.entries.length + 1) s.limits.maxActiveAttempts)
  .failIf ((s.peer p).attempts.entries.length ≥ s.limits.maxAttemptsPerPeer)
    (limit "attempts_per_peer" ((s.peer p).attempts.entries.length + 1) s.limits.maxAttemptsPerPeer)
  request.cost.resources.validateNonNegative.mapError fun e => .invalidRequest e.text
  .failIf (request.cost.resources = {}) (.invalidRequest "attempt must reserve at least one resource")
  .failIf (request.cost.duration ≤ 0) (.invalidRequest "attempt duration must be positive")
  .failIf (request.cost.duration > s.limits.maxAttemptDuration)
    (limit "attempt_duration_ns" request.cost.duration s.limits.maxAttemptDuration)
  (resourcesWithin "per_attempt_" request.cost.resources s.limits.perAttempt).mapError .limits
  (resourcesWithin "aggregate_" (s.reserved.add request.cost.resources) s.limits.aggregate).mapError
    .limits
  .failIf (request.cost.heavyweight = true ∧ s.heavyweightAttempts ≥ s.limits.maxHeavyweightAttempts)
    (limit "heavyweight_attempts" (s.heavyweightAttempts + 1) s.limits.maxHeavyweightAttempts)

/-- The checks of `acquireAttempt` before `validateAttemptLocked`. -/
def acquireAllowed (s : State) (p : PeerRef) (request : AttemptRequest) (loopback : Bool) :
    Except JoinedErr Unit := do
  s.loopbackAdmissionBlocked
  .failIf (loopback = true ∧ (s.profile ≠ .phase1Machine ∨ request.operation ≠ .connectTest))
    [.notAllowed ""]
  .failIf (s.trip.blocksActiveWork = true) [.safetyTrip s.trip]
  .failIf (s.closed ∨ s.closing ∨ (s.peer p).closed) [.leaseClosed]

/-- The lease of an admitted request. -/
def openAttempt (s : State) (p : PeerRef) (request : AttemptRequest) (loopback : Bool) : State :=
  { s with
    attempt := Function.update s.attempt s.attemptCount
      { peer := p, request := request, terminal := if loopback then some {} else none }
    attemptCount := s.attemptCount + 1
    peer := Function.update s.peer p
      { s.peer p with attempts := (s.peer p).attempts.insert request.id s.attemptCount }
    attempts := s.attempts.insert request.id s.attemptCount
    reserved := s.reserved.add request.cost.resources
    heavyweightAttempts := s.heavyweightAttempts + if request.cost.heavyweight then 1 else 0 }

/-- The trip of a profile whose hard limits are exceeded. -/
def hardLimitEvent (s : State) (p : PeerRef) (request : AttemptRequest) (limit : LimitError) :
    SafetyTripEvent where
  reason := .hardLimit
  detail := s.profile.text ++ " hard limit " ++ limit.field ++ " exceeded"
  peerID := (s.peer p).peerID
  attemptID := request.id
  buildVersion := s.owner.buildVersion

/-- `acquireAttempt`, for `AcquireAttempt` and `AcquireLoopbackAttempt`. A request beyond a limit
trips the manual traversal and campaign profiles. -/
def acquireAttempt (s : State) (p : PeerRef) (request : AttemptRequest) (loopback : Bool)
    (reply : StoreReply) : State × JoinedErr :=
  match s.acquireAllowed p request loopback with
  | .error e => (s, e)
  | .ok _ =>
    match s.validateAttempt p request with
    | .ok _ => (s.openAttempt p request loopback, [])
    | .error (.limits (.limit limit)) =>
      if s.profile = .phase1ManualTraversal ∨ s.profile = .phase1HardNATCampaign then
        let tripped := s.tripLocked (s.hardLimitEvent p request limit) reply
        (tripped.1, .limits (.limit limit) :: tripped.2)
      else (s, [.limits (.limit limit)])
    | .error e => (s, [e])

/-! ## Drains -/

/-- `registerDrain`, for `RegisterDrain` and `registerPairingDrain`. -/
def registerDrain (s : State) (a : AttemptRef) (name : String) (accounting : Bool) :
    Except JoinedErr State := do
  let l := s.attempt a
  (validateIdentifier "drain name" name).mapError ([·])
  .failIf (s.closed ∨ s.closing ∨ l.closed ∨ l.stoppingStarted) [.leaseClosed]
  .failIf (accounting = true ∧ l.terminal.all LoopbackTerminal.accountingRegistered)
    [.invalidRequest ""]
  .failIf (l.drains.length ≥ maxAttemptDrainRegistrations)
    [.limits (.limit ⟨"attempt_drains", l.drains.length + 1, maxAttemptDrainRegistrations⟩)]
  .ok (s.modifyAttempt a (·.addDrain name accounting))

def claimExclusive (s : State) (a : AttemptRef) (name : String) : Except JoinedErr State := do
  let l := s.attempt a
  (validateIdentifier "exclusive claim" name).mapError ([·])
  .failIf (s.closed ∨ s.closing ∨ l.closed ∨ l.stoppingStarted) [.leaseClosed]
  .failIf (name ∈ l.exclusiveClaims) [.exclusiveClaimUsed]
  .ok (s.modifyAttempt a fun l => { l with exclusiveClaims := name :: l.exclusiveClaims })

/-! ## Trips and checks of a lease -/

/-- `Governor.Trip`. -/
def tripCall (s : State) (event : SafetyTripEvent) (reply : StoreReply) : State × JoinedErr :=
  match validateSafetyTripEvent event with
  | .error e => (s, [e])
  | .ok _ => s.tripLocked event reply

/-- `AttemptLease.Trip`: the identity is the lease's own. -/
def attemptTrip (s : State) (a : AttemptRef) (event : SafetyTripEvent) (reply : StoreReply) :
    State × JoinedErr :=
  let l := s.attempt a
  let event := { event with peerID := (s.peer l.peer).peerID, attemptID := l.request.id }
  match validateSafetyTripEvent event with
  | .error e => (s, [e])
  | .ok _ => if l.closed || l.stoppingStarted then (s, [.leaseClosed]) else s.tripLocked event reply

def pairingOperationAllowed (profile : Profile) (operation : Operation) : Bool :=
  profile == .phase1Machine && operation == .connectTest ||
    profile == .phase1ManualTraversal && (operation == .prediction || operation == .birthday) ||
    profile == .phase1HardNATCampaign && operation == .birthday

/-- The section of `inspectPairingAttempt` (`pairing_gate.go`), with the trip status the owner
reads afresh; the owner instance on success. -/
def inspectPairing (s : State) (a : AttemptRef) (expectedOwnerID : String)
    (fresh : SafetyTripStatus) :
    State × Except GovernorErr String :=
  let l := s.attempt a
  if s.scope ≠ .machine ∨ pairingOperationAllowed s.profile l.request.operation = false ∨
      s.owner.scope ≠ .machine then (s, .error .pairingMachineScopeRequired)
  else if s.trip.blocksActiveWork then (s, .error (.safetyTrip s.trip))
  else if fresh.blocksActiveWork then
    ({ s with trip := fresh }.beginSafetyTripDrain, .error (.safetyTrip fresh))
  else if s.closed ∨ s.closing ∨ l.closed ∨ l.stoppingStarted ∨ s.attempts.lookup l.request.id ≠
    some a then
    (s, .error .leaseClosed)
  else if s.owner.instanceID = "" then (s, .error .pairingMachineScopeRequired)
  else if expectedOwnerID ≠ "" ∧ s.owner.instanceID ≠ expectedOwnerID then
    (s, .error (.committedAttemptInvalid "machine owner instance changed"))
  else (s, .ok s.owner.instanceID)

end State

end Winkyou.Governor
