import Winkyou.Lib.Transition
import Winkyou.Spec.Governor.Governor

/-!
# Runs of the governor (`governor.go`, `loopback_termination.go`)

The close calls and the goroutines, section by section, and `step`: any caller may enter a
section, any goroutine may run its next one and any timer may fire, in any order. A receive
from a channel that stays closed is part of the section that follows it.
-/

namespace Winkyou.Governor

namespace State

/-! ## Close -/

/-- The first section of `AttemptLease.Close` (`closeLoopbackAttempt` for a loopback lease). A
call that finds the lease stopping only waits. -/
def attemptClose (s : State) (a : AttemptRef) : State :=
  let l := s.attempt a
  if l.ordinary then
    if l.closed || l.stoppingStarted then s
    else
      let s := s.beginStopping a
      s.spawn (.drain (s.drainCall .attemptClose [a]))
  else s.beginStopping a

/-- The first section of `PeerLease.Close`. -/
def peerClose (s : State) (p : PeerRef) : State :=
  if (s.peer p).closed then s
  else
    let s := s.modifyPeer p fun l => { l with closed := true }
    let attempts := GoMap.values (s.peer p).attempts
    let s := s.beginStoppingAll attempts
    s.spawn (.drain (s.drainCall (.peerClose p) attempts))

/-- `drainAttempts` of every active attempt, for `Governor.Close`. -/
def drainActive (s : State) : State :=
  let attempts := GoMap.values s.attempts
  let s := s.beginStoppingAll attempts
  s.spawn (.drain (s.drainCall .governorClose attempts))

/-- The first section of `Governor.Close`. A call that finds the governor closing only waits. -/
def governorClose (s : State) : State :=
  if s.closed || s.closing then s else { s with closing := true }.drainActive

def loopbackWorkOutstanding (s : State) : Bool :=
  (GoMap.values s.attempts).any fun a => (s.attempt a).terminal.any fun t => !t.settled

/-- One peer of the loop of `stopActiveLocked`. -/
def stopPeer (s : State) (p : PeerRef) : State :=
  let s := (GoMap.values (s.peer p).attempts).foldl releaseAttempt s
  s.modifyPeer p fun l => { l with closed := true }

def stopActive (s : State) : State :=
  { (GoMap.values s.peers).foldl stopPeer s with
    peers := ∅, attempts := ∅, reserved := {}, heavyweightAttempts := 0 }

/-- One peer of the loop of `finishSafetyTripDrain`. -/
def dropIdlePeer (s : State) (e : (_ : String) × PeerRef) : State :=
  if (s.peer e.2).attempts.entries.isEmpty then
    { s.modifyPeer e.2 fun l => { l with closed := true } with peers := s.peers.erase e.1 }
  else s

/-! ## `drainAttempts` -/

/-- The event of a drain that exceeded the timeout. -/
def drainTimeoutEvent (s : State) (a : AttemptRef) : SafetyTripEvent :=
  let l := s.attempt a
  { reason := .cancellation
    detail := "attempt cancellation exceeded " ++ durationString s.limits.cancellationDrainTimeout ++
      " with " ++ toString l.drains.length ++ " pending drain(s); first=" ++ l.firstPendingDrainName
    peerID := (s.peer l.peer).peerID
    attemptID := l.request.id
    buildVersion := s.owner.buildVersion }

/-- The section of `drainOrdinaryAttempts` that looks again at the candidate that timed out. -/
def recheck (s : State) (a : AttemptRef) (reply : StoreReply) : State × JoinedErr :=
  if !(s.attempt a).closed && !(s.attempt a).drains.isEmpty then
    match validateSafetyTripEvent (s.drainTimeoutEvent a) with
    | .error e => (s, [.cancellationDrainTimeout, e])
    | .ok _ =>
      let tripped := s.tripLocked (s.drainTimeoutEvent a) reply
      (tripped.1, .cancellationDrainTimeout :: tripped.2)
  else (s, [])

/-- One attempt of the release loop of `drainOrdinaryAttempts`. -/
def releaseOne (sr : State × JoinedErr) (a : AttemptRef) : State × JoinedErr :=
  let closeErr := (sr.1.attempt a).closeErr
  if closeErr.isEmpty then
    ((sr.1.modifyAttempt a fun l => { l with closeErr := sr.2 }).releaseAttempt a, sr.2)
  else (sr.1.releaseAttempt a, sr.2 ++ closeErr)

/-- The channel `drained` or the channel `done` of an attempt is closed. -/
def quiet (s : State) (a : AttemptRef) : Bool := (s.attempt a).drainedClosed || (s.attempt a).closed

/-- The caller's section after `drainAttempts`. -/
def afterDrain (s : State) (t : ℕ) (call : DrainCall) (result : JoinedErr) : State :=
  match call.caller with
  | .governorClose =>
    if s.loopbackWorkOutstanding then
      { s with
        closeErr := result ++ s.finalizationFault ++ [GovernorErr.terminalFinalizing]
        closing := false }.setThread t .idle
    else
      { s.stopActive with closed := true }.setThread t
        (.drain { call with point := .ownerClosed result })
  | .peerClose p =>
    let s := if s.peers.lookup (s.peer p).peerID = some p ∧ (s.peer p).attempts.entries = [] then
        { s with peers := s.peers.erase (s.peer p).peerID }
      else s
    s.setThread t .idle
  | .attemptClose => s.setThread t .idle
  | .tripDrain =>
    { s.peers.entries.foldl dropIdlePeer s with tripDrainStarted := false }.setThread t .idle

/-- The next section of a `drainAttempts` call; `none` while it has to wait. -/
def runDrain (s : State) (t : ℕ) (call : DrainCall) (reply : StoreReply) : Option State :=
  let goto (s : State) (point : DrainPoint) : State :=
    s.setThread t (.drain { call with point := point })
  match call.point with
  | .phasedStop =>
    let s := s.beginStoppingAll call.phased
    some (goto s (if call.ordinary.isEmpty then .phased 0 [] else .ordinaryStop))
  | .ordinaryStop => some (goto (s.beginStoppingAll call.ordinary) (.wait 0))
  | .wait i =>
    match call.ordinary[i]? with
    | none => some (goto s (.release []))
    | some a => if s.quiet a then some (goto s (.wait (i + 1))) else none
  | .scan i =>
    match call.ordinary[i]? with
    | none => some (goto s (.release []))
    | some a => some (goto s (if s.quiet a then .scan (i + 1) else .recheck a))
  | .recheck a =>
    let checked := s.recheck a reply
    some (goto checked.1 (.release checked.2))
  | .release result =>
    let released := call.ordinary.foldl releaseOne (s, result)
    some (goto released.1 (.phased 0 released.2))
  | .phased i result =>
    match call.phased[i]? with
    | none => some (goto s (.after result))
    | some a => some (goto (s.beginStopping a) (.verdict i result))
  | .verdict i result =>
    match call.phased[i]? with
    | none => some (goto s (.after result))
    | some a =>
      match (s.attempt a).terminal with
      | none => none
      | some terminal =>
        if terminal.verdict then some (goto s (.phased (i + 1) (result ++ terminal.result))) else none
  | .after result => some (s.afterDrain t call result)
  | .ownerClosed result => some ({ s with closeErr := result ++ reply.err }.setThread t .idle)

/-! ## `runLoopbackTermination` -/

/-- The event of a network drain that exceeded its deadline. -/
def loopbackTimeoutEvent (s : State) (a : AttemptRef) : SafetyTripEvent where
  reason := .cancellation
  detail := "loopback network drain exceeded its deadline"
  peerID := (s.peer (s.attempt a).peer).peerID
  attemptID := (s.attempt a).request.id
  buildVersion := s.owner.buildVersion

/-- The verdict is recorded: in the governor's fault when it timed out, in the terminal and in the
lease. -/
def recordVerdict (s : State) (a : AttemptRef) (result : JoinedErr) (timedOut : Bool) : State :=
  let s := if timedOut then
      { s with finalizationFault := s.finalizationFault ++ [.terminalFinalizationTimeout] } else s
  s.modifyAttempt a fun l =>
    { l.modifyTerminal (fun terminal => { terminal with result := result, verdict := true }) with
      closeErr := result }

/-- The section that gives the verdict; a clean one releases the attempt. -/
def settle (s : State) (t : ℕ) (a : AttemptRef) (terminal : LoopbackTerminal)
    (networkErr : JoinedErr) (timedOut : Bool) : State :=
  let result := networkErr ++ terminal.finishErr ++ if timedOut then [.terminalFinalizationTimeout]
    else []
  let s := s.recordVerdict a result timedOut
  if result.isEmpty then
    let s := { s with loopbackFinalizing := s.loopbackFinalizing - 1 }.releaseAttempt a
    (s.modifyAttempt a (·.modifyTerminal fun terminal =>
      { terminal with settled := true })).setThread t .idle
  else s.setThread t (.loopback a .drained)

/-- The next section of `runLoopbackTermination`; `none` while it has to wait. -/
def runLoopback (s : State) (t : ℕ) (a : AttemptRef) (point : LoopbackPoint) (reply : StoreReply) :
    Option State :=
  let goto (s : State) (point : LoopbackPoint) : State := s.setThread t (.loopback a point)
  match (s.attempt a).terminal with
  | none => none
  | some terminal =>
    match point with
    | .network => if terminal.networkClosed then some (goto s (.publish [])) else none
    | .networkExpired =>
      if terminal.networkClosed then some (goto s (.publish []))
      else
        let tripped := s.tripLocked (s.loopbackTimeoutEvent a) reply
        some (goto tripped.1 (.publish (.cancellationDrainTimeout :: tripped.2)))
    | .publish networkErr =>
      let s := s.modifyAttempt a (·.modifyTerminal fun terminal =>
        { terminal with networkErr := networkErr, networkDone := true })
      some (goto s (.accounting networkErr))
    | .accounting networkErr =>
      if terminal.accountingClosed then some (goto s (.settle networkErr false)) else none
    | .settle networkErr timedOut => some (s.settle t a terminal networkErr timedOut)
    | .drained =>
      if (s.attempt a).drainedClosed then
        some ((s.modifyAttempt a (·.modifyTerminal fun terminal =>
          { terminal with settled := true })).setThread t .idle)
      else none

def recordLoopbackFinishError (s : State) (a : AttemptRef) (cause : String) : State :=
  if (s.attempt a).ordinary then s
  else
    { s.modifyAttempt a (·.modifyTerminal fun terminal =>
        { terminal with finishErr := [.terminalFinalizationFailed cause] }) with
      finalizationFault := s.finalizationFault ++ [.terminalFinalizationFailed cause] }

/-! ## Steps -/

/-- The next section of a goroutine. -/
def run (s : State) (t : ℕ) (reply : StoreReply) : Option State :=
  match s.thread t with
  | .idle => none
  | .drain call => s.runDrain t call reply
  | .loopback a point => s.runLoopback t a point reply

/-- The timer of the select a goroutine waits in has fired. -/
def timeout (s : State) (t : ℕ) : Option State :=
  match s.thread t with
  | .drain call =>
    match call.point with
    | .wait i =>
      if i < call.ordinary.length then some (s.setThread t (.drain { call with point := .scan 0 }))
        else none
    | _ => none
  | .loopback a .network => some (s.setThread t (.loopback a .networkExpired))
  | .loopback a (.accounting networkErr) =>
    -- the inner select looks at the channel once more
    let timedOut := !(s.attempt a).terminal.any LoopbackTerminal.accountingClosed
    some (s.setThread t (.loopback a (.settle networkErr timedOut)))
  | _ => none

end State

/-- What can happen next: a caller's section, a goroutine's section, or a timer. -/
inductive Action
  /-- Go leaves the iteration order of a map open: it may change at any time. -/
  | shuffle (peers : GoMap PeerRef) (attempts : GoMap AttemptRef)
  /-- The same for the attempt map of a peer. -/
  | shufflePeer (p : PeerRef) (attempts : GoMap AttemptRef)
  | acquirePeer (peerID : String)
  | acquireAttempt (p : PeerRef) (request : AttemptRequest) (loopback : Bool) (reply : StoreReply)
  | claimExclusive (a : AttemptRef) (name : String)
  | registerDrain (a : AttemptRef) (name : String) (accounting : Bool)
  | complete (a : AttemptRef) (id : ℕ)
  | trip (event : SafetyTripEvent) (reply : StoreReply)
  | attemptTrip (a : AttemptRef) (event : SafetyTripEvent) (reply : StoreReply)
  | inspectPairing (a : AttemptRef) (expectedOwnerID : String) (fresh : SafetyTripStatus)
  | attemptClose (a : AttemptRef)
  | peerClose (p : PeerRef)
  | governorClose
  /-- The section of `awaitLoopbackNetwork`. -/
  | awaitLoopbackNetwork (a : AttemptRef)
  | recordLoopbackFinishError (a : AttemptRef) (cause : String)
  | run (t : ℕ) (reply : StoreReply)
  | timeout (t : ℕ)

/-- The state after a section that returns an error without a change, or the state it built. -/
def State.orKeep (s : State) : Except JoinedErr State → State
  | .ok s' => s'
  | .error _ => s

/-- A caller holds only references and handles that were given out. -/
def Action.held (s : State) : Action → Bool
  | .acquireAttempt p .. | .peerClose p | .shufflePeer p _ => decide (p < s.peerCount)
  | .claimExclusive a _ | .registerDrain a .. | .attemptTrip a .. | .inspectPairing a .. |
    .attemptClose a | .recordLoopbackFinishError a _ => decide (a < s.attemptCount)
  | .awaitLoopbackNetwork a => decide (a < s.attemptCount) && !(s.attempt a).ordinary
  | .complete a id => decide (a < s.attemptCount ∧ 1 ≤ id ∧ id ≤ (s.attempt a).nextDrainID)
  | _ => true

/-- The effect of an action whose references are held. -/
def State.perform (s : State) : Action → Option State
  | .shuffle peers attempts =>
    if peers.entries.Perm s.peers.entries ∧ attempts.entries.Perm s.attempts.entries then
      some { s with peers := peers, attempts := attempts }
    else none
  | .shufflePeer p attempts =>
    if attempts.entries.Perm (s.peer p).attempts.entries then
      some (s.modifyPeer p fun l => { l with attempts := attempts })
    else none
  | .acquirePeer peerID => some (s.orKeep (s.acquirePeer peerID))
  | .acquireAttempt p request loopback reply => some (s.acquireAttempt p request loopback reply).1
  | .claimExclusive a name => some (s.orKeep (s.claimExclusive a name))
  | .registerDrain a name accounting => some (s.orKeep (s.registerDrain a name accounting))
  | .complete a id => some (s.modifyAttempt a (·.complete id))
  | .trip event reply => some (s.tripCall event reply).1
  | .attemptTrip a event reply => some (s.attemptTrip a event reply).1
  | .inspectPairing a expectedOwnerID fresh => some (s.inspectPairing a expectedOwnerID fresh).1
  | .attemptClose a => some (s.attemptClose a)
  | .peerClose p => some (s.peerClose p)
  | .governorClose => some s.governorClose
  | .awaitLoopbackNetwork a => some (s.beginStopping a)
  | .recordLoopbackFinishError a cause => some (s.recordLoopbackFinishError a cause)
  | .run t reply => s.run t reply
  | .timeout t => s.timeout t

/-- **One atomic step**: a mutex-protected section, a channel receive or a timer. -/
def step (s : State) (act : Action) : Option State :=
  if act.held s then s.perform act else none

/-- A governor just built by `newGovernor`. -/
def Initial (s : State) : Prop :=
  ∃ owner profile requested trip, newGovernor owner profile requested trip = .ok s

end Winkyou.Governor
