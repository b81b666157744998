import Mathlib.Data.List.MinMax
import Winkyou.Spec.Governor.SafetyTrip

/-!
# Peer and attempt leases (`governor.go`, `loopback_termination.go`)

The leases live in a heap: a reference is the number of an allocation, and a Go map of
pointers is an association list of references. A channel that is only ever closed is a
boolean.
-/

namespace Winkyou.Governor

/-- A `*PeerLease`. -/
abbrev PeerRef := ℕ

/-- An `*AttemptLease`. -/
abbrev AttemptRef := ℕ

/-- `AttemptCost`: the complete worst-case declaration of an attempt. -/
structure AttemptCost where
  resources : Resources
  duration : Duration
  heavyweight : Bool := false
  deriving DecidableEq, Repr

structure AttemptRequest where
  id : String
  operation : Operation
  cost : AttemptCost
  deriving DecidableEq, Repr

structure PeerLease where
  peerID : String
  attempts : GoMap AttemptRef := ∅
  closed : Bool := false

/-- `attemptDrain`: one registered worker. -/
structure AttemptDrain where
  id : ℕ
  name : String
  accounting : Bool
  deriving DecidableEq, Repr

/-- `loopbackTerminal`. `networkDrained` and `accountingDone` are closed exactly when their
flags `networkClosed` and `accountingClosed` are set. -/
structure LoopbackTerminal where
  networkClosed : Bool := false
  accountingClosed : Bool := false
  accountingRegistered : Bool := false
  networkDone : Bool := false
  verdict : Bool := false
  settled : Bool := false
  networkErr : JoinedErr := []
  finishErr : JoinedErr := []
  result : JoinedErr := []
  deriving DecidableEq, Repr

/-- `AttemptLease`. The channels `stopping`, `drained` and `done` are closed exactly when
`stoppingStarted`, `drainedClosed` and `closed` are set. `completed` holds the ids of the
drains whose `once` has run. -/
structure AttemptLease where
  peer : PeerRef
  request : AttemptRequest
  drains : List AttemptDrain := []
  completed : List ℕ := []
  exclusiveClaims : List String := []
  nextDrainID : ℕ := 0
  stoppingStarted : Bool := false
  drainedClosed : Bool := false
  closed : Bool := false
  closeErr : JoinedErr := []
  terminal : Option LoopbackTerminal := none
  deriving DecidableEq, Repr

def maxAttemptDrainRegistrations : ℕ := 8

namespace AttemptLease

/-- An ordinary lease, as opposed to one of the two-phase loopback lifecycle. -/
def ordinary (l : AttemptLease) : Bool := l.terminal.isNone

/-- The part of `maybeCloseLoopbackNetworkLocked` that touches the terminal. -/
def closeLoopbackChannels (drains : List AttemptDrain) (terminal : LoopbackTerminal) :
    LoopbackTerminal :=
  { terminal with
    networkClosed := terminal.networkClosed || !drains.any (fun d => !d.accounting)
    accountingClosed := terminal.accountingClosed || !drains.any (fun d => d.accounting) }

def maybeCloseLoopbackNetwork (l : AttemptLease) : AttemptLease :=
  if l.stoppingStarted then { l with terminal := l.terminal.map (closeLoopbackChannels l.drains) }
  else l

/-- The lease's part of `beginAttemptStoppingLocked`. -/
def beginStopping (l : AttemptLease) : AttemptLease :=
  if l.closed || l.stoppingStarted then l
  else
    maybeCloseLoopbackNetwork
      { l with stoppingStarted := true, drainedClosed := l.drainedClosed || l.drains.isEmpty }

/-- `attemptDrain.Complete` of the drain `id`. -/
def complete (l : AttemptLease) (id : ℕ) : AttemptLease :=
  -- sync.Once
  if id ∈ l.completed then l
  else
    let l := { l with completed := id :: l.completed }
    if l.drains.any (fun d => d.id == id) then
      let drains := l.drains.filter (fun d => d.id != id)
      maybeCloseLoopbackNetwork
        { l with
          drains := drains
          drainedClosed := l.drainedClosed || (l.stoppingStarted && drains.isEmpty) }
    else l

/-- A new drain of the lease. -/
def addDrain (l : AttemptLease) (name : String) (accounting : Bool) : AttemptLease :=
  { l with
    nextDrainID := l.nextDrainID + 1
    drains := ⟨l.nextDrainID + 1, name, accounting⟩ :: l.drains
    terminal := l.terminal.map fun t =>
      { t with accountingRegistered := t.accountingRegistered || accounting } }

/-- `firstPendingDrainNameLocked`: the name of the pending drain with the least id. -/
def firstPendingDrainName (l : AttemptLease) : String :=
  match l.drains.argmin AttemptDrain.id with
  | none => "unknown"
  | some d => d.name

/-- An update of the terminal of a loopback lease. -/
def modifyTerminal (l : AttemptLease) (f : LoopbackTerminal → LoopbackTerminal) : AttemptLease :=
  { l with terminal := l.terminal.map f }

end AttemptLease

end Winkyou.Governor
