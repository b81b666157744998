import Mathlib.Logic.Function.Basic
import Winkyou.Spec.Selection.Wire

/-!
# The selection agreement of one session (`selection_agreement.go`)

Each critical section of `selectionAgreement.mu` is one function on the agreement. The program
reads the clock and its contexts only to give up: every such reading is an argument (`late`,
`expired`, an error), so that the deadlines themselves are not part of the state.
-/

namespace Winkyou.Selection

structure SelectionInbox where
  proposal : Option SelectionProposal
  confirm : Option SelectionConfirmation
  received : ℕ
  deriving DecidableEq, Repr

def SelectionInbox.empty : SelectionInbox := ⟨none, none, 0⟩

structure SelectionRound where
  ordinal : ℕ
  localProposal : SelectionProposal
  remote : SelectionInbox
  digest : String
  strategy : String
  confirmed : Bool
  entered : Bool
  deriving DecidableEq, Repr

/-- A `solver.Strategy` as selection sees it: its identity, its name, and whether it is an
`ExecutorFactory`. -/
structure Strategy where
  id : ℕ
  name : String
  factory : Bool
  deriving DecidableEq, Repr

structure SelectionAgreement where
  localCapability : SelectionCapability
  remote : Option SelectionCapability
  current : Option SelectionRound
  future : SelectionInbox
  err : Option Err
  cleanupErr : Bool
  strategyClosed : Bool
  previous : Option Strategy
  activeExecutors : List ℕ
  deriving DecidableEq, Repr

/-- `NewConverging`, with the random bytes of the epoch. -/
def newConverging (cfg : Config) (epoch : Bytes) : Except ErrorClass SelectionAgreement := do
  Except.failIf (!selectionIdentifier cfg.localNodeID 128 || !selectionIdentifier cfg.peerID 128 ||
    !selectionIdentifier cfg.sessionID 512 || cfg.localNodeID = cfg.peerID ||
    cfg.initiator ≠ decide (cfg.localNodeID < cfg.peerID) || decide (cfg.runTimeout ≤
      0)) .selectionInvalid
  let capability := normalizeCapability cfg.localCapability
  let localCapability : SelectionCapability :=
    { strategies := capability.strategies, features := capability.features
      version := selectionVersion, epoch := String.ofList (hexEncode epoch) }
  validateSelectionCapability localCapability
  .ok { localCapability, remote := none, current := none, future := .empty, err := none
        cleanupErr := false, strategyClosed := true, previous := none, activeExecutors := [] }

/-- A received proposal or confirmation. -/
inductive ControlMessage
  | proposal (p : SelectionProposal)
  | confirm (c : SelectionConfirmation)
  deriving DecidableEq, Repr

namespace ControlMessage

def binding : ControlMessage → SelectionBinding
  | proposal p => p.toSelectionBinding
  | confirm c => c.toSelectionBinding

/-- The checks of the fields that only one of the two kinds has. -/
def wellFormed : ControlMessage → Bool
  | proposal p => selectionList p.strategies selectionStrategyLimit true
  | confirm c => selectionIdentifier c.strategy selectionTokenLimit && selectionHex c.digest 32

end ControlMessage

/-- An inbox after one more message. An inbox that refuses it is cleared by `stopLocked`. -/
def SelectionInbox.put (inbox : SelectionInbox) : ControlMessage → Except ErrorClass SelectionInbox
  | .proposal p => do
    Except.failIf (selectionReceiveLimit < inbox.received + 1) .selectionInvalid
    Except.failIf (inbox.proposal.any fun q => q ≠ p) .selectionConflict
    .ok { inbox with proposal := some p, received := inbox.received + 1 }
  | .confirm c => do
    Except.failIf (selectionReceiveLimit < inbox.received + 1) .selectionInvalid
    Except.failIf (inbox.confirm.any fun q => q ≠ c) .selectionConflict
    .ok { inbox with confirm := some c, received := inbox.received + 1 }

/-- Where `receiveSelectionControl` puts a message of an ordinal. -/
inductive Slot
  | stale
  | current (round : SelectionRound)
  | future
  | conflict

namespace SelectionAgreement

/-- The error that `stopLocked` stores. -/
def terminalError : Err → Err
  | .selection cls cause => .selection cls cause
  | .context .deadlineExceeded => selectionDeadline .selectionTimeout
  | .context .canceled => .selection .selectionClosed (some .canceled)
  | .other => selectionFailure .selectionClosed

/-- `stopLocked`: the first error stays, and the inboxes are dropped. -/
def stopLocked (a : SelectionAgreement) (err : Err) : SelectionAgreement :=
  match a.err with
  | some _ => a
  | none =>
    { a with
      err := some (terminalError err)
      future := .empty
      current := a.current.map fun round => { round with remote := .empty } }

/-! ## Receiving -/

/-- What a session keeps of a received capability. -/
def receivedCapability (c : SelectionCapability) : SelectionCapability :=
  { c with
    strategies := (normalizeCapability c.domainWire).strategies
    features := (normalizeCapability c.domainWire).features }

/-- `receiveSelectionCapability`; `late`: the capability deadline has passed. -/
def receiveSelectionCapability (H : Hasher) (a : SelectionAgreement) (c : SelectionCapability)
    (late : Bool) :
    SelectionAgreement :=
  match validateSelectionCapability c with
  | .error cls => a.stopLocked (selectionFailure cls)
  | .ok () =>
    match a.err, a.remote with
    | some _, _ => a
    | none, some remote =>
      if remote.epoch ≠ c.epoch ∨
          selectionCapabilityDigest H remote.domainWire ≠
            selectionCapabilityDigest H (receivedCapability c).domainWire then
        a.stopLocked (selectionFailure .selectionConflict)
      else { a with remote := some (receivedCapability c) }
    | none, none =>
      if late then a.stopLocked (selectionDeadline .capabilityMissing)
      else { a with remote := some (receivedCapability c) }

def slotOf (a : SelectionAgreement) (ordinal : ℕ) : Slot :=
  match a.current with
  | none => if ordinal ≠ 0 then .conflict else .future
  | some round =>
    if ordinal < round.ordinal then .stale
    else if ordinal = round.ordinal then .current round
    else if round.ordinal = 2 ^ 64 - 1 ∨ ordinal ≠ round.ordinal + 1 then .conflict
    else .future

/-- Whether the binding of a message names the two sessions. -/
def bindingNames (H : Hasher) (a : SelectionAgreement) (b : SelectionBinding) : Bool :=
  b.toEpoch == a.localCapability.epoch &&
    b.receiverCapability == selectionCapabilityDigest H a.localCapability.domainWire &&
    a.remote.all fun remote =>
      b.fromEpoch == remote.epoch && b.senderCapability == selectionCapabilityDigest H remote.domainWire

/-- Once committed, even a first delayed conflicting confirmation is terminal. -/
def contradictsCommit (round : SelectionRound) (inbox : SelectionInbox) : Bool :=
  round.confirmed && inbox.confirm.all fun c => c.digest ≠ round.digest || c.strategy ≠ round.strategy

/-- The critical section of `receiveSelectionControl`. -/
def fileControl (H : Hasher) (a : SelectionAgreement) (m : ControlMessage) (ordinal : ℕ) :
    SelectionAgreement :=
  if a.err.isSome then a
  else if !a.bindingNames H m.binding then a.stopLocked (selectionFailure .selectionConflict)
  else
    match a.slotOf ordinal with
    | .stale => a
    | .conflict => a.stopLocked (selectionFailure .selectionConflict)
    | .future =>
      match a.future.put m with
      | .error cls => a.stopLocked (selectionFailure cls)
      | .ok inbox => { a with future := inbox }
    | .current round =>
      match round.remote.put m with
      | .error cls => a.stopLocked (selectionFailure cls)
      | .ok inbox =>
        if contradictsCommit round inbox then a.stopLocked (selectionFailure .selectionConflict)
        else { a with current := some { round with remote := inbox } }

def receiveSelectionControl (H : Hasher) (a : SelectionAgreement) (m : ControlMessage) :
    SelectionAgreement :=
  if !m.wellFormed then a.stopLocked (selectionFailure .selectionInvalid)
  else
    match validateSelectionBinding m.binding, selectionOrdinal m.binding.ordinal with
    | .error cls, _ => a.stopLocked (selectionFailure cls)
    | .ok (), .error cls => a.stopLocked (selectionFailure cls)
    | .ok (), .ok ordinal => a.fileControl H m ordinal

/-! ## Agreeing on the candidates -/

def requirePreviousSelectionClosed (a : SelectionAgreement) : Option Err :=
  match a.err with
  | some e => some e
  | none =>
    if a.cleanupErr ∨ a.activeExecutors ≠ [] then some (selectionFailure .selectionPreviousActive)
    else
      match a.previous with
      | none => none
      | some strategy =>
        if a.strategyClosed ∨ strategy.factory then none
          else some (selectionFailure .selectionPreviousActive)

end SelectionAgreement

/-- The local variables of `agreeCandidates` once its round is open. -/
structure Call where
  proposal : SelectionProposal
  localCap : Capability
  remoteCap : Capability
  deriving DecidableEq, Repr

/-- The binding that the peer's messages of the round must carry. -/
def SelectionBinding.expected (b : SelectionBinding) : SelectionBinding :=
  { b with
    fromEpoch := b.toEpoch, toEpoch := b.fromEpoch
    senderCapability := b.receiverCapability, receiverCapability := b.senderCapability }

/-- The proposal of a round. -/
def proposalOf (H : Hasher) (own remote : SelectionCapability) (candidates : List String)
    (ordinal : ℕ) (previous : String) : SelectionProposal :=
  { version := selectionVersion
    fromEpoch := own.epoch
    toEpoch := remote.epoch
    ordinal := formatUint ordinal
    senderCapability := selectionCapabilityDigest H own.domainWire
    receiverCapability := selectionCapabilityDigest H remote.domainWire
    previous
    previousClosed := true
    strategies := candidates }

namespace SelectionAgreement

/-- The rest of the critical section of `agreeCandidates` once the ordinal is known. -/
def openRound (H : Hasher) (a : SelectionAgreement) (remote : SelectionCapability)
    (candidates : List String) (ordinal : ℕ) (previous : String) :
    Except Err (SelectionAgreement × Call) := do
  let localCap := a.localCapability.domainWire
  let remoteCap := remote.domainWire
  let proposal := proposalOf H a.localCapability remote candidates ordinal previous
  Except.failIf (candidates.any fun name => name ∉ localCap.strategies || name ∉ remoteCap.strategies)
    (selectionFailure .selectionConflict)
  Except.failIf (!selectionList candidates selectionStrategyLimit true)
    (selectionFailure .selectionInvalid)
  let round : SelectionRound :=
    { ordinal, localProposal := proposal, remote := a.future
      digest := "", strategy := "", confirmed := false, entered := false }
  .ok ({ a with current := some round, future := .empty }, { proposal, localCap, remoteCap })

/-- The critical section of `agreeCandidates` that opens the next round. -/
def openNext (H : Hasher) (a : SelectionAgreement) (candidates : List String) :
    Except Err (SelectionAgreement × Call) :=
  match a.err, a.remote, a.current with
  | some e, _, _ => .error e
  | none, none, _ => .error (selectionFailure .capabilityMissing)
  | none, some remote, none => a.openRound H remote candidates 0 ""
  | none, some remote, some round =>
    if round.ordinal = 2 ^ 64 - 1 then .error (selectionFailure .selectionInvalid)
    else a.openRound H remote candidates (round.ordinal + 1) round.digest

end SelectionAgreement

/-- What `agreeCandidates` makes of the peer's proposal: its own confirmation. -/
def confirmProposal (H : Hasher) (cfg : Config) (call : Call) (remote : SelectionProposal) :
    Except Err SelectionConfirmation := do
  Except.failIf (remote.toSelectionBinding ≠ call.proposal.toSelectionBinding.expected)
    (selectionFailure .selectionConflict)
  Except.failIf (remote.strategies.any fun name =>
    name ∉ call.remoteCap.strategies || name ∉
      call.localCap.strategies) (selectionFailure .selectionConflict)
  let joint ← (jointSelection cfg call.localCap call.remoteCap call.proposal remote).mapError
    selectionFailure
  .ok { toSelectionBinding := call.proposal.toSelectionBinding
        strategy := joint.order.headD "", digest := selectionHash H (.joint joint) }

/-- Whether the peer's confirmation matches the own one. -/
def confirmationMatches (call : Call) (own received : SelectionConfirmation) : Bool :=
  received.toSelectionBinding == call.proposal.toSelectionBinding.expected &&
    received.digest == own.digest && received.strategy == own.strategy

namespace SelectionAgreement

/-- `round.confirmed, round.digest, round.strategy = true, digest, joint.Order[0]`. -/
def confirmRound (a : SelectionAgreement) (round : SelectionRound) (own : SelectionConfirmation) :
    SelectionAgreement :=
  { a with current := some { round with confirmed := true, digest := own.digest, strategy := own.strategy } }

/-- Whether `prepareCandidateAgreement` finds a confirmed round for the candidate. -/
def ready (a : SelectionAgreement) (name : String) : Bool :=
  a.err.isNone && a.current.any fun round => round.confirmed && !round.entered && round.strategy == name

/-- `enterSelection`: the agreement, and the round that was entered. `ctxErr` is the error of the
context, `expired`: the deadline of the round has passed. -/
def enterSelection (a : SelectionAgreement) (strategy : Strategy) (ctxErr : Option ContextErr)
    (expired : Bool) :
    SelectionAgreement × Option SelectionRound :=
  match a.err, a.current with
  | some _, _ => (a, none)
  | none, none => (a.stopLocked (selectionFailure .selectionConflict), none)
  | none, some round =>
    if !round.confirmed ∨ round.entered ∨ round.strategy ≠ strategy.name then
      (a.stopLocked (selectionFailure .selectionConflict), none)
    else
      match ctxErr with
      | some e => (a.stopLocked (.context e), none)
      | none =>
        if expired then (a.stopLocked (selectionDeadline .selectionTimeout), none)
        else
          ({ a with current := some { round with entered := true }, previous := some strategy
                    strategyClosed := false }, some round)

/-! ## Cleaning up -/

/-- `selectionCleanup` of a function that failed. -/
def cleanupFailed (a : SelectionAgreement) : SelectionAgreement :=
  { a with cleanupErr := true }.stopLocked (selectionFailure .selectionPreviousActive)

/-- `closeSelectionStrategy`; `failed`: `Close` returned an error. -/
def closeSelectionStrategy (a : SelectionAgreement) (strategy : Strategy) (failed : Bool) :
    SelectionAgreement :=
  if failed then a.cleanupFailed
  else if a.previous = some strategy then { a with strategyClosed := true }
  else a

def openSelectionExecutor (a : SelectionAgreement) (executor : ℕ) : SelectionAgreement :=
  { a with activeExecutors := a.activeExecutors.insert executor }

/-- `closeSelectionExecutor`; `failed`: `Close` returned an error. -/
def closeSelectionExecutor (a : SelectionAgreement) (executor : ℕ) (failed : Bool) :
    SelectionAgreement :=
  if failed then a.cleanupFailed
  else { a with activeExecutors := a.activeExecutors.filter (· ≠ executor) }

end SelectionAgreement

end Winkyou.Selection
