import Winkyou.Spec.Selection.Agreement

/-!
# Two sessions and the messages between them

`executeMu` lets one call of `agreeCandidates` run at a time: its program counter is a `Point`.
Messages, the calls of `stopSelection` and the cleanup run beside it, between any two of its
critical sections. A message that was sent may be delivered at any later time, any number of
times, or never.

A `Party` is a session with the history that the theorems speak of: what it sent, what was
delivered to it, and which rounds it confirmed and entered.
-/

namespace Winkyou.Selection

open SelectionAgreement

inductive Payload
  | capability (c : SelectionCapability)
  | control (m : ControlMessage)
  deriving DecidableEq, Repr

structure Envelope where
  sessionID : String
  fromNode : String
  toNode : String
  payload : Payload
  deriving DecidableEq, Repr

/-- Where the running call of `agreeCandidates` is. -/
inductive Point
  | idle
  /-- `requirePreviousSelectionClosed` returned nil -/
  | opening (candidates : List String)
  | sendProposal (call : Call)
  | awaitProposal (call : Call)
  | sendConfirm (call : Call) (own : SelectionConfirmation)
  | awaitConfirm (call : Call) (own : SelectionConfirmation)
  | commit (call : Call) (own : SelectionConfirmation)
  /-- before the `stopSelection` of a failed call -/
  | failing (err : Err)
  deriving DecidableEq, Repr

structure Session where
  cfg : Config
  agreement : SelectionAgreement
  point : Point
  deriving DecidableEq, Repr

namespace Session

def newEnvelope (s : Session) (payload : Payload) : Envelope :=
  ⟨s.cfg.sessionID, s.cfg.localNodeID, s.cfg.peerID, payload⟩

def stopSelection (s : Session) (err : Err) : Session :=
  { s with agreement := s.agreement.stopLocked err }

/-- `handleEnvelopeMessage` of the three selection messages. -/
def handleEnvelopeMessage (H : Hasher) (s : Session) (e : Envelope) (late : Bool) : Session :=
  if e.sessionID ≠ s.cfg.sessionID ∨ e.fromNode ≠ s.cfg.peerID ∨ e.toNode ≠ s.cfg.localNodeID then
    s.stopSelection (selectionFailure .selectionInvalid)
  else
    match e.payload with
    | .capability c => { s with agreement := s.agreement.receiveSelectionCapability H c late }
    | .control m => { s with agreement := s.agreement.receiveSelectionControl H m }

/-- The start of `agreeCandidates`. -/
def agreeCandidates (s : Session) (candidates : List String) : Session :=
  match s.agreement.requirePreviousSelectionClosed with
  | some err => { s with point := .failing err }
  | none => { s with point := .opening candidates }

/-- `failed` of `agreeCandidates`. -/
def failed (err : Err) : Point :=
  .failing (if err = .context .deadlineExceeded then selectionDeadline .selectionTimeout else err)

end Session

/-- A round with what was agreed in it. -/
structure Decision where
  ordinal : ℕ
  strategy : String
  digest : String
  deriving DecidableEq, Repr

structure Party where
  session : Session
  sent : List Envelope
  delivered : List Envelope
  confirmed : List Decision
  entered : List Decision
  deriving DecidableEq, Repr

/-- What a session and its environment do. -/
inductive Action
  /-- `sendCapability` at the start of a pass; `err` is its error, and a send that failed may
  have put the message on its way (`emitted`) -/
  | sendCapability (err : Option Err) (emitted : Bool)
  /-- a `stopSelection` outside `agreeCandidates` -/
  | stop (err : Err)
  | agree (candidates : List String)
  | prepare (candidate : String)
  /-- the critical section that opens the round -/
  | openRound
  /-- `sendSelection` -/
  | send (err : Option Err) (emitted : Bool)
  /-- one pass of the loop that waits for the peer's message -/
  | read
  /-- `agreeCtx` is done -/
  | expire (err : ContextErr)
  /-- the critical section that confirms the round; `expired`: its deadline has passed -/
  | commit (expired : Bool)
  /-- the `stopSelection` of a failed call -/
  | fail
  | enter (strategy : Strategy) (ctxErr : Option ContextErr) (expired : Bool)
  | closeStrategy (strategy : Strategy) (failed : Bool)
  | openExecutor (executor : ℕ)
  | closeExecutor (executor : ℕ) (failed : Bool)
  | deliver (e : Envelope) (late : Bool)
  deriving DecidableEq, Repr

namespace Party

def setAgreement (x : Party) (a : SelectionAgreement) : Party :=
  { x with session := { x.session with agreement := a } }

def setPoint (x : Party) (p : Point) : Party := { x with session := { x.session with point := p } }

/-- A send that returned `err`. -/
def emit (x : Party) (payload : Payload) (err : Option Err) (emitted : Bool) : Party :=
  if err.isNone || emitted then { x with sent := x.session.newEnvelope payload :: x.sent } else x

def sendCapability (x : Party) (err : Option Err) (emitted : Bool) : Party :=
  let y := x.emit (.capability x.session.agreement.localCapability) err emitted
  match err with
  | some e => { y with session := y.session.stopSelection e }
  | none => y

/-- A call of `agreeCandidates`; the calls are serialised by `executeMu`. -/
def agree (x : Party) (candidates : List String) : Option Party :=
  match x.session.point with
  | .idle => some { x with session := x.session.agreeCandidates candidates }
  | _ => none

/-- `prepareCandidateAgreement`. -/
def prepare (x : Party) (candidate : String) : Option Party :=
  if x.session.point = .idle ∧ x.session.agreement.ready candidate then some x else x.agree [candidate]

def openRound (H : Hasher) (x : Party) : Option Party :=
  match x.session.point with
  | .opening candidates =>
    match x.session.agreement.openNext H candidates with
    | .error e => some (x.setPoint (.failing e))
    | .ok (a, call) => some ((x.setAgreement a).setPoint (.sendProposal call))
  | _ => none

/-- `sendSelection` of the proposal or of the confirmation. -/
def send (x : Party) (err : Option Err) (emitted : Bool) : Option Party :=
  match x.session.point with
  | .sendProposal call =>
    some ((x.emit (.control (.proposal call.proposal)) err emitted).setPoint
      ((err.map Session.failed).getD (.awaitProposal call)))
  | .sendConfirm call own =>
    some ((x.emit (.control (.confirm own)) err emitted).setPoint
      ((err.map Session.failed).getD (.awaitConfirm call own)))
  | _ => none

/-- The point after the peer's proposal was read. -/
def examineProposal (H : Hasher) (cfg : Config) (call : Call) (remote : SelectionProposal) :
    Point :=
  match confirmProposal H cfg call remote with
  | .error e => Session.failed e
  | .ok own => .sendConfirm call own

/-- The point after the peer's confirmation was read. -/
def examineConfirm (call : Call) (own received : SelectionConfirmation) : Point :=
  if confirmationMatches call own received then .commit call own
  else Session.failed (selectionFailure .selectionConflict)

/-- The messages of the open round. -/
def inbox (x : Party) : SelectionInbox :=
  match x.session.agreement.current with
  | some round => round.remote
  | none => .empty

/-- One pass of a waiting loop: the call returns the terminal error, goes on with the message, or
waits. -/
def read (H : Hasher) (x : Party) : Option Party :=
  match x.session.point with
  | .awaitProposal call =>
    if x.session.agreement.err.isSome then some (x.setPoint .idle)
    else x.inbox.proposal.map fun remote => x.setPoint (examineProposal H x.session.cfg call remote)
  | .awaitConfirm call own =>
    if x.session.agreement.err.isSome then some (x.setPoint .idle)
    else x.inbox.confirm.map fun received => x.setPoint (examineConfirm call own received)
  | _ => none

def expire (x : Party) (err : ContextErr) : Option Party :=
  match x.session.point with
  | .awaitProposal _ => some (x.setPoint (Session.failed (.context err)))
  | .awaitConfirm _ _ => some (x.setPoint (Session.failed (.context err)))
  | _ => none

def commit (x : Party) (expired : Bool) : Option Party :=
  match x.session.point, x.session.agreement.current with
  | .commit _ own, some round =>
    if x.session.agreement.err.isSome then some (x.setPoint .idle)
    else if expired then some (x.setPoint (Session.failed (selectionDeadline .selectionTimeout)))
    else
      some { (x.setAgreement (x.session.agreement.confirmRound round own)).setPoint .idle with
        confirmed := ⟨round.ordinal, own.strategy, own.digest⟩ :: x.confirmed }
  | _, _ => none

def fail (x : Party) : Option Party :=
  match x.session.point with
  | .failing err => some { x with session := { x.session.stopSelection err with point := .idle } }
  | _ => none

/-- `enterSelection`, called between two calls of `agreeCandidates`. -/
def enter (x : Party) (strategy : Strategy) (ctxErr : Option ContextErr) (expired : Bool) :
    Option Party :=
  match x.session.point with
  | .idle =>
    match x.session.agreement.enterSelection strategy ctxErr expired with
    | (a, none) => some (x.setAgreement a)
    | (a, some round) =>
      some { x.setAgreement a with entered := ⟨round.ordinal, round.strategy,
        round.digest⟩ :: x.entered }
  | _ => none

def deliver (H : Hasher) (x : Party) (e : Envelope) (late : Bool) : Party :=
  { x with session := x.session.handleEnvelopeMessage H e late, delivered := e :: x.delivered }

def act (H : Hasher) (x : Party) : Action → Option Party
  | .sendCapability err emitted => some (x.sendCapability err emitted)
  | .stop err => some { x with session := x.session.stopSelection err }
  | .agree candidates => x.agree candidates
  | .prepare candidate => x.prepare candidate
  | .openRound => x.openRound H
  | .send err emitted => x.send err emitted
  | .read => x.read H
  | .expire err => x.expire err
  | .commit expired => x.commit expired
  | .fail => x.fail
  | .enter strategy ctxErr expired => x.enter strategy ctxErr expired
  | .closeStrategy strategy failed =>
    some (x.setAgreement (x.session.agreement.closeSelectionStrategy strategy failed))
  | .openExecutor executor => some (x.setAgreement (x.session.agreement.openSelectionExecutor executor))
  | .closeExecutor executor failed =>
    some (x.setAgreement (x.session.agreement.closeSelectionExecutor executor failed))
  | .deliver e late => some (x.deliver H e late)

end Party

/-! ## The two sessions -/

inductive Side
  | a
  | b
  deriving DecidableEq, Repr

def Side.peer : Side → Side
  | .a => .b
  | .b => .a

abbrev World := Side → Party

/-- A side is handed only what its peer sent. -/
def deliverable (w : World) (p : Side) : Action → Bool
  | .deliver e _ => e ∈ (w p.peer).sent
  | _ => true

/-- One step: a side acts. -/
def step (H : Hasher) (w : World) (act : Side × Action) : Option World :=
  if deliverable w act.1 act.2 then ((w act.1).act H act.2).map (Function.update w act.1) else none

/-- The two configurations name the same session and each other. -/
def Config.Mirrored (c d : Config) : Prop :=
  d.sessionID = c.sessionID ∧ d.localNodeID = c.peerID ∧ d.peerID = c.localNodeID

/-- A session that `NewConverging` built. -/
def Party.Fresh (x : Party) : Prop :=
  ∃ epoch, newConverging x.session.cfg epoch = .ok x.session.agreement ∧ x.session.point = .idle ∧
    x.sent = [] ∧ x.delivered = [] ∧ x.confirmed = [] ∧ x.entered = []

/-- Two fresh sessions with mirrored configurations. -/
def Initial (w : World) : Prop :=
  (∀ p, (w p).Fresh) ∧ (w .a).session.cfg.Mirrored (w .b).session.cfg

end Winkyou.Selection
