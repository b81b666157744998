import Winkyou.Spec.Routed.Flow

/-!
# Two TCP forwarders and the network between them (`TCPForwarder` of `tcp_forward.go`)

The run of one flow (peer id, flow id) that `handleAccepted` has started: the forwarder of the
initiator, with its one flow object, and that of the responder, which makes a flow object for every
OPEN that it accepts and dials for.

The network keeps every frame ever sent. A frame may be delivered at any time and any number of
times, or never: this is loss, duplication, delay and reordering. Every delivery is a task of its
own.

`flows` keeps the objects that were removed from `table`, since their tasks go on; `dials` and
`rejected` are history.
-/

namespace Winkyou.Routed

/-- The next section of a task at the forwarder that has no flow object. -/
inductive NodeCode
  /-- `handleFrame`. -/
  | handleFrame (frame : Frame)
  | sendACK (frame : Frame)
  /-- `sendACK`, then `startTask`, of an OPEN that `claimOpening` admitted. -/
  | acceptOpen (frame : Frame)
  | startOpen
  /-- `handleOpen` reads the target. -/
  | handleOpen
  | dial
  | promoteOpening
  /-- `releaseOpening`, and `sendOpenFailure` with the cause after it. -/
  | releaseOpening (cause : Option String)
  /-- `sendOpenFailure`: so many transmissions are left. -/
  | sendOpenFailure (left : ℕ) (cause : String)
  deriving DecidableEq

/-- A task that is not a field of a flow. -/
inductive Task
  | node (code : NodeCode)
  | flow (j : ℕ) (code : Code)
  deriving DecidableEq

/-- A forwarder, for the one flow key. -/
structure Node where
  flows : List Flow := []
  /-- The flow object that the table `flows` of the source has for the key. -/
  table : Option ℕ := none
  opening : Bool := false
  closed : Bool := false
  tasks : List Task := []
  /-- Every frame that was sent to the peer. -/
  sent : List Frame := []
  /-- The dials of the target that succeeded. -/
  dials : ℕ := 0
  /-- An OPEN has been rejected. -/
  rejected : Bool := false
  deriving DecidableEq

namespace Node

/-- The outcome of what a section asks for. -/
inductive Answer
  | choice (ok : Bool)
  | failed (err : String)

def Answer.ok : Answer → Bool
  | .choice ok => ok
  | .failed _ => false

/-- The first section of `handleFrame`: an OPEN is claimed, for another frame the flow is looked
up. -/
def handleFrame (n : Node) (frame : Frame) : Node × List Task :=
  match frame.type with
  | .streamACK =>
    match n.table with
    | some j => (n, [.flow j (.acknowledge frame.sequence)])
    | none => (n, [])
  | .streamOpen =>
    if frame.sequence ≠ 1 then
      (n, [.node (.sendOpenFailure 3 s!"{ErrTCPFlowProtocol}: OPEN sequence is {frame.sequence}")])
    else if n.closed || n.table.isSome || n.opening then (n, [.node (.sendACK frame)])
    else ({ n with opening := true }, [.node (.acceptOpen frame)])
  | _ =>
    match n.table with
    | some j =>
      if frame.type = .streamData || frame.type = .streamFIN then (n,
        [.flow j (.enqueueSequenced frame)])
      else (n, [.flow j (.observeSequence frame)])
    | none => (n, if frame.type = .streamReset then [.node (.sendACK frame)] else [])

/-- `promoteOpening` of the flow object that `handleOpen` made, after `markOpened`. -/
def promoteOpening (n : Node) : Node :=
  if n.closed then { n with opening := false }
  else if !n.opening then n
  else if n.table.isSome then { n with opening := false }
  else
    { n with
      opening := false, table := some n.flows.length, flows :=
        n.flows ++ [(newTCPFlow false 1).markOpened] }

/-- A step of a task without a flow object: the frames sent and the tasks that go on. -/
def stepNode (n : Node) (code : NodeCode) (answer : Answer) : Node × List Frame × List Task :=
  match code with
  | .handleFrame frame => ((n.handleFrame frame).1, [], (n.handleFrame frame).2)
  | .sendACK frame => (n, if answer.ok then [Flow.ackOf frame] else [], [])
  | .acceptOpen frame => (n, if answer.ok then [Flow.ackOf frame] else [], [.node .startOpen])
  | .startOpen => (n, [], [if n.closed then .node (.releaseOpening none) else .node .handleOpen])
  | .handleOpen =>
    if n.closed then (n, [], [.node (.releaseOpening none)])
    else if answer.ok then (n, [], [.node .dial])
    else (n, [], [.node (.releaseOpening (some
      s!"{ErrTCPOpenRejected}: this node has no fixed target"))])
  | .dial =>
    match answer with
    | .choice _ => ({ n with dials := n.dials + 1 }, [], [.node .promoteOpening])
    | .failed err => (n, [], [.node (.releaseOpening (some s!"dial fixed target: {err}"))])
  | .promoteOpening => (n.promoteOpening, [], [])
  | .releaseOpening none => ({ n with opening := false }, [], [])
  | .releaseOpening (some cause) =>
    ({ n with opening := false, rejected := true }, [], [.node (.sendOpenFailure 3 cause)])
  | .sendOpenFailure 0 _ => (n, [], [])
  | .sendOpenFailure (left + 1) cause =>
    (n, if answer.ok then [⟨.streamOpenError, 1, compactStreamError cause⟩] else [],
      [.node (.sendOpenFailure left cause)])

/-- The flow object `j` has made a step. -/
def update (n : Node) (j : ℕ) (f : Flow) (out : List Frame) (codes : List Code) : Node :=
  { n with flows := n.flows.set j f, sent := n.sent ++ out, tasks := n.tasks ++ codes.map (.flow j) }

def removeFlow (n : Node) (j : ℕ) : Node := if n.table = some j then { n with table := none } else n

/-- What can happen at a forwarder. -/
inductive Action
  /-- The task with this number makes its next step. -/
  | task (i : ℕ) (answer : Answer)
  | flow (j : ℕ) (event : Flow.Event)
  /-- `Close` of the forwarder. -/
  | close

def step (n : Node) : Action → Option Node
  | .task i answer => do
    let task ← n.tasks[i]?
    let n := { n with tasks := n.tasks.eraseIdx i }
    match task with
    | .node code =>
      let (n, out, tasks) := n.stepNode code answer
      return { n with sent := n.sent ++ out, tasks := n.tasks ++ tasks }
    | .flow j code =>
      let f ← n.flows[j]?
      let (f, out, codes) ← f.stepCode n.closed code answer.ok
      let n := if code = .removeFlow then n.removeFlow j else n
      return n.update j f out codes
  | .flow j event => do
    let f ← n.flows[j]?
    let (f, out, codes) ← f.stepEvent n.closed event
    return n.update j f out codes
  | .close =>
    if n.closed then none
    else some { n with closed := true, tasks := n.tasks ++ n.table.toList.map fun j => .flow j .shutdown }

end Node

/-! ## The two forwarders -/

inductive Side
  | initiator
  | responder
  deriving DecidableEq

def Side.peer : Side → Side
  | .initiator => .responder
  | .responder => .initiator

/-- Both endpoints of one flow; each node keeps what it has sent. -/
structure World where
  initiator : Node
  responder : Node

namespace World

def node (w : World) : Side → Node
  | .initiator => w.initiator
  | .responder => w.responder

def set (w : World) : Side → Node → World
  | .initiator, n => { w with initiator := n }
  | .responder, n => { w with responder := n }

inductive Action
  /-- The network delivers the frame that the peer sent with this number. -/
  | deliver (side : Side) (k : ℕ)
  | act (side : Side) (action : Node.Action)

def step (w : World) : Action → Option World
  | .deliver side k => do
    let frame ← (w.node side.peer).sent[k]?
    return w.set side { w.node side with tasks := (w.node side).tasks ++ [.node (.handleFrame frame)] }
  | .act side action => do
    let n ← (w.node side).step action
    return w.set side n

/-- `handleAccepted` has added its flow to the table. -/
def start : World where
  initiator := { flows := [newTCPFlow true 0], table := some 0 }
  responder := {}

end World

end Winkyou.Routed
