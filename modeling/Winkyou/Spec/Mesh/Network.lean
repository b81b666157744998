import Winkyou.Lib.Transition
import Winkyou.Spec.Mesh.Router

/-!
# Routers and the messages between them

The copies that a router has handed to its sessions are in flight until their receivers handle them,
in any order. No copy is lost, and the local handlers return nil. A network also keeps what the
theorems speak of: the messages that were passed to `OnMessage`, and every copy that was sent.
-/

namespace Winkyou.Mesh

structure Copy where
  sender : String
  receiver : String
  msg : Message
  deriving DecidableEq, Repr

structure Network where
  router : String → Router
  inflight : List Copy
  delivered : String → List Message
  sent : List Copy

/-- Handlers and sessions that never fail. -/
def quiet : Env := ⟨fun _ => none, fun _ _ => none⟩

inductive NetworkAction
  /-- `Send` at a node -/
  | send (node : String) (msg : Message) (now : Time)
  /-- the copy at this place is handled by its receiver -/
  | handle (index : ℕ) (now : Time)
  deriving DecidableEq, Repr

namespace Network

/-- The network after a call at a node. -/
def absorb (w : Network) (node : String) (call : Router × Effects) : Network :=
  let copies := call.2.sent.map fun s => ⟨node, s.1, s.2⟩
  { router := Function.update w.router node call.1
    inflight := w.inflight ++ copies
    delivered := Function.update w.delivered node (w.delivered node ++ call.2.delivered)
    sent := w.sent ++ copies }

def step (w : Network) : NetworkAction → Option Network
  | .send node msg now => some (w.absorb node ((w.router node).send quiet msg now))
  | .handle index now =>
    (w.inflight[index]?).map fun copy =>
      { w with inflight := w.inflight.eraseIdx index }.absorb copy.receiver
        ((w.router copy.receiver).handleInbound quiet copy.sender copy.msg now)

end Network

/-- No entry of `seen` is over. -/
def Router.NoExpiry (r : Router) (now : Time) : Prop := ∀ e ∈ r.seen, e.2.after now = true

instance (r : Router) (now : Time) : Decidable (r.NoExpiry now) :=
  inferInstanceAs (Decidable (∀ e ∈ r.seen, e.2.after now = true))

/-- Messages originate at the nodes of the network, and no `seen` entry expires. -/
def Allowed (nodes : List String) (w : Network) : NetworkAction → Prop
  | .send node _ now => node ∈ nodes ∧ (w.router node).NoExpiry now
  | .handle index now => (w.inflight[index]?).all fun copy => (w.router copy.receiver).NoExpiry now

instance (nodes : List String) (w : Network) (a : NetworkAction) : Decidable (Allowed nodes w a) :=
  match a with
  | .send node _ now => inferInstanceAs (Decidable (node ∈ nodes ∧ (w.router node).NoExpiry now))
  | .handle index now =>
    inferInstanceAs (Decidable ((w.inflight[index]?).all fun copy =>
      (w.router copy.receiver).NoExpiry now))

def Network.Adjacent (w : Network) (u v : String) : Prop := v ∈ (w.router u).neighbors

/-- New routers, attached to each other in both directions. -/
structure Network.Start (nodes : List String) (w : Network) : Prop where
  nodup : nodes.Nodup
  nodeID : ∀ u ∈ nodes, (w.router u).nodeID = u ∧ trimSpace u = u ∧ u ≠ ""
  running : ∀ u ∈ nodes, (w.router u).closed = false ∧ (w.router u).seen = []
  peers : ∀ u ∈ nodes, ∀ v, w.Adjacent u v → v ∈ nodes ∧ v ≠ u ∧ w.Adjacent v u
  inflight : w.inflight = []
  delivered : ∀ u, w.delivered u = []
  sent : w.sent = []

def Network.Reachable (nodes : List String) (start : Network → Prop) : Network → Prop :=
  Transition.Reachable Network.step start (Allowed nodes)

end Winkyou.Mesh
