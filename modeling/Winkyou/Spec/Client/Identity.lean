import Winkyou.Spec.GoStd

/-!
# Under which identity an engine acts (`engine.go`, `grpc.go`, `peer_session.go`, `inband_control.go`)

The node id is kept twice: by the coordinator client, which registers again when a heartbeat is
answered `NotFound`, and in the status of the engine, from which sessions, roles and the in-band
filter are derived. What an RPC meets is an input. `net.ParseIP` and `net.ParseCIDR` are parameters.
-/

namespace Winkyou.Client

structure RegisterRequest where
  publicKey : String
  name : String
  deriving DecidableEq

structure RegisterResponse where
  nodeID : String
  virtualIP : String
  networkCIDR : String
  deriving DecidableEq

/-- What one call of `Register` meets: the coordinator answers or not, and after an answer the
signal stream opens or not. -/
inductive RegisterRPC
  | failed
  | answered (resp : RegisterResponse) (stream : Bool)

structure GrpcClient where
  nodeID : String := ""
  registerReq : Option RegisterRequest := none
  deriving DecidableEq

/-- The client keeps the id of the answer also when the signal stream then fails to open. -/
def GrpcClient.register (c : GrpcClient) (req : RegisterRequest) :
    RegisterRPC → GrpcClient × Option RegisterResponse
  | .failed => (c, none)
  | .answered resp stream => ({ c with nodeID := resp.nodeID, registerReq := some req },
      if stream then some resp else none)

/-- The answer of the registration is discarded. -/
def GrpcClient.recoverRegistration (c : GrpcClient) (rpc : RegisterRPC) : GrpcClient :=
  match c.registerReq with
  | none => c
  | some req => (c.register req rpc).1

/-- How a heartbeat is answered; `NotFound` with what the registration that follows it meets. -/
inductive HeartbeatRPC
  | ok
  | failed
  | notFound (rpc : RegisterRPC)

def GrpcClient.sendHeartbeat (c : GrpcClient) (answer : HeartbeatRPC) : GrpcClient :=
  if c.nodeID = "" then c else
    match answer with
    | .notFound rpc => c.recoverRegistration rpc
    | _ => c

section Engine

variable {IP : Type}

/-- `coord` is the client of a started engine; `nodeID` and `virtualIP` are those of the status. -/
structure Engine (IP : Type) where
  nodeID : String := ""
  virtualIP : Option IP := none
  coord : Option GrpcClient := none

def parseVirtualNetwork (parseIP : String → Option IP) (parseCIDR : String → Bool)
    (resp : RegisterResponse) :
    Option IP :=
  match parseIP (trimSpace resp.virtualIP) with
  | none => none
  | some ip => if parseCIDR (trimSpace resp.networkCIDR) then some ip else none

/-- `Start`, with whether the interface, the tunnel and the traversal come up (`up`) and then the
responder (`ready`). A failure runs the clean-up of `Stop`, which drops the client and leaves the
status. -/
def Engine.start (parseIP : String → Option IP) (parseCIDR : String → Bool) (e : Engine IP)
    (req : RegisterRequest) (rpc : RegisterRPC) (up ready : Bool) : Engine IP :=
  if e.coord.isSome then e else
    match GrpcClient.register {} req rpc with
    | (_, none) => e
    | (coord, some reg) =>
      let e := { e with nodeID := reg.nodeID }
      match parseVirtualNetwork parseIP parseCIDR reg with
      | none => e
      | some ip =>
        if !up then e else
          let e := { e with virtualIP := some ip }
          -- `StartHeartbeat` refuses a client without a node id
          if !ready || trimSpace coord.nodeID = "" then e else { e with coord := some coord }

def Engine.stop (e : Engine IP) : Engine IP := { e with coord := none }

structure PeerSession where
  nodeID : String
  sessionID : String
  initiator : Bool
  deriving DecidableEq

def sessionIDForNodes (localNodeID peerNodeID : String) : String :=
  let lower := if peerNodeID < localNodeID then peerNodeID else localNodeID
  let upper := if peerNodeID < localNodeID then localNodeID else peerNodeID
  "session/" ++ lower ++ "/" ++ upper

/-- The session that `ensurePeerSession` makes for a peer that has none. -/
def Engine.ensurePeerSession (e : Engine IP) (nodeID : String) : Except String PeerSession :=
  if trimSpace e.nodeID = "" then .error "client: local node id is not ready"
  else if trimSpace nodeID = "" then .error "client: peer node id is required"
  else if e.nodeID = nodeID then .error "client: peer node id matches local node id"
  else .ok ⟨nodeID, sessionIDForNodes e.nodeID nodeID, e.nodeID < nodeID⟩

/-- The first test of `handleInbandControlMessage` on the addressee of a message. -/
def Engine.dropsInband (e : Engine IP) (toNode : String) : Bool :=
  e.nodeID ≠ "" && toNode ≠ e.nodeID

/-! ## Runs -/

inductive Event
  | start (req : RegisterRequest) (rpc : RegisterRPC) (up ready : Bool)
  | heartbeat (answer : HeartbeatRPC)
  | stop

/-- An engine with the answers of the coordinator to its present client, the latest first. -/
structure World (IP : Type) where
  engine : Engine IP := {}
  registrations : List RegisterResponse := []

def RegisterRPC.answers : RegisterRPC → List RegisterResponse
  | .failed => []
  | .answered resp _ => [resp]

/-- The answers to the registrations that an event makes with the client of a started engine. -/
def GrpcClient.answers (c : GrpcClient) : HeartbeatRPC → List RegisterResponse
  | .notFound rpc => if c.nodeID = "" ∨ c.registerReq = none then [] else rpc.answers
  | _ => []

def World.step (parseIP : String → Option IP) (parseCIDR : String → Bool) (w : World IP) :
    Event → Option (World IP)
  | .start req rpc up ready =>
    if w.engine.coord.isSome then some w
    else some ⟨w.engine.start parseIP parseCIDR req rpc up ready, rpc.answers⟩
  | .heartbeat answer =>
    match w.engine.coord with
    | none => none
    | some c => some ⟨{ w.engine with coord := some (c.sendHeartbeat answer) },
        c.answers answer ++ w.registrations⟩
  | .stop => some { w with engine := w.engine.stop }

end Engine

end Winkyou.Client
