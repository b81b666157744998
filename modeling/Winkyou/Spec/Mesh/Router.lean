import Winkyou.Spec.Mesh.Topology

/-!
# The router (`router.go`, `data_router.go`)

A router knows its attached neighbors, two tables of next hops, and the messages that it has seen.
The sessions below it and the handlers above it are parameters: `Env` says what a call to them
returns. What a call does outside the router is its `Effects`.
-/

namespace Winkyou.Mesh

/-! ## State -/

inductive NeighborKind
  | stream
  | packet
  | unknown
  deriving DecidableEq, Repr

/-- A `neighborEntry` with its session: `id` is the identity of the pointer, and `dataCapable` what
`neighborSupportsData` says of the session. -/
structure NeighborEntry where
  id : ℕ
  kind : NeighborKind
  dataCapable : Bool
  advertised : Bool
  deriving DecidableEq, Repr

structure SeenKey where
  origin : String
  seq : UInt64
  deriving DecidableEq, Repr

structure Router where
  nodeID : String
  seenTTL : Duration
  seq : UInt64
  closed : Bool
  neighbors : GoMap NeighborEntry
  routes : GoMap String
  dataRoutes : GoMap String
  dataRoutesAuthoritative : Bool
  seen : List (SeenKey × Time)

/-- The errors of the router; those of a handler or a session are texts. -/
inductive RouterErr
  | nodeIDRequired
  | closed
  | duplicate
  | hopLimitExceeded
  | loopDetected
  /-- `ErrNoRoute`, wrapped with the destination. -/
  | noRoute (destination : String)
  | unknownNeighbor
  /-- `ErrUnknownNeighbor`, wrapped with the route that uses it. -/
  | unknownNextHop (destination nextHop : String)
  /-- `ErrDataChannelUnavailable`, wrapped with the peer. -/
  | dataChannelUnavailable (peerID : String)
  | cannotOriginate (nodeID fromNode : String)
  | sequenceRequired
  | invalid (e : MessageErr)
  | peerIDRequired
  | ownNeighbor (nodeID : String)
  | alreadyAttached (peerID : String)
  | handler (text : String)
  /-- `send to next hop <nextHop>: <text>` -/
  | sendFailed (nextHop text : String)
  /-- `flood to neighbor <peerID>: <text>`, for each of them -/
  | floodFailed (failures : List (String × String))
  deriving DecidableEq, Repr

def defaultSeenTTL : Duration := 2 * minute

/-- `NewRouter`; `seq` is the counter base of this boot. -/
def newRouter (nodeID : String) (seenTTL : Duration) (seq : UInt64) : Except RouterErr Router := do
  .failIf (trimSpace nodeID = "") .nodeIDRequired
  return { nodeID := trimSpace nodeID, seenTTL := if seenTTL ≤ 0 then defaultSeenTTL else seenTTL, seq := seq,
           closed := false, neighbors := ∅, routes := ∅, dataRoutes := ∅, dataRoutesAuthoritative :=
           false, seen := [] }

/-! ## Neighbors -/

/-- A `NeighborHandle` of this router: one attached session. -/
structure NeighborHandle where
  peerID : String
  entry : ℕ
  deriving DecidableEq, Repr

structure NeighborInfo where
  kind : NeighborKind
  dataCapable : Bool
  advertised : Bool
  handle : NeighborHandle
  deriving DecidableEq, Repr

namespace Router

variable (r : Router)

def neighbor (peerID : String) : Option NeighborInfo :=
  if r.closed then none
  else (r.neighbors.lookup (trimSpace peerID)).map fun entry =>
    ⟨entry.kind, entry.dataCapable, entry.advertised, ⟨trimSpace peerID, entry.id⟩⟩

/-- `addNeighborWithAdvertisement`: the router, and the peer of the event that is emitted. -/
def addNeighborWithAdvertisement (peerID : String) (entry : NeighborEntry) :
    Except RouterErr (Router × String) := do
  .failIf (trimSpace peerID = "") .peerIDRequired
  .failIf (trimSpace peerID = r.nodeID) (.ownNeighbor r.nodeID)
  .failIf r.closed .closed
  .failIf (trimSpace peerID ∈ r.neighbors) (.alreadyAttached (trimSpace peerID))
  return ({ r with neighbors := r.neighbors.insert (trimSpace peerID) entry }, trimSpace peerID)

/-- Whether the handle is the one of the session that is attached. -/
def attached (handle : NeighborHandle) : Bool :=
  !r.closed && (r.neighbors.lookup handle.peerID).any fun entry => entry.id = handle.entry

/-- `PromoteNeighborHandle`: the router, and whether an event is emitted; none when it returns
false. -/
def promoteNeighborHandle (handle : NeighborHandle) : Option (Router × Bool) :=
  if r.attached handle then
    (r.neighbors.lookup handle.peerID).map fun entry =>
      if entry.advertised then (r, false)
      else ({ r with neighbors := r.neighbors.insert handle.peerID { entry with advertised := true } }, true)
  else none

/-- Delete every route that uses a next hop. -/
def pruned (peerID : String) (routes : GoMap String) : GoMap String :=
  (routes.keys.filter fun d => routes.lookup d = some peerID).foldl (fun routes d =>
    routes.erase d) routes

/-- The critical section of `detachNeighborHandle`. -/
def detach (peerID : String) : Router :=
  { r with
    neighbors := r.neighbors.erase peerID
    routes := pruned peerID r.routes
    dataRoutes := pruned peerID r.dataRoutes }

/-- `detachNeighborHandle`; the event follows when it succeeds. -/
def detachNeighborHandle (handle : NeighborHandle) : Option Router :=
  if r.attached handle then some (r.detach handle.peerID) else none

/-- `RemoveNeighbor`; the event follows when it succeeds. -/
def removeNeighbor (peerID : String) : Except RouterErr Router := do
  .failIf r.closed .closed
  .failIf (trimSpace peerID ∉ r.neighbors) .unknownNeighbor
  return r.detach (trimSpace peerID)

/-! ## Route tables -/

/-- `normalizedNextHops`; `keys` is the order of the `range`. -/
def normalizedNextHops (nodeID : String) (routes : GoMap String) (keys : List String) :
    GoMap String :=
  keys.foldl (fun next destination =>
    let nextHop := trimSpace ((routes.lookup destination).getD "")
    if trimSpace destination = "" ∨ nextHop = "" ∨ trimSpace destination = nodeID then next
    else next.insert (trimSpace destination) nextHop) ∅

def replaceRouteTables (o : RangeOrder) (routes dataRoutes : GoMap String) :
    Except RouterErr Router := do
  .failIf r.closed .closed
  return { r with
    routes := normalizedNextHops r.nodeID routes (o.keys 0 routes.keys)
    dataRoutes := normalizedNextHops r.nodeID dataRoutes (o.keys 1 dataRoutes.keys)
    dataRoutesAuthoritative := true }

/-- `neighborDataCapabilities`, read at one peer: a map that has no entry gives false. -/
def dataCapability (peerID : String) : Bool :=
  !r.closed && (r.neighbors.lookup peerID).any fun entry => entry.dataCapable

def hasNeighbor (peerID : String) : Bool :=
  peerID ≠ "" && !r.closed && (r.neighbors.lookup peerID).isSome

def lookup (destination : String) : Except RouterErr String :=
  if r.closed then .error .closed
  else if (r.neighbors.lookup destination).isSome then .ok destination
  else
    let nextHop := (r.routes.lookup destination).getD ""
    if nextHop = "" then .error (.noRoute destination)
    else if (r.neighbors.lookup nextHop).isNone then .error (.unknownNextHop destination nextHop)
    else .ok nextHop

def lookupData (destination : String) : Except RouterErr String :=
  if r.closed then .error .closed
  else if ¬ r.dataRoutesAuthoritative ∧ (r.neighbors.lookup destination).any
    NeighborEntry.dataCapable then
    .ok destination
  else
    let nextHop := (r.dataRoutes.lookup destination).getD ""
    if nextHop = "" then
      if (r.neighbors.lookup destination).isSome then .error (.dataChannelUnavailable destination)
      else .error (.noRoute destination)
    else
      match r.neighbors.lookup nextHop with
      | none => .error (.unknownNextHop destination nextHop)
      | some entry =>
        if entry.dataCapable then .ok nextHop else .error (.dataChannelUnavailable nextHop)

end Router

/-! ## Control messages -/

/-- What the local handler and the sessions return: the text of an error, or none. -/
structure Env where
  onMessage : Message → Option String
  send : String → Message → Option String

/-- What a call does outside the router. -/
structure Effects where
  delivered : List Message
  sent : List (String × Message)
  err : Option RouterErr

namespace Router

variable (env : Env) (r : Router)

/-- `markSeen`: entries whose time is over are dropped first. -/
def markSeen (msg : Message) (now : Time) : Router × Option RouterErr :=
  if r.closed then (r, some .closed)
  else
    let key : SeenKey := ⟨msg.fromNode, msg.seq⟩
    let live := r.seen.filter fun e => e.2.after now
    if key ∈ live.map Prod.fst then ({ r with seen := live }, some .duplicate)
    else ({ r with seen := (key, now.add r.seenTTL) :: live }, none)

def deliver (msg : Message) : Effects := ⟨[msg], [], (env.onMessage msg).map .handler⟩

def floodTargets (inboundPeer : String) (msg : Message) : List String :=
  if r.closed then []
  else r.neighbors.keys.filter fun peerID => ¬ (peerID = inboundPeer ∨ peerID ∈ msg.pathVector)

def flood (inboundPeer : String) (msg : Message) : Effects :=
  let targets := r.floodTargets inboundPeer msg
  let failures := targets.filterMap fun peerID => (env.send peerID msg).map fun text => (peerID, text)
  ⟨[], (targets.filter fun peerID => (env.send peerID msg).isNone).map fun peerID => (peerID, msg),
    if failures = [] then none else some (.floodFailed failures)⟩

def forward (msg : Message) : Effects :=
  match r.lookup msg.toNode with
  | .error e => ⟨[], [], some e⟩
  | .ok nextHop =>
    match env.send nextHop msg with
    | some text => ⟨[], [], some (.sendFailed nextHop text)⟩
    | none => ⟨[], [(nextHop, msg)], none⟩

/-- Deliver a broadcast and go on unless the handler failed. -/
def deliverThen (msg : Message) (next : Effects) : Effects :=
  match (deliver env msg).err with
  | some e => ⟨[msg], [], some e⟩
  | none => ⟨msg :: next.delivered, next.sent, next.err⟩

/-- The route header that `Send` fills in: origin, sequence number and hop limit. -/
def fillHeader (msg : Message) : Message :=
  { msg with
    fromNode := if trimSpace msg.fromNode = "" then r.nodeID else msg.fromNode
    seq := if msg.seq = 0 then r.seq + 1 else msg.seq
    hopLimit := if msg.hopLimit = 0 then defaultHopLimit else msg.hopLimit }

/-- The path vector that `Send` fills in. -/
def fillPath (path : List String) : Except RouterErr (List String) :=
  match path.getLast? with
  | none => .ok [r.nodeID]
  | some last =>
    if last ≠ r.nodeID then if r.nodeID ∈ path then .error .loopDetected else .ok (path ++ [r.nodeID])
    else .ok path

/-- The message that `Send` originates, or its error. -/
def prepare (msg : Message) : Except RouterErr Message := do
  let filled := r.fillHeader msg
  .failIf (filled.fromNode ≠ r.nodeID) (.cannotOriginate r.nodeID filled.fromNode)
  let path ← r.fillPath filled.pathVector
  let msg := { filled with pathVector := path }
  msg.validate.mapError .invalid
  return msg

/-- The counter of sequence numbers after `Send` has looked at a message. -/
def takeSeq (msg : Message) : Router :=
  if (r.fillHeader msg).fromNode = r.nodeID ∧ msg.seq = 0 then { r with seq := r.seq + 1 } else r

def send (msg : Message) (now : Time) : Router × Effects :=
  match r.prepare msg with
  | .error e => (r.takeSeq msg, ⟨[], [], some e⟩)
  | .ok filled =>
    match (r.takeSeq msg).markSeen filled now with
    | (r, some e) => (r, ⟨[], [], some e⟩)
    | (r, none) =>
      if filled.toNode = broadcastNodeID then (r, deliverThen env filled (r.flood env "" filled))
      else if filled.toNode = r.nodeID then (r, deliver env filled)
      else (r, r.forward env filled)

/-- `HandleInbound` once the message is marked as seen. -/
def relay (inboundPeer : String) (msg : Message) : Effects :=
  if r.nodeID ∈ msg.pathVector then ⟨[], [], some .loopDetected⟩
  else
    let msg := { msg with pathVector := msg.pathVector ++ [r.nodeID] }
    if msg.pathVector.length > maxPathVectorLength then ⟨[], [], some .hopLimitExceeded⟩
    else if msg.toNode = broadcastNodeID then
      deliverThen env msg
        (if msg.hopLimit ≤ 1 then ⟨[], [], none⟩
        else r.flood env inboundPeer { msg with hopLimit := msg.hopLimit - 1 })
    else if msg.toNode = r.nodeID then deliver env msg
    else if msg.hopLimit ≤ 1 then ⟨[], [], some .hopLimitExceeded⟩
    else r.forward env { msg with hopLimit := msg.hopLimit - 1 }

def handleInbound (inboundPeer : String) (msg : Message) (now : Time) : Router × Effects :=
  if ¬ r.hasNeighbor (trimSpace inboundPeer) then (r, ⟨[], [], some .unknownNeighbor⟩)
  else if msg.seq = 0 then (r, ⟨[], [], some .sequenceRequired⟩)
  else if msg.hopLimit = 0 then (r, ⟨[], [], some .hopLimitExceeded⟩)
  else
    match msg.validate with
    | .error e => (r, ⟨[], [], some (.invalid e)⟩)
    | .ok () =>
      match r.markSeen msg now with
      | (r, some e) => (r, ⟨[], [], some e⟩)
      | (r, none) => (r, r.relay env (trimSpace inboundPeer) msg)

end Router

end Winkyou.Mesh
