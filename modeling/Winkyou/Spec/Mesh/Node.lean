import Winkyou.Lib.Transition
import Winkyou.Spec.Mesh.Data

/-!
# The node (`node.go`, `generation.go`)

A node joins a router and a topology. Both change under their own locks, and what follows from a
change runs later: the callback of a neighbor change under `neighborMu`, and `syncRoutes` under
`routeMu`, which reads the topology twice and the router once before it writes the tables. `NodeRun`
holds a node together with the calls that are under way in it, and `NodeRun.step` is one critical
section of one of them.
-/

namespace Winkyou.Mesh

/-! ## Counters -/

def bootCounterStride : ℕ := 2 ^ 20

def bootCounterCandidate (nowNanos : ℤ) (previous : ℕ) : ℕ :=
  let candidate := if nowNanos > 0 then nowNanos.toNat else bootCounterStride
  let maximum := 2 ^ 64 - 1
  let minimum := if previous ≤ maximum - bootCounterStride then previous + bootCounterStride else maximum
  if candidate < minimum then minimum else candidate

/-! ## Nodes -/

def defaultTopologyLease : Duration := 30 * second
def defaultTopologyRefresh : Duration := 10 * second
def defaultLinkRTTMillis : UInt32 := 1

structure NodeConfig where
  nodeID : String
  virtualIP : String
  endpoints : List String
  capabilities : List String
  natProfile : String
  lease : Duration
  refreshInterval : Duration
  hopLimit : UInt8
  disableTransit : Bool

/-- A node: its router, its topology, its links and counters. -/
structure Node where
  nodeID : String
  router : Router
  topology : Topology
  member : MemberRecord
  links : GoMap LinkStateLink
  neighborHandles : GoMap NeighborHandle
  lsaRevision : ℕ
  leaseMillis : ℕ
  hopLimit : UInt8
  transitAllowed : Bool
  refreshInterval : Duration
  started : Bool

inductive NodeErr
  | nodeIDRequired
  /-- `topology lease <lease> is outside 1ms..<max>ms` -/
  | leaseOutside (lease : Duration)
  | hopLimitExceeds (hopLimit : UInt8)
  | topology (e : TopologyErr)
  | router (e : RouterErr)
  deriving DecidableEq, Repr

/-- `localLinkStateLocked`. The keys of `links` are the peers, so that the sort leaves nothing
open. -/
def Node.localLinkStateLocked (o : RangeOrder) (n : Node) : LinkStateAdvertisement where
  nodeID := n.nodeID
  revision := n.lsaRevision
  leaseMillis := n.leaseMillis
  transitAllowed := n.transitAllowed
  links := ((o.keys 0 n.links.keys).filterMap n.links.lookup).insertionSort fun a b =>
    a.peerID ≤ b.peerID

/-- The interval of `runMaintenance`: shorter than the lease. -/
def refreshWithin (refresh lease : Duration) : Duration :=
  let refresh := if refresh ≤ 0 then defaultTopologyRefresh else refresh
  if refresh ≥ lease then if lease.tdiv 3 ≤ 0 then millisecond else lease.tdiv 3 else refresh

/-- `NewNode`; `revisionBase` and `seq` are the counter bases of the node and of its router. -/
def newNode (o : RangeOrder) (cfg : NodeConfig) (revisionBase : ℕ) (seq : UInt64) :
    Except NodeErr Node := do
  let nodeID := trimSpace cfg.nodeID
  .failIf (nodeID = "") .nodeIDRequired
  let lease := if cfg.lease ≤ 0 then defaultTopologyLease else cfg.lease
  let leaseMillis := lease.tdiv millisecond
  .failIf (leaseMillis ≤ 0 ∨ leaseMillis > maxLeaseMillis) (.leaseOutside lease)
  let hopLimit := if cfg.hopLimit = 0 then defaultHopLimit else cfg.hopLimit
  .failIf (hopLimit > maxHopLimit) (.hopLimitExceeds hopLimit)
  let topology ← (newTopology nodeID).mapError .topology
  let member : MemberRecord :=
    ⟨nodeID, revisionBase, leaseMillis.toNat, trimSpace cfg.virtualIP, cfg.endpoints,
      cfg.capabilities, trimSpace cfg.natProfile⟩
  let router ← (newRouter nodeID 0 seq).mapError .router
  let topology ← (topology.setLocalMember o member).mapError .topology
  let node : Node :=
    { nodeID, router, topology, member, links := ∅, neighborHandles := ∅, lsaRevision := revisionBase,
      leaseMillis := leaseMillis.toNat, hopLimit, transitAllowed := !cfg.disableTransit,
      refreshInterval := refreshWithin cfg.refreshInterval lease, started := false }
  let topology ← (topology.setLocalLinkState o (node.localLinkStateLocked o)).mapError .topology
  return { node with topology }

/-- The section of `handleNeighborChange` under `mu`, for what `router.neighbor` returned: the node,
and the new local record when the links changed. -/
def Node.noteNeighbor (o : RangeOrder) (n : Node) (peerID : String)
    (neighbor : Option NeighborInfo) :
    Node × Option LinkStateAdvertisement :=
  let link := n.links.lookup peerID
  -- up or not, or another session than the one that is tracked
  let identityChanged := decide (n.neighborHandles.lookup peerID ≠ neighbor.map NeighborInfo.handle)
  let shouldLink := neighbor.any NeighborInfo.advertised
  let controlOnly := shouldLink && !neighbor.any NeighborInfo.dataCapable
  let capabilityChanged := shouldLink && link.any fun link => link.controlOnly != controlOnly
  let changed := shouldLink != link.isSome || shouldLink && (identityChanged || capabilityChanged)
  let neighborHandles :=
    match neighbor with
    | some info => n.neighborHandles.insert peerID info.handle
    | none => n.neighborHandles.erase peerID
  if changed then
    let links :=
      if shouldLink then n.links.insert peerID ⟨peerID, defaultLinkRTTMillis, controlOnly⟩
      else n.links.erase peerID
    let n := { n with links, neighborHandles, lsaRevision := (n.lsaRevision + 1) % 2 ^ 64 }
    (n, some (n.localLinkStateLocked o))
  else ({ n with neighborHandles }, none)

/-! ## Calls that are under way -/

/-- Where the `handleNeighborChange` that holds `neighborMu` stands. -/
inductive Change
  /-- `router.neighbor` was read -/
  | read (peerID : String) (neighbor : Option NeighborInfo)
  /-- the links changed, and the new record is not in the topology; `started` as it was read -/
  | changed (state : LinkStateAdvertisement) (started : Bool)
  /-- `syncRoutes` is called, and may have begun; the record that is sent afterwards -/
  | syncing (begun : Bool) (state : Option LinkStateAdvertisement)

/-- What the `syncRoutes` that holds `routeMu` has read. -/
inductive Sync
  | routes (routes : GoMap String)
  | dataRoutes (routes dataRoutes : GoMap String)
  /-- the data routes without those whose next hop is not data-capable -/
  | capabilities (routes dataRoutes : GoMap String)

inductive SyncCaller
  | change
  /-- `handleMessage` or `runMaintenance` -/
  | record
  deriving DecidableEq, Repr

structure NodeRun where
  node : Node
  /-- the number of sessions that were attached -/
  sessions : ℕ
  /-- the peers of the neighbor events whose callback has not begun -/
  events : List String
  change : Option Change
  /-- the `syncRoutes` calls that wait, after a change of the records -/
  syncs : ℕ
  sync : Option (SyncCaller × Sync)
  /-- link states that are about to be sent -/
  outbox : List LinkStateAdvertisement
  published : List LinkStateAdvertisement

inductive NodeAction
  | attach (peerID : String) (kind : NeighborKind) (dataCapable advertised : Bool)
  | promote (handle : NeighborHandle)
  /-- `RemoveNeighborHandle`, or a session that closed itself -/
  | detach (handle : NeighborHandle)
  | remove (peerID : String)
  /-- a callback takes `neighborMu` and reads the neighbor -/
  | callback (index : ℕ)
  /-- its section under `mu` -/
  | note (o : RangeOrder)
  | setLocalLinkState (o : RangeOrder)
  | applyMember (o : RangeOrder) (record : MemberRecord) (now : Time)
  | applyLinkState (o : RangeOrder) (record : LinkStateAdvertisement) (now : Time)
  | expire (o : RangeOrder) (now : Time)
  /-- `syncRoutes` takes `routeMu` and reads `NextHops` -/
  | syncRoutes (caller : SyncCaller)
  | readDataRoutes
  | readCapabilities (o : RangeOrder)
  | replaceRouteTables (o : RangeOrder)
  | start
  | rollbackStart
  /-- the section of `publishLinkState` -/
  | publishLinkState (o : RangeOrder)
  | send (index : ℕ)

namespace NodeRun

variable (s : NodeRun)

/-- A neighbor has changed, and its event is emitted. -/
def neighborChanged (router : Router) (peerID : String) : NodeRun :=
  { s with node := { s.node with router }, events := s.events ++ [peerID] }

/-- A record was handled, and `syncRoutes` is called when something changed. -/
def recordsChanged (topology : Topology) (changed : Bool) : NodeRun :=
  { s with node := { s.node with topology }, syncs := if changed then s.syncs + 1 else s.syncs }

/-- `attach`, with a new session. -/
def attach (peerID : String) (kind : NeighborKind) (dataCapable advertised : Bool) :
    Option NodeRun :=
  match s.node.router.addNeighborWithAdvertisement peerID ⟨s.sessions, kind, dataCapable,
    advertised⟩ with
  | .ok (router, peerID) => some { s.neighborChanged router peerID with sessions := s.sessions + 1 }
  | .error _ => none

def promote (handle : NeighborHandle) : Option NodeRun :=
  (s.node.router.promoteNeighborHandle handle).map fun (router, emits) =>
    if emits then s.neighborChanged router handle.peerID else s

def detach (handle : NeighborHandle) : Option NodeRun :=
  (s.node.router.detachNeighborHandle handle).map fun router => s.neighborChanged router handle.peerID

def remove (peerID : String) : Option NodeRun :=
  match s.node.router.removeNeighbor peerID with
  | .ok router => some (s.neighborChanged router (trimSpace peerID))
  | .error _ => none

/-- The first section of `handleNeighborChange`. -/
def callback (index : ℕ) : Option NodeRun :=
  match s.change, s.events[index]? with
  | none, some peerID =>
    let s := { s with events := s.events.eraseIdx index }
    if trimSpace peerID = "" then some s
    else some { s with change := some (.read peerID (s.node.router.neighbor peerID)) }
  | _, _ => none

/-- The section of `handleNeighborChange` under `mu`. -/
def note (o : RangeOrder) : Option NodeRun :=
  match s.change with
  | some (.read peerID neighbor) =>
    match s.node.noteNeighbor o peerID neighbor with
    | (node, none) => some { s with node, change := some (.syncing false none) }
    | (node, some state) => some { s with node, change := some (.changed state node.started) }
  | _ => none

/-- The local record goes into the topology. -/
def setLocalLinkState (o : RangeOrder) : Option NodeRun :=
  match s.change with
  | some (.changed state started) =>
    match s.node.topology.setLocalLinkState o state with
    | .ok topology =>
      some { s with
        node := { s.node with topology }
        change := some (.syncing false (if started then some state else none)) }
    | .error _ => some { s with change := none }
  | _ => none

def syncRoutes (caller : SyncCaller) : Option NodeRun :=
  match s.sync, caller with
  | some _, _ => none
  | none, .record =>
    if s.syncs = 0 then none
    else some { s with syncs := s.syncs - 1, sync := some (.record, .routes s.node.topology.nextHops) }
  | none, .change =>
    match s.change with
    | some (.syncing false state) =>
      some { s with
        change := some (.syncing true state)
        sync := some (.change, .routes s.node.topology.nextHops) }
    | _ => none

def readDataRoutes : Option NodeRun :=
  match s.sync with
  | some (caller, .routes routes) =>
    some { s with sync := some (caller, .dataRoutes routes s.node.topology.dataNextHops) }
  | _ => none

def readCapabilities (o : RangeOrder) : Option NodeRun :=
  match s.sync with
  | some (caller, .dataRoutes routes dataRoutes) =>
    let kept := keepCapable s.node.router dataRoutes (o.keys 2 dataRoutes.keys)
    some { s with sync := some (caller, .capabilities routes kept) }
  | _ => none

/-- The call of `syncRoutes` returns; a callback that made it releases `neighborMu`. -/
def synced (caller : SyncCaller) : NodeRun :=
  match caller, s.change with
  | .change, some (.syncing true state) =>
    { s with change := none, sync := none, outbox := s.outbox ++ state.toList }
  | _, _ => { s with sync := none }

def replaceRouteTables (o : RangeOrder) : Option NodeRun :=
  match s.sync with
  | some (caller, .capabilities routes dataRoutes) =>
    let router := (s.node.router.replaceRouteTables o routes dataRoutes).toOption.getD s.node.router
    some (synced { s with node := { s.node with router } } caller)
  | _ => none

def send (index : ℕ) : Option NodeRun :=
  (s.outbox[index]?).map fun state =>
    { s with outbox := s.outbox.eraseIdx index, published := s.published ++ [state] }

def step : NodeAction → Option NodeRun
  | .attach peerID kind dataCapable advertised => s.attach peerID kind dataCapable advertised
  | .promote handle => s.promote handle
  | .detach handle => s.detach handle
  | .remove peerID => s.remove peerID
  | .callback index => s.callback index
  | .note o => s.note o
  | .setLocalLinkState o => s.setLocalLinkState o
  | .applyMember o record now =>
    let (topology, result) := s.node.topology.applyMember o record now now
    some (s.recordsChanged topology (result.toOption.getD false))
  | .applyLinkState o record now =>
    let (topology, result) := s.node.topology.applyLinkState o record now now
    some (s.recordsChanged topology (result.toOption.getD false))
  | .expire o now =>
    let (topology, changed) := s.node.topology.expire o now now
    some (s.recordsChanged topology changed)
  | .syncRoutes caller => s.syncRoutes caller
  | .readDataRoutes => s.readDataRoutes
  | .readCapabilities o => s.readCapabilities o
  | .replaceRouteTables o => s.replaceRouteTables o
  | .start => some { s with node := { s.node with started := true } }
  | .rollbackStart => some { s with node := { s.node with started := false } }
  | .publishLinkState o => some { s with outbox := s.outbox ++ [s.node.localLinkStateLocked o] }
  | .send index => s.send index

end NodeRun

/-- A new node, in which no call is under way. -/
def NodeRun.Start (s : NodeRun) : Prop :=
  ∃ o cfg nowNanos previous seq n, newNode o cfg (bootCounterCandidate nowNanos previous) seq =
    .ok n ∧ s = ⟨n, 0, [], none, 0, none, [], []⟩

/-- Every call has returned, and every callback has run. -/
def NodeRun.Quiescent (s : NodeRun) : Prop :=
  s.events = [] ∧ s.change = none ∧ s.syncs = 0 ∧ s.sync = none

/-- The revision counter does not wrap. -/
def NodeRun.Regular (s : NodeRun) : NodeAction → Prop
  | .note _ => s.node.lsaRevision + 1 < 2 ^ 64
  | _ => True

instance (s : NodeRun) (a : NodeAction) : Decidable (s.Regular a) :=
  match a with
  | .note _ => inferInstanceAs (Decidable (s.node.lsaRevision + 1 < 2 ^ 64))
  | .attach .. | .promote _ | .detach _ | .remove _ | .callback _ | .setLocalLinkState _
      | .applyMember ..
  | .applyLinkState .. | .expire .. | .syncRoutes _ | .readDataRoutes | .readCapabilities _
      | .replaceRouteTables _ | .start
  | .rollbackStart | .publishLinkState _ | .send _ => isTrue trivial

/-- The states that runs of a node reach by steps that meet a condition. -/
def NodeRun.Reachable (ok : NodeRun → NodeAction → Prop) : NodeRun → Prop :=
  Transition.Reachable NodeRun.step NodeRun.Start ok

end Winkyou.Mesh
