import Winkyou.Spec.GoStd

/-!
# What an engine reports of its peers (`peer_manager.go`, `engine.go`, `peer_health.go`, `tunnel_events.go`)

The fields of a `PeerStatus` from which its states are computed, with the three writers of these
states: the clean-up of a peer, the sync with the tunnel's statistics and the health rules. What the
tunnel reports and the clock are inputs of each recomputation. The removal of a peer from the tunnel
shows in the statistics reported from then on.
-/

namespace Winkyou.Client

inductive PeerState
  | disconnected
  | connecting
  | connected
  deriving DecidableEq

/-- `none` is the empty text. -/
inductive PeerControlState
  | none
  | connected
  | degraded
  | disconnected
  deriving DecidableEq

inductive PeerDataState
  | none
  | connecting
  | bound
  | alive
  | stale
  | failed
  deriving DecidableEq

/-- The statistics that `GetPeers` of the tunnel has of a peer. -/
structure TunnelPeer where
  lastHandshake : Time := .zero
  txBytes : ℕ := 0
  rxBytes : ℕ := 0
  transportTxPackets : ℕ := 0
  transportRxPackets : ℕ := 0
  transportLastError : String := ""

structure PeerStatus extends TunnelPeer where
  nodeID : String
  publicKey : String
  state : PeerState
  controlState : PeerControlState
  dataState : PeerDataState
  lastInbandHeartbeatAt : Time := .zero
  lastInbandPathHealthAt : Time := .zero

def inbandHealthWindow : Duration := 3 * (5 * second)

def timestampFreshAt (ts now : Time) (window : Duration) : Bool :=
  !ts.isZero && !ts.after now && now.sub ts ≤ window

def peerDataPathAlive (p : PeerStatus) : Bool :=
  !p.lastHandshake.isZero && p.transportLastError = "" &&
    (p.state = .connected || 0 < p.transportTxPackets || 0 < p.transportRxPackets || 0 <
      p.txBytes || 0 < p.rxBytes)

/-- The peers of the tunnel, by public key. -/
abbrev TunnelStats := String → Option TunnelPeer

/-- `syncTunnelPeerStateLocked`, for one peer. A tunnel that reports no handshake leaves the one
known before. -/
def PeerStatus.syncTunnel (stats : TunnelStats) (p : PeerStatus) : PeerStatus :=
  match stats p.publicKey with
  | none => p
  | some t =>
    let p := { p with
      txBytes := t.txBytes, rxBytes := t.rxBytes, transportTxPackets := t.transportTxPackets
      transportRxPackets := t.transportRxPackets, transportLastError := t.transportLastError
      dataState := if t.transportLastError ≠ "" then .failed else p.dataState }
    if t.lastHandshake.isZero then p
    else { p with
      lastHandshake := t.lastHandshake, state := .connected
      dataState := if t.transportLastError = "" then .alive else p.dataState }

/-- The control state by the health rules. -/
def PeerStatus.healthControl (p : PeerStatus) (now : Time) : PeerControlState :=
  let healthy := timestampFreshAt p.lastInbandHeartbeatAt now inbandHealthWindow
  let state := if p.controlState = .degraded && !healthy then .disconnected else p.controlState
  if (state = .none || state = .disconnected) && healthy then .degraded else state

/-- `applyPeerHealthStateLocked`, for one peer. -/
def PeerStatus.applyHealth (now : Time) (p : PeerStatus) : PeerStatus :=
  if p.transportLastError ≠ "" then { p with dataState := .failed }
  else
    let p := { p with controlState := p.healthControl now }
    if timestampFreshAt p.lastInbandPathHealthAt now inbandHealthWindow then
      { p with state := .connected, dataState := .alive }
    else if p.dataState = .alive && !peerDataPathAlive p then { p with dataState := .stale }
    else p

/-- The peers of an engine, one for each node id, and those that were counted as connected at the
last count. -/
structure EnginePeers where
  peers : List PeerStatus
  counted : List String := []

def EnginePeers.connectedPeers (e : EnginePeers) : ℕ := e.counted.length

def EnginePeers.updateStatusCounters (e : EnginePeers) (stats : TunnelStats) (now : Time) :
    EnginePeers :=
  let peers := e.peers.map fun p => (p.syncTunnel stats).applyHealth now
  ⟨peers, (peers.filter (·.state = .connected)).map (·.nodeID)⟩

/-- The peers, with those of a node changed. -/
def EnginePeers.modify (e : EnginePeers) (nodeID : String) (change : PeerStatus → PeerStatus) :
    EnginePeers :=
  { e with peers := e.peers.map fun p => if p.nodeID = nodeID then change p else p }

/-- `cleanupPeer`, for `DisconnectFromPeer` and for a peer that the coordinator reports offline. -/
def EnginePeers.cleanupPeer (e : EnginePeers) (nodeID : String) (stats : TunnelStats) (now : Time) :
    EnginePeers :=
  (e.modify nodeID fun p =>
    { p with state := .disconnected, controlState := .disconnected, dataState := .failed }).updateStatusCounters stats now

/-- What happens later: the states are computed anew (a snapshot, a change of the engine's state,
and after most of the others), the tunnel's event of a handshake with a peer is handled, or a
signal, an in-band message, a session or the coordinator changes the status of a peer. -/
inductive PeerEvent
  | recompute (stats : TunnelStats) (now : Time)
  | handshake (nodeID : String)
  | change (nodeID : String) (change : PeerStatus → PeerStatus)

def EnginePeers.step (e : EnginePeers) : PeerEvent → EnginePeers
  | .recompute stats now => e.updateStatusCounters stats now
  | .handshake nodeID => e.modify nodeID fun p =>
    { p with
      state := .connected, dataState := .alive
      controlState := if p.controlState = .none then .connected else p.controlState }
  | .change nodeID change => e.modify nodeID fun p => { change p with nodeID := nodeID }

end Winkyou.Client
