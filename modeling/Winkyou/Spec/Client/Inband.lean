import Winkyou.Spec.Client.PeerStatus

/-!
# In-band messages and the health of peers (`inband_control.go`)

What `handleInbandControlMessage` does to the peers under the engine's lock. A message is stamped
with the time of its sender; the time of the receiver is an input.
-/

namespace Winkyou.Client

structure InbandMessage where
  sender : String
  target : String
  sentAt : Time := .zero
  heartbeat : Bool := false
  pathHealth : Bool := false
  reICERequest : Bool := false
  endpointUpdate : Bool := false

/-- The time that the message is taken to be seen at: that of its sender, when it has one. -/
def InbandMessage.seenAt (msg : InbandMessage) (now : Time) : Time :=
  if msg.sentAt.isZero then now.toUTC else msg.sentAt

def InbandMessage.changes (msg : InbandMessage) : Bool :=
  msg.heartbeat || msg.pathHealth || msg.reICERequest || msg.endpointUpdate

/-- The control state of a peer that has sent a heartbeat or a path health. -/
def PeerControlState.reached (state : PeerControlState) : PeerControlState :=
  if state = .none || state = .disconnected then .degraded else state

/-- What the peer that sent the message is set to. -/
def PeerStatus.noteInband (msg : InbandMessage) (seenAt : Time) (p : PeerStatus) : PeerStatus :=
  let p := if msg.heartbeat then
      { p with lastInbandHeartbeatAt := seenAt, controlState := p.controlState.reached }
    else p
  if msg.pathHealth then
    { p with
      lastInbandPathHealthAt := seenAt
      state := if p.transportLastError = "" then .connected else p.state
      dataState := if p.transportLastError = "" then .alive else p.dataState
      controlState := p.controlState.reached }
  else p

/-- A message is for an engine without a node id yet, or with the id that the message names. -/
def InbandMessage.isFor (msg : InbandMessage) (localNodeID : String) : Bool :=
  localNodeID = "" || msg.target = localNodeID

/-- `handleInbandControlMessage`: the health rules are applied to all peers, at the time the message
was seen. -/
def EnginePeers.handleInband (localNodeID : String) (e : EnginePeers) (msg : InbandMessage)
    (now : Time) : EnginePeers :=
  if msg.isFor localNodeID && e.peers.any (·.nodeID = msg.sender) && msg.changes then
    let e := e.modify msg.sender (·.noteInband msg (msg.seenAt now))
    { e with peers := e.peers.map (·.applyHealth (msg.seenAt now)) }
  else e

end Winkyou.Client
