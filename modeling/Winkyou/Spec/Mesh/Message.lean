import Winkyou.Lib.Except
import Winkyou.Spec.GoStd

/-!
# Peer-control messages (`peercontrol/message.go`)

The envelope of a routed message, its payloads, and the check that every message passes when it is
sent and when it is received.
-/

namespace Winkyou.Mesh

def messageVersion : ℤ := 1
def broadcastNodeID : String := "*"
def defaultHopLimit : UInt8 := 16
def maxHopLimit : UInt8 := 64
def maxPathVectorLength : ℕ := 64
def maxLeaseMillis : ℕ := 24 * 60 * 60 * 1000

/-! ## Payloads -/

/-- What a heartbeat reports of its sender. -/
structure Heartbeat where
  controlState : String
  dataState : String
  lastPathID : String
  deriving DecidableEq, Repr

structure PathHealth where
  pathID : String
  strategy : String
  connectionType : String
  endpoint : String
  lastHandshake : Time
  transportTxPackets : UInt64
  transportRxPackets : UInt64
  lastError : String
  deriving DecidableEq, Repr

structure EndpointUpdate where
  pathID : String
  endpoint : String
  reason : String
  deriving DecidableEq, Repr

structure CapabilityRefresh where
  strategies : List String
  reason : String
  deriving DecidableEq, Repr

structure ReICERequest where
  pathID : String
  reason : String
  deriving DecidableEq, Repr

/-- A signal of a peer session, opaque to the mesh. -/
structure SessionSignal where
  kind : String
  nameSpace : String
  type : String
  payload : Bytes
  deriving DecidableEq, Repr

structure ControlEcho where
  id : String
  payload : Bytes
  requestPath : List String
  deriving DecidableEq, Repr

structure MemberRecord where
  nodeID : String
  revision : ℕ
  leaseMillis : ℕ
  virtualIP : String
  endpoints : List String
  capabilities : List String
  natProfile : String
  deriving DecidableEq, Repr

structure LinkStateLink where
  peerID : String
  rttMillis : UInt32
  controlOnly : Bool
  deriving DecidableEq, Repr

structure LinkStateAdvertisement where
  nodeID : String
  revision : ℕ
  leaseMillis : ℕ
  transitAllowed : Bool
  links : List LinkStateLink
  deriving DecidableEq, Repr

/-! ## Messages -/

inductive MessageType
  | heartbeat
  | pathHealth
  | endpointUpdate
  | capabilityRefresh
  | reICERequest
  | sessionSignal
  | controlEchoRequest
  | controlEchoReply
  | memberAnnounce
  | linkState
  /-- any other string -/
  | other (name : String)
  deriving DecidableEq, Repr

/-- The string of a type on the wire. -/
def MessageType.text : MessageType → String
  | heartbeat => "heartbeat"
  | pathHealth => "path_health"
  | endpointUpdate => "endpoint_update"
  | capabilityRefresh => "capability_refresh"
  | reICERequest => "re_ice_request"
  | sessionSignal => "session_signal"
  | controlEchoRequest => "control_echo_request"
  | controlEchoReply => "control_echo_reply"
  | memberAnnounce => "member_announce"
  | linkState => "link_state"
  | other name => name

structure Message where
  version : ℤ
  type : MessageType
  fromNode : String
  toNode : String
  seq : UInt64
  sentAt : Time
  hopLimit : UInt8
  pathVector : List String
  heartbeat : Option Heartbeat
  pathHealth : Option PathHealth
  endpointUpdate : Option EndpointUpdate
  capabilityRefresh : Option CapabilityRefresh
  reICERequest : Option ReICERequest
  sessionSignal : Option SessionSignal
  controlEcho : Option ControlEcho
  memberRecord : Option MemberRecord
  linkState : Option LinkStateAdvertisement
  deriving DecidableEq, Repr

/-! ## Checks -/

/-- The errors of `Validate`, by what their text says. -/
inductive MessageErr
  | unsupportedVersion (version : ℤ)
  /-- `<field> is required` -/
  | required (field : String)
  /-- `<name> payload is required` -/
  | payloadRequired (name : String)
  | hopLimitExceeds (hopLimit : UInt8)
  | pathVectorTooLong (length : ℕ)
  | pathVectorRequiresHopLimit
  /-- `<field>[<index>]<suffix> is empty` -/
  | emptyElement (field : String) (index : ℕ) (suffix : String)
  | pathVectorStart (origin : String)
  | controlEchoRequiresHopLimit
  | notBroadcast (type : String)
  | typeRequiresHopLimit (type : String)
  /-- `<record>.node_id does not match origin` -/
  | nodeIDMismatch (record nodeID origin : String)
  | leaseExceeds (name : String) (leaseMillis : ℕ)
  | selfLink (peerID : String)
  | repeatedPeer (peerID : String)
  | unsupportedType (type : String)
  deriving DecidableEq, Repr

def requirePayload {α : Type} (payload : Option α) (name : String) : Except MessageErr α :=
  match payload with
  | none => .error (.payloadRequired name)
  | some payload => .ok payload

/-- A loop that refuses the first element which is blank. -/
def refuseBlank (field : String) : ℕ → List String → Except MessageErr Unit
  | _, [] => .ok ()
  | i, value :: values =>
    if trimSpace value = "" then .error (.emptyElement field i "") else refuseBlank field (i + 1) values

def validateRouteHeader (msg : Message) : Except MessageErr Unit := do
  .failIf (msg.hopLimit > maxHopLimit) (.hopLimitExceeds msg.hopLimit)
  .failIf (msg.pathVector.length > maxPathVectorLength) (.pathVectorTooLong msg.pathVector.length)
  .failIf (msg.pathVector.length > 0 ∧ msg.hopLimit = 0) .pathVectorRequiresHopLimit
  refuseBlank "path_vector" 0 msg.pathVector
  .failIf (msg.pathVector.head?.any fun first => first ≠ msg.fromNode) (.pathVectorStart msg.fromNode)

def validateFloodHeader (msg : Message) : Except MessageErr Unit := do
  .failIf (msg.toNode ≠ broadcastNodeID) (.notBroadcast msg.type.text)
  .failIf (msg.hopLimit = 0) (.typeRequiresHopLimit msg.type.text)

def validateLease (name : String) (leaseMillis : ℕ) : Except MessageErr Unit := do
  .failIf (leaseMillis = 0) (.required (name ++ ".lease_millis"))
  .failIf (leaseMillis > maxLeaseMillis) (.leaseExceeds name leaseMillis)

def validateMemberRecord (origin : String) (record : MemberRecord) : Except MessageErr Unit := do
  .failIf (record.nodeID ≠ origin) (.nodeIDMismatch "member_record" record.nodeID origin)
  .failIf (record.revision = 0) (.required "member_record.revision")
  validateLease "member_record" record.leaseMillis
  refuseBlank "member_record.endpoints" 0 record.endpoints
  refuseBlank "member_record.capabilities" 0 record.capabilities

/-- The loop over the links of a record. -/
def validateLinks (origin : String) : ℕ → List String → List LinkStateLink → Except MessageErr Unit
  | _, _, [] => .ok ()
  | i, seen, link :: links => do
    let peerID := trimSpace link.peerID
    .failIf (peerID = "") (.emptyElement "link_state.links" i ".peer_id")
    .failIf (peerID = origin) (.selfLink peerID)
    .failIf (peerID ∈ seen) (.repeatedPeer peerID)
    validateLinks origin (i + 1) (peerID :: seen) links

def validateLinkState (origin : String) (state : LinkStateAdvertisement) : Except MessageErr Unit :=
  do
  .failIf (state.nodeID ≠ origin) (.nodeIDMismatch "link_state" state.nodeID origin)
  .failIf (state.revision = 0) (.required "link_state.revision")
  validateLease "link_state" state.leaseMillis
  validateLinks origin 0 [] state.links

/-- The part of `Validate` that depends on the type of the message. -/
def validatePayload (msg : Message) : Except MessageErr Unit :=
  match msg.type with
  | .heartbeat => do let _ ← requirePayload msg.heartbeat "heartbeat"
  | .pathHealth => do let _ ← requirePayload msg.pathHealth "path_health"
  | .endpointUpdate => do
    let update ← requirePayload msg.endpointUpdate "endpoint_update"
    .failIf (trimSpace update.endpoint = "") (.required "endpoint_update.endpoint")
  | .capabilityRefresh => do let _ ← requirePayload msg.capabilityRefresh "capability_refresh"
  | .reICERequest => do let _ ← requirePayload msg.reICERequest "re_ice_request"
  | .sessionSignal => do
    let signal ← requirePayload msg.sessionSignal "session_signal"
    .failIf (trimSpace signal.kind = "") (.required "session_signal.kind")
    .failIf (trimSpace signal.nameSpace = "") (.required "session_signal.namespace")
    .failIf (trimSpace signal.type = "") (.required "session_signal.type")
  | .controlEchoRequest | .controlEchoReply => do
    let echo ← requirePayload msg.controlEcho "control_echo"
    .failIf (trimSpace echo.id = "") (.required "control_echo.id")
    .failIf (msg.hopLimit = 0) .controlEchoRequiresHopLimit
  | .memberAnnounce => do
    let record ← requirePayload msg.memberRecord "member_record"
    validateFloodHeader msg
    validateMemberRecord msg.fromNode record
  | .linkState => do
    let state ← requirePayload msg.linkState "link_state"
    validateFloodHeader msg
    validateLinkState msg.fromNode state
  | .other name => .error (.unsupportedType name)

def Message.validate (msg : Message) : Except MessageErr Unit := do
  .failIf (msg.version ≠ messageVersion) (.unsupportedVersion msg.version)
  .failIf (trimSpace msg.fromNode = "") (.required "from")
  .failIf (trimSpace msg.toNode = "") (.required "to")
  .failIf (msg.sentAt.isZero) (.required "sent_at")
  validateRouteHeader msg
  validatePayload msg

end Winkyou.Mesh
