import Winkyou.Spec.Mesh.Router

/-!
# Data frames (`data_frame.go`, `data_router.go`) and the installed route tables (`node.go`)

A data frame is sent along the data table, one hop at a time. `travel` follows it from router to
router until it is delivered or dropped.
-/

namespace Winkyou.Mesh

/-! ## Frames -/

def dataFrameVersion : UInt8 := 1
def maxDataNodeIDLength : ℕ := 1024
def maxDataPayloadSize : ℕ := 256 * 1024

inductive DataType
  | packet
  | streamOpen
  | streamOpenOK
  | streamOpenError
  | streamData
  | streamFIN
  | streamReset
  | streamACK
  /-- any other number -/
  | other (code : UInt8)
  deriving DecidableEq, Repr

/-- The number of a type on the wire. -/
def DataType.code : DataType → UInt8
  | packet => 1
  | streamOpen => 2
  | streamOpenOK => 3
  | streamOpenError => 4
  | streamData => 5
  | streamFIN => 6
  | streamReset => 7
  | streamACK => 8
  | other code => code

structure DataFrame where
  version : UInt8
  type : DataType
  flags : UInt8
  hopLimit : UInt8
  source : String
  destination : String
  flowID : UInt64
  sequence : UInt64
  payload : Bytes
  deriving DecidableEq, Repr

/-- The errors of `ValidateDataFrame`, by what their text says. -/
inductive DataFrameErr
  | unsupportedVersion (version : UInt8)
  | unsupportedType (code : UInt8)
  | unsupportedFlags (flags : UInt8)
  | hopLimitRange (hopLimit : UInt8)
  | invalidSource
  | invalidDestination
  | flowIDRequired
  | payloadTooLarge (length : ℕ)
  | payloadRequired (code : UInt8)
  | payloadRefused (code : UInt8)
  deriving DecidableEq, Repr

/-- What the type of a frame says about its payload. -/
def validateDataPayload (frame : DataFrame) : Except DataFrameErr Unit :=
  match frame.type with
  | .packet | .streamData => .failIf (frame.payload.length = 0) (.payloadRequired frame.type.code)
  | .streamOpen | .streamOpenOK | .streamFIN | .streamACK =>
    .failIf (frame.payload.length ≠ 0) (.payloadRefused frame.type.code)
  | _ => .ok ()

def DataType.supported : DataType → Bool
  | other _ => false
  | _ => true

def validateDataFrame (frame : DataFrame) : Except DataFrameErr Unit := do
  .failIf (frame.version ≠ dataFrameVersion) (.unsupportedVersion frame.version)
  .failIf (¬ frame.type.supported) (.unsupportedType frame.type.code)
  .failIf (frame.flags ≠ 0) (.unsupportedFlags frame.flags)
  .failIf (frame.hopLimit = 0 ∨ frame.hopLimit > maxHopLimit) (.hopLimitRange frame.hopLimit)
  .failIf (trimSpace frame.source = "" ∨ frame.source.utf8ByteSize > maxDataNodeIDLength) .invalidSource
  .failIf (trimSpace frame.destination = "" ∨ frame.destination.utf8ByteSize > maxDataNodeIDLength)
    .invalidDestination
  .failIf (frame.flowID = 0) .flowIDRequired
  .failIf (frame.payload.length > maxDataPayloadSize) (.payloadTooLarge frame.payload.length)
  validateDataPayload frame

/-! ## Forwarding -/

inductive DataErr
  | cannotOriginate (nodeID source : String)
  | invalid (e : DataFrameErr)
  | router (e : RouterErr)
  deriving DecidableEq, Repr

/-- What a router does with a frame; the sessions below it do not fail. -/
inductive DataOutcome
  | delivered (frame : DataFrame)
  | forwarded (nextHop : String) (frame : DataFrame)
  | dropped (err : DataErr)
  /-- an error of `SendData` before the frame is originated -/
  | refused (err : DataErr)
  deriving DecidableEq, Repr

namespace Router

variable (r : Router)

def forwardData (frame : DataFrame) : DataOutcome :=
  match r.lookupData frame.destination with
  | .error e => .dropped (.router e)
  | .ok nextHop => .forwarded nextHop frame

/-- The frame that `SendData` originates: defaults filled in, and checked. -/
def originate (frame : DataFrame) : Except DataErr DataFrame := do
  let frame := { frame with
    version := if frame.version = 0 then dataFrameVersion else frame.version
    source := if trimSpace frame.source = "" then r.nodeID else frame.source
    hopLimit := if frame.hopLimit = 0 then 16 else frame.hopLimit }
  .failIf (frame.source ≠ r.nodeID) (.cannotOriginate r.nodeID frame.source)
  (validateDataFrame frame).mapError .invalid
  return frame

def sendData (frame : DataFrame) : DataOutcome :=
  match r.originate frame with
  | .error e => .refused e
  | .ok frame => if frame.destination = r.nodeID then .delivered frame else r.forwardData frame

def handleInboundData (inboundPeer : String) (frame : DataFrame) : DataOutcome :=
  if ¬ r.hasNeighbor (trimSpace inboundPeer) then .dropped (.router .unknownNeighbor)
  else
    match validateDataFrame frame with
    | .error e => .dropped (.invalid e)
    | .ok () =>
      if frame.destination = r.nodeID then .delivered frame
      else if frame.hopLimit ≤ 1 then .dropped (.router .hopLimitExceeded)
      else r.forwardData { frame with hopLimit := frame.hopLimit - 1 }

end Router

/-! ## A frame on its way -/

/-- The nodes that a frame passes after `node` sent it, and what happens to it in the end. A frame
that is forwarded has lost a hop, so `fuel` need not exceed its hop limit. -/
def travel (routers : String → Router) : ℕ → String → DataOutcome → List String × DataOutcome
  | fuel + 1, node, .forwarded nextHop frame =>
    let rest := travel routers fuel nextHop ((routers nextHop).handleInboundData node frame)
    (nextHop :: rest.1, rest.2)
  | _, _, outcome => ([], outcome)

/-! ## Installing tables -/

/-- The filter of `syncRoutes`: data routes whose next hop is not an attached data-capable neighbor
are deleted. -/
def keepCapable (r : Router) (dataRoutes : GoMap String) (keys : List String) : GoMap String :=
  keys.foldl (fun kept destination =>
    if r.dataCapability ((dataRoutes.lookup destination).getD "") then kept
      else kept.erase destination) dataRoutes

/-- `syncRoutes`, with nothing between its steps. -/
def syncRoutes (o : RangeOrder) (t : Topology) (r : Router) : Router :=
  let dataRoutes := keepCapable r t.dataNextHops (o.keys 2 t.dataNextHops.keys)
  (r.replaceRouteTables o t.nextHops dataRoutes).toOption.getD r

end Winkyou.Mesh
