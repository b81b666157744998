import Mathlib.Data.List.Sort
import Mathlib.Data.Rat.Defs
import Winkyou.Spec.Ledger.Frame

/-!
# When two peers meet without a coordinator (`engine.go`, `candidate_portfolio.go`)

Both nodes of a pair derive the same attempt windows from the pair key; the ordinal of a window
picks a group of cached endpoints on each side. `runPeer` is one pass of the loop of
`Engine.runPeer`, with what it learns from outside as arguments; the status that it publishes is
left out.
-/

namespace Winkyou.Selfhosted

/-- `hmac.New(sha256.New, key)`, of a key and a message. -/
abbrev Hmac := Bytes → Bytes → Vector UInt8 32

def pairKey (hmac : Hmac) (localID peerID : String) (sharedSecret : Bytes) :
    Except String (Vector UInt8 32) :=
  let localID := trimSpace localID
  let peerID := trimSpace peerID
  if localID = "" ∨ peerID = "" ∨ localID = peerID then
    .error "selfbootstrap: pair requires distinct non-empty node IDs"
  else
    let left := if peerID < localID then peerID else localID
    let right := if peerID < localID then localID else peerID
    .ok (hmac sharedSecret
      (utf8 "wink-selfbootstrap-pair-v1".toList ++ [0] ++ utf8 left.toList ++ [0] ++ utf8 right.toList))

inductive Role
  | selector
  | receiver
  deriving DecidableEq

def selfBootstrapPunchRole (localID peerID : String) : Role :=
  if localID < peerID then .selector else .receiver

/-! ## Windows -/

/-- January 1, 1970, in nanoseconds since the zero time. -/
def unixEpoch : ℤ := 62135596800 * second

/-- `Time.UnixNano`, which wraps around outside of the years 1678 to 2262. -/
def unixNano (t : Time) : ℤ := int64 (t.nanos - unixEpoch)

/-- `binary.BigEndian.Uint64(key[:8]) % uint64(cycle)`. -/
def windowOffset (key : Vector UInt8 32) (cycle : Duration) : ℤ :=
  ((key.toList.take 8).foldl (fun n b => 256 * n + b.toNat) 0 : ℕ) % cycle

structure Window where
  start : Time
  finish : Time
  active : Bool
  ordinal : ℤ
  deriving DecidableEq

def attemptWindowDetails (key : Vector UInt8 32) (now : Time) (cycle active : Duration) : Window :=
  let offset := windowOffset key cycle
  let shifted := int64 (unixNano now - offset)
  -- Go's division truncates
  let index := if shifted < 0 ∧ shifted.tmod cycle ≠ 0 then shifted.tdiv cycle - 1
    else shifted.tdiv cycle
  let start : Time := ⟨int64 (index * cycle + offset) + unixEpoch, now.isUTC⟩
  let finish := start.add active
  ⟨start, finish, !now.before start && now.before finish, index⟩

/-! ## The portfolio of endpoints -/

/-- How the ports of a NAT follow each other. -/
inductive PortPattern
  | unknown
  | preserving
  | sequential
  | random
  | other (text : String)

structure NATModel where
  pattern : PortPattern
  delta : ℤ
  /-- None for a NaN or an infinity. -/
  confidence : Option ℚ
  observedAt : Time

structure Endpoint where
  addrPort : String
  observedAt : Time
  source : String
  nat : NATModel
  lastSuccessAt : Time

inductive Addr
  | v4 (bits : BitVec 32)
  | v6 (bits : BitVec 128)

def Addr.unmap : Addr → Addr
  | .v4 bits => .v4 bits
  | .v6 bits => if bits.toNat / 2 ^ 32 = 0xFFFF then .v4 (bits.setWidth 32) else .v6 bits

/-- `netip.Addr.String` of an IPv4 address. -/
def ipv4String (ip : BitVec 32) : String :=
  ".".intercalate ([24, 16, 8, 0].map fun shift => formatUint ((ip >>> shift).setWidth 8).toNat)

/-- The first `bits` bits of the address are those of the network. -/
def inNetwork (ip network : BitVec 32) (bits : ℕ) : Bool :=
  ip >>> (32 - bits) = network >>> (32 - bits)

def isMulticast (ip : BitVec 32) : Bool := inNetwork ip 0xE0000000 4

def isPublicIPv4 (ip : BitVec 32) : Bool :=
  let loopback := inNetwork ip 0x7F000000 8
  let linkLocal := inNetwork ip 0xA9FE0000 16
  let globalUnicast := ip ≠ 0xFFFFFFFF && ip ≠ 0 && !loopback && !isMulticast ip && !linkLocal
  let isPrivate := inNetwork ip 0x0A000000 8 || inNetwork ip 0xAC100000 12 || inNetwork ip 0xC0A80000 16
  globalUnicast && !isPrivate && !loopback && !linkLocal && !inNetwork ip 0x64400000 10

structure CandidateAnchor where
  endpoint : Endpoint
  ip : BitVec 32
  port : ℕ

/-- `candidateAddrPort`, with the result of `netip.ParseAddrPort`. -/
def candidateAddrPort (parsed : Option (Addr × ℕ)) (allowNonPublic : Bool) :
    Option (BitVec 32 × ℕ) := do
  let (address, port) ← parsed
  guard (port ≠ 0)
  let .v4 ip := address.unmap | none
  guard (ip ≠ 0 ∧ isMulticast ip = false ∧ (allowNonPublic ∨ isPublicIPv4 ip))
  return (ip, port)

def candidateNATRank : PortPattern → ℕ
  | .preserving => 0
  | .sequential => 1
  | .unknown => 2
  | .random => 3
  | .other _ => 4

def candidateNATConfidence (confidence : Option ℚ) : ℚ :=
  match confidence with
  | some c => if c < 0 ∨ 1 < c then -1 else c
  | none => -1

/-- The order of the anchors: the latest success first. -/
def candidateAnchorLess (left right : CandidateAnchor) : Bool :=
  let l := left.endpoint
  let r := right.endpoint
  let confidence (e : Endpoint) := candidateNATConfidence e.nat.confidence
  if l.lastSuccessAt.nanos ≠ r.lastSuccessAt.nanos then l.lastSuccessAt.after r.lastSuccessAt
  else if l.observedAt.nanos ≠ r.observedAt.nanos then l.observedAt.after r.observedAt
  else if candidateNATRank l.nat.pattern ≠ candidateNATRank r.nat.pattern then
    candidateNATRank l.nat.pattern < candidateNATRank r.nat.pattern
  else if confidence l ≠ confidence r then confidence r < confidence l
  else if left.ip ≠ right.ip then left.ip < right.ip
  else if left.port ≠ right.port then left.port < right.port
  else if l.nat.observedAt.nanos ≠ r.nat.observedAt.nanos then l.nat.observedAt.after r.nat.observedAt
  else if l.nat.delta ≠ r.nat.delta then l.nat.delta < r.nat.delta
  else if l.source ≠ r.source then l.source < r.source
  else l.addrPort < r.addrPort

structure CandidateGroup where
  id : String
  ip : BitVec 32
  anchors : List CandidateAnchor
  totalAnchorCount : ℕ := 0

structure CandidatePortfolio where
  groups : List CandidateGroup
  usableEndpointCount : ℕ
  filteredEndpointCount : ℕ
  duplicateEndpointCount : ℕ
  totalGroupCount : ℕ

def maxCandidateGroups : ℕ := 4
def maxCandidateAnchorsPerGroup : ℕ := 4

/-- An anchor joins the group of its address, or opens it. -/
def addAnchor (groups : List CandidateGroup) (anchor : CandidateAnchor) : List CandidateGroup :=
  let id := ipv4String anchor.ip
  if groups.any fun group => group.id = id then
    groups.map fun group => if group.id = id then { group with anchors := group.anchors ++ [anchor] } else group
  else groups ++ [{ id := id, ip := anchor.ip, anchors := [anchor] }]

/-- `buildCandidatePortfolio`; `parse` is `netip.ParseAddrPort`. Anchors that `candidateAnchorLess`
does not tell apart have one address, of which the first is kept. -/
def buildCandidatePortfolio (parse : String → Option (Addr × ℕ)) (endpoints : List Endpoint)
    (allowNonPublic : Bool) :
    CandidatePortfolio :=
  let anchors := endpoints.filterMap fun endpoint =>
    (candidateAddrPort (parse endpoint.addrPort) allowNonPublic).map fun (ip, port) =>
      CandidateAnchor.mk endpoint ip port
  let sorted := anchors.insertionSort fun left right => candidateAnchorLess right left = false
  let unique := sorted.foldl (fun kept anchor =>
    if kept.any fun a => a.ip = anchor.ip ∧ a.port = anchor.port then kept else kept ++ [anchor]) []
  let groups := unique.foldl addAnchor []
  { groups := (groups.take maxCandidateGroups).map fun group =>
      { group with totalAnchorCount := group.anchors.length, anchors := group.anchors.take maxCandidateAnchorsPerGroup }
    usableEndpointCount := unique.length
    filteredEndpointCount := endpoints.length - anchors.length
    duplicateEndpointCount := anchors.length - unique.length
    totalGroupCount := groups.length }

/-! ## Selection -/

/-- `peerRuntime`; a failure count that is not in the map is zero. -/
structure PeerRuntime where
  id : String
  key : Vector UInt8 32
  lastAttemptWindow : Time := .zero
  candidateFailures : String → ℕ := fun _ => 0
  punchDeadlineMisses : String → ℕ := fun _ => 0

structure CandidateSelection where
  group : CandidateGroup
  index : ℕ
  total : ℕ
  failures : ℕ
  punchDeadlineMisses : ℕ
  windowOrdinal : ℤ

def recoveryCandidateScheduleIndex (windowOrdinal : ℤ) (role : Role) (groupCount : ℕ) : ℕ :=
  if groupCount ≤ 1 then 0
  else
    let scheduleSize : ℤ := maxCandidateGroups * maxCandidateGroups
    let phase := windowOrdinal.tmod scheduleSize
    let phase := if phase < 0 then phase + scheduleSize else phase
    let coordinate := if role = .receiver then phase.tdiv maxCandidateGroups
      else phase.tmod maxCandidateGroups
    coordinate.toNat % groupCount

/-- `selectRecoveryCandidate`, with the peer whose counts of other groups it drops. -/
def selectRecoveryCandidate (peer : PeerRuntime) (portfolio : CandidatePortfolio)
    (windowOrdinal : ℤ) (role : Role) :
    PeerRuntime × Option CandidateSelection :=
  if portfolio.groups.isEmpty then (peer, none)
  else
    let active (counts : String → ℕ) (id : String) :=
      if portfolio.groups.any (·.id = id) then counts id else 0
    let peer := { peer with
      candidateFailures := active peer.candidateFailures, punchDeadlineMisses :=
        active peer.punchDeadlineMisses }
    let selected := recoveryCandidateScheduleIndex windowOrdinal role portfolio.groups.length
    (peer, portfolio.groups[selected]?.map fun group =>
      { group := group, index := selected + 1, total := portfolio.groups.length
        failures := peer.candidateFailures group.id, punchDeadlineMisses :=
          peer.punchDeadlineMisses group.id
        windowOrdinal := windowOrdinal })

def recordCandidateFailure (peer : PeerRuntime) (id stage : String) (penalize : Bool) :
    PeerRuntime :=
  let count (counts : String → ℕ) := Function.update counts id ((counts id + 1) % 2 ^ 32)
  if penalize = false ∨ id = "" then peer
  else if stage ≠ "punch" then { peer with candidateFailures := count peer.candidateFailures }
  else { peer with
    candidateFailures := count peer.candidateFailures, punchDeadlineMisses :=
      count peer.punchDeadlineMisses }

/-! ## The loop -/

structure Config where
  attemptWindow : Duration
  attemptCycle : Duration
  helloTimeout : Duration
  punchGrace : Duration
  allowNonPublic : Bool

inductive AttemptError
  | alreadyReachable
  | failed (stage : String) (penalize : Bool)

/-- What a pass of the loop learns: whether the counts were reset, whether the peer is reachable,
the endpoints of the card if it could be loaded and has the peer, the time, and what `runAttempt`
would return. -/
structure Pass where
  reset : Bool := false
  reachable : Bool := false
  endpoints : Option (List Endpoint)
  now : Time
  err : Option AttemptError := none

/-- A call of `runAttempt`. -/
structure Attempt where
  selection : CandidateSelection
  windowStart : Time
  windowEnd : Time

/-- One pass of the loop of `runPeer`. -/
def runPeer (cfg : Config) (parse : String → Option (Addr × ℕ)) (nodeID : String)
    (peer : PeerRuntime) (pass : Pass) :
    PeerRuntime × Option Attempt :=
  let peer := if pass.reset then { peer with candidateFailures := fun _ => 0, punchDeadlineMisses := fun _ => 0 } else peer
  if pass.reachable then (peer, none)
  else
    let portfolio := buildCandidatePortfolio parse (pass.endpoints.getD []) cfg.allowNonPublic
    let window := attemptWindowDetails peer.key pass.now cfg.attemptCycle cfg.attemptWindow
    let (peer, selection) :=
      selectRecoveryCandidate peer portfolio window.ordinal (selfBootstrapPunchRole nodeID peer.id)
    match selection with
    | none => (peer, none)
    | some selection =>
      let alreadyTried := peer.lastAttemptWindow.nanos = window.start.nanos
      let minimumRemaining := cfg.helloTimeout + cfg.punchGrace + second
      if window.active = false ∨ alreadyTried ∨
        window.finish.sub pass.now ≤ minimumRemaining then (peer, none)
      else
        let peer := { peer with lastAttemptWindow := window.start }
        let peer := match pass.err with
          | some (.failed stage penalize) =>
            recordCandidateFailure peer selection.group.id stage penalize
          | _ => peer
        (peer, some ⟨selection, window.start, window.finish⟩)

/-- The attempts of the loop. -/
def attempts (cfg : Config) (parse : String → Option (Addr × ℕ)) (nodeID : String) :
    PeerRuntime → List Pass → List Attempt
  | _, [] => []
  | peer, pass :: passes =>
    let (peer, attempt) := runPeer cfg parse nodeID peer pass
    attempt.toList ++ attempts cfg parse nodeID peer passes

end Winkyou.Selfhosted
