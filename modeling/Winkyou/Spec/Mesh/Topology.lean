import Mathlib.Data.List.Sort
import Winkyou.Lib.Table
import Winkyou.Spec.Mesh.Message

/-!
# The mesh topology (`topology.go`)

Member and link-state records, and the routes that are computed from them. What Go leaves open is
a parameter, `RangeOrder`: the order in which each `range` over a map runs, and the order in which
`sort.Slice` leaves elements that compare equal.
-/

namespace Winkyou.Mesh

/-! ## Records -/

/-- A record with its lease: `memberState` and `linkState`. -/
structure Leased (ρ : Type) where
  record : ρ
  expiresAt : Time
  isLocal : Bool
  deriving DecidableEq, Repr

abbrev MemberState := Leased MemberRecord

abbrev LinkState := Leased LinkStateAdvertisement

structure Route where
  destination : String
  nextHop : String
  hopCount : ℕ
  rtt : Duration
  path : List String
  deriving DecidableEq, Repr

structure GraphEdge where
  target : String
  rtt : Duration
  deriving DecidableEq, Repr

structure PathCost where
  hops : ℕ
  rtt : Duration
  deriving DecidableEq, Repr

structure Topology where
  localID : String
  members : GoMap MemberState
  lsas : GoMap LinkState
  routes : GoMap Route
  dataRoutes : GoMap Route

/-- The orders that Go leaves open. -/
structure RangeOrder where
  /-- the order of the keys in the `n`-th `range` over a map -/
  keys : ℕ → List String → List String
  keys_perm : ∀ n l, (keys n l).Perm l
  /-- `sort.Slice` by the target of an edge -/
  sortEdges : List GraphEdge → List GraphEdge
  sortEdges_perm : ∀ l, (sortEdges l).Perm l
  sortEdges_sorted : ∀ l, (sortEdges l).Pairwise fun e f => e.target ≤ f.target

/-! ## Costs -/

def findLink (links : List LinkStateLink) (peerID : String) : Option LinkStateLink :=
  links.find? fun link => link.peerID = peerID

def combinedRTT (left right : UInt32) : Duration :=
  if left = 0 ∧ right = 0 then millisecond
  else if left = 0 then right.toNat * millisecond
  else if right = 0 then left.toNat * millisecond
  else ((left.toNat + right.toNat) / 2 : ℕ) * millisecond

def costLess (left right : PathCost) : Bool :=
  if left.hops ≠ right.hops then left.hops < right.hops else left.rtt < right.rtt

def pathLess : List String → List String → Bool
  | l :: left, r :: right => if l ≠ r then l < r else pathLess left right
  | [], _ :: _ => true
  | _, [] => false

/-! ## The graph -/

namespace Topology

variable (o : RangeOrder) (t : Topology)

/-- One pass of the loop over the links of a record: the edge that both ends confirm. -/
def confirmedEdge (excluded : List String) (dataOnly : Bool) (origin : String)
    (link : LinkStateLink) :
    Option GraphEdge :=
  if (origin = t.localID ∧ link.peerID ∈ excluded) ∨ (link.peerID = t.localID ∧
    origin ∈ excluded) then none
  else if (t.members.lookup link.peerID).isNone then none
  else do
    let reverseState ← t.lsas.lookup link.peerID
    let reverse ← findLink reverseState.record.links origin
    if dataOnly && (link.controlOnly || reverse.controlOnly) then none
    else some ⟨link.peerID, combinedRTT link.rttMillis reverse.rttMillis⟩

/-- The edges that leave a node, in the order of its links. -/
def edgesFrom (excluded : List String) (dataOnly : Bool) (origin : String) : List GraphEdge :=
  if (t.members.lookup origin).isNone then []
  else
    match t.lsas.lookup origin with
    | none => []
    | some state => state.record.links.filterMap (t.confirmedEdge excluded dataOnly origin)

/-- `adjacency` before the lists are sorted: a node without an edge has no entry. -/
def unsortedAdjacency (excluded : List String) (dataOnly : Bool) : GoMap (List GraphEdge) :=
  AList.fill (fun origin =>
    match t.edgesFrom excluded dataOnly origin with
    | [] => none
    | edge :: edges => some (edge :: edges)) ∅ (o.keys 0 t.lsas.keys)

/-- `adjacency`, with each list of edges sorted. -/
def adjacency (excluded : List String) (dataOnly : Bool) : GoMap (List GraphEdge) :=
  let built := t.unsortedAdjacency o excluded dataOnly
  AList.fill (fun nodeID => (built.lookup nodeID).map o.sortEdges) built (o.keys 1 built.keys)

end Topology

/-! ## The search -/

structure Search where
  dist : GoMap PathCost
  paths : GoMap (List String)
  visited : List String

namespace Search

/-- `dist[id]`: the zero value when there is none. -/
def distOf (s : Search) (id : String) : PathCost := (s.dist.lookup id).getD ⟨0, 0⟩

/-- `paths[id]`. -/
def pathOf (s : Search) (id : String) : List String := (s.paths.lookup id).getD []

/-- One pass of the loop that looks for the next node. -/
def preferred (s : Search) (current candidate : String) : String :=
  if candidate ∈ s.visited then current
  else if current = "" ∨ costLess (s.distOf candidate) (s.distOf current) ∨
      (s.distOf candidate = s.distOf current ∧ candidate < current) then candidate
  else current

/-- The node that is visited next, or the empty string; `keys` is the order of `range dist`. -/
def next (s : Search) (keys : List String) : String := keys.foldl s.preferred ""

/-- One pass of the loop over the edges of the current node. -/
def relax (current : String) (s : Search) (edge : GraphEdge) : Search :=
  if edge.target ∈ s.visited then s
  else
    let candidateCost : PathCost :=
      ⟨(s.distOf current).hops + 1, int64 ((s.distOf current).rtt + edge.rtt)⟩
    let candidatePath := s.pathOf current ++ [edge.target]
    let replaces :=
      match s.dist.lookup edge.target with
      | none => true
      | some knownCost =>
        costLess candidateCost knownCost || (candidateCost = knownCost &&
          pathLess candidatePath (s.pathOf edge.target))
    if replaces then
      { s with dist := s.dist.insert edge.target candidateCost, paths := s.paths.insert edge.target candidatePath }
    else s

end Search

namespace Topology

variable (o : RangeOrder) (t : Topology)

/-- Whether the node that was just visited is passed through. -/
def expands (current : String) : Bool :=
  current = t.localID || (t.lsas.lookup current).any fun state => state.record.transitAllowed

/-- The rest of the loop once the next node is known. -/
def visit (adjacency : GoMap (List GraphEdge)) (s : Search) (current : String) : Search :=
  let s := { s with visited := current :: s.visited }
  if t.expands current then ((adjacency.lookup current).getD []).foldl (Search.relax current) s else s

/-- The loop of the search; `fuel` bounds the number of its passes. -/
def searchLoop (adjacency : GoMap (List GraphEdge)) : ℕ → Search → Search
  | 0, s => s
  | fuel + 1, s =>
    let current := s.next (o.keys (fuel + 2) s.dist.keys)
    if current = "" then s else searchLoop adjacency fuel (t.visit adjacency s current)

def initialSearch : Search :=
  { dist := (∅ : GoMap PathCost).insert t.localID ⟨0, 0⟩
    paths := (∅ : GoMap (List String)).insert t.localID [t.localID]
    visited := [] }

/-- The search. Each pass visits a node for the first time, the local node or a member. -/
def search (excluded : List String) (dataOnly : Bool) : Search :=
  t.searchLoop o (t.adjacency o excluded dataOnly) (t.members.entries.length + 2) t.initialSearch

/-- The route of a path, unless it is the local node or a path without a hop. -/
def routeOf (s : Search) (destination : String) : Option Route :=
  match s.pathOf destination with
  | first :: nextHop :: rest =>
    if destination = t.localID then none
    else some ⟨destination, nextHop, (s.distOf destination).hops, (s.distOf destination).rtt,
      first :: nextHop :: rest⟩
  | _ => none

def computeRoutesLocked (excluded : List String) (dataOnly : Bool) : GoMap Route :=
  let s := t.search o excluded dataOnly
  AList.fill (t.routeOf s) ∅ (o.keys (t.members.entries.length + 4) s.paths.keys)

def recomputeLocked : Topology :=
  { t with routes := t.computeRoutesLocked o [] false, dataRoutes := t.computeRoutesLocked o [] true }

/-! ## Queries -/

def route (destination : String) : Option Route := t.routes.lookup destination

def dataRoute (destination : String) : Option Route := t.dataRoutes.lookup destination

/-- The best route that does not use the direct link. -/
def alternateRoute (destination : String) : Option Route :=
  let destination := trimSpace destination
  if destination = "" ∨ destination = t.localID then none
  else (t.computeRoutesLocked o [destination] false).lookup destination

def nextHops : GoMap String :=
  AList.fill (fun d => (t.routes.lookup d).map Route.nextHop) ∅ t.routes.keys

def dataNextHops : GoMap String :=
  AList.fill (fun d => (t.dataRoutes.lookup d).map Route.nextHop) ∅ t.dataRoutes.keys

end Topology

/-! ## Updates -/

inductive TopologyErr
  | localIDRequired
  /-- `local <kind> id <got> does not match <want>` -/
  | localIDMismatch (kind got want : String)
  | localRevisionRequired (kind : String)
  | invalidRecord (kind : String)
  /-- `ErrRevisionConflict`, wrapped with the record. -/
  | revisionConflict (kind nodeID : String) (revision : ℕ)
  deriving DecidableEq, Repr

def memberRecordsEqual (left right : MemberRecord) : Bool :=
  left.nodeID = right.nodeID && left.revision = right.revision && left.leaseMillis =
    right.leaseMillis &&
    left.virtualIP = right.virtualIP && left.natProfile = right.natProfile && left.endpoints =
      right.endpoints &&
    left.capabilities = right.capabilities

def linkStatesEqual (left right : LinkStateAdvertisement) : Bool :=
  left.nodeID = right.nodeID && left.revision = right.revision && left.leaseMillis =
    right.leaseMillis && left.transitAllowed = right.transitAllowed && left.links = right.links

/-- One of the two families of records, and the table that holds them. -/
structure Family (ρ : Type) where
  /-- how errors name the local record -/
  localKind : String
  /-- how the error of an invalid record names it -/
  recordKind : String
  /-- how a conflict names it -/
  conflictKind : String
  nodeID : ρ → String
  revision : ρ → ℕ
  leaseMillis : ρ → ℕ
  equal : ρ → ρ → Bool
  table : Topology → GoMap (Leased ρ)
  setTable : Topology → GoMap (Leased ρ) → Topology

def memberFamily : Family MemberRecord where
  localKind := "member"
  recordKind := "member record"
  conflictKind := "member"
  nodeID := MemberRecord.nodeID
  revision := MemberRecord.revision
  leaseMillis := MemberRecord.leaseMillis
  equal := memberRecordsEqual
  table := Topology.members
  setTable t members := { t with members := members }

def linkStateFamily : Family LinkStateAdvertisement where
  localKind := "link-state"
  recordKind := "link-state record"
  conflictKind := "link state"
  nodeID := LinkStateAdvertisement.nodeID
  revision := LinkStateAdvertisement.revision
  leaseMillis := LinkStateAdvertisement.leaseMillis
  equal := linkStatesEqual
  table := Topology.lsas
  setTable t lsas := { t with lsas := lsas }

/-- What happens to a record that arrives. -/
inductive Verdict
  /-- a local record or a newer one is stored -/
  | ignored
  | conflict
  | stored (changed : Bool)
  deriving DecidableEq, Repr

namespace Family

variable {ρ : Type} (f : Family ρ) (o : RangeOrder) (t : Topology)

/-- What happens to a record that arrives when `current` is stored for its node. -/
def verdict (current : Option (Leased ρ)) (record : ρ) : Verdict :=
  match current with
  | none => .stored true
  | some current =>
    if current.isLocal then .ignored
    else if f.revision record < f.revision current.record then .ignored
    else if f.revision record = f.revision current.record ∧
      ¬ f.equal current.record record then .conflict
    else .stored (f.revision record > f.revision current.record || !f.equal current.record record)

/-- `SetLocalMember` and `SetLocalLinkState`. -/
def setLocal (record : ρ) : Except TopologyErr Topology := do
  .failIf (f.nodeID record ≠ t.localID) (.localIDMismatch f.localKind (f.nodeID record) t.localID)
  .failIf (f.revision record = 0) (.localRevisionRequired f.localKind)
  return (f.setTable t ((f.table t).insert t.localID ⟨record, Time.zero, true⟩)).recomputeLocked o

/-- The lease of a record that arrives; `now` is the clock when it has no time of its own. -/
def expiry (record : ρ) (receivedAt now : Time) : Time :=
  (if receivedAt.isZero then now else receivedAt).add (f.leaseMillis record * millisecond)

/-- `ApplyMember` and `ApplyLinkState`. -/
def apply (record : ρ) (receivedAt now : Time) : Topology × Except TopologyErr Bool :=
  if trimSpace (f.nodeID record) = "" ∨ f.revision record = 0 ∨ f.leaseMillis record = 0 then
    (t, .error (.invalidRecord f.recordKind))
  else if f.nodeID record = t.localID then (t, .ok false)
  else
    match f.verdict ((f.table t).lookup (f.nodeID record)) record with
    | .ignored => (t, .ok false)
    | .conflict => (t, .error (.revisionConflict f.conflictKind (f.nodeID record) (f.revision record)))
    | .stored changed =>
      let t := f.setTable t ((f.table t).insert (f.nodeID record) ⟨record,
        f.expiry record receivedAt now, false⟩)
      (if changed then t.recomputeLocked o else t, .ok changed)

end Family

def newTopology (localID : String) : Except TopologyErr Topology := do
  .failIf (trimSpace localID = "") .localIDRequired
  return { localID := trimSpace localID, members := ∅, lsas := ∅, routes := ∅, dataRoutes := ∅ }

namespace Topology

variable (o : RangeOrder) (t : Topology)

def setLocalMember (record : MemberRecord) : Except TopologyErr Topology :=
  memberFamily.setLocal o t record

def setLocalLinkState (record : LinkStateAdvertisement) : Except TopologyErr Topology :=
  linkStateFamily.setLocal o t record

def applyMember (record : MemberRecord) (receivedAt now : Time) :
    Topology × Except TopologyErr Bool :=
  memberFamily.apply o t record receivedAt now

def applyLinkState (record : LinkStateAdvertisement) (receivedAt now : Time) :
    Topology × Except TopologyErr Bool :=
  linkStateFamily.apply o t record receivedAt now

/-- The lease of a remote record has run out. -/
def leaseOver {ρ : Type} (now : Time) (state : Leased ρ) : Bool :=
  !state.isLocal && !state.expiresAt.after now

/-- The loop over the members in `Expire`: an expired member takes its link state with it. -/
def expireMembers (now : Time) : List String → Topology → Topology
  | [], t => t
  | id :: ids, t =>
    if (t.members.lookup id).any (leaseOver now) then
      expireMembers now ids { t with members := t.members.erase id, lsas := t.lsas.erase id }
    else expireMembers now ids t

/-- The loop over the link states in `Expire`. -/
def expireLinkStates (now : Time) : List String → Topology → Topology
  | [], t => t
  | id :: ids, t =>
    if (t.lsas.lookup id).any (leaseOver now) then expireLinkStates now ids
      { t with lsas := t.lsas.erase id }
    else expireLinkStates now ids t

/-- `Expire`; `clock` is the clock when `now` is the zero time. -/
def expire (now clock : Time) : Topology × Bool :=
  let now := if now.isZero then clock else now
  let kept := expireMembers now (o.keys 0 t.members.keys) t
  let next := expireLinkStates now (o.keys 1 kept.lsas.keys) kept
  let changed := t.members.keys.any (fun id => (t.members.lookup id).any (leaseOver now)) ||
    kept.lsas.keys.any fun id => (kept.lsas.lookup id).any (leaseOver now)
  (if changed then next.recomputeLocked o else next, changed)

end Topology

end Winkyou.Mesh
