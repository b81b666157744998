import Winkyou.Proof.Mesh.Convergence
import Winkyou.Proof.Mesh.Forwarding
import Winkyou.Proof.Text
import Winkyou.Spec.Mesh.Node

/-!
# A node whose calls have returned

`node_consistent`: however the operations on neighbors, their callbacks, the records that arrive and
the calls of `syncRoutes` interleave, a node in which none of them is under way has the links of its
advertised neighbors, has these in its topology, and forwards along the topology's next hops.

* Three invariants carry the proof, each kept by every section of every call. `LinksOK`: a link that
  does not match its neighbor has an event that waits. `InstalledOK`: the topology has the local
  record, unless a callback is about to put it there. `TablesOK`: tables that do not match have a
  `syncRoutes` that has not begun.
* `LogOK`: the links change only together with the revision, so that one revision has one content.
-/

namespace Winkyou.Mesh

open List Winkyou.Mesh.Topology Except Option Bool Function AList
open Option (map_eq_some_iff some)
open NodeRun (step)
open AList (lookup_isSome lookup_empty)

variable {t t' : Topology} {o o' : RangeOrder} {d : String}
  {p : String} {neighbor : Option NeighborInfo}

/-! ## Next hops are members -/

/-- On every path that was found, the nodes after the first are members. -/
def PathsInMembers (t : Topology) (label : String → Option Label) : Prop :=
  ∀ id l, label id = some l → ∀ x ∈ l.2.tail, x ∈ t.members.keys

theorem mem_tail_snoc {p : List String} {v x : String} (h : x ∈ (p ++ [v]).tail) :
    x ∈ p.tail ∨ x = v := by
  cases p with
  | nil => exact absurd h not_mem_nil
  | cons a p => simpa using h

theorem relaxLabel_members {label : String → Option Label} {l : Label} {visited : List String}
    {edge : GraphEdge} (h : PathsInMembers t label) (hl : ∀ x ∈ l.2.tail, x ∈ t.members.keys)
    (he : edge.target ∈ t.members.keys) : PathsInMembers t (relaxLabel visited l label edge) := by
  intro id l' hl' x hx
  unfold relaxLabel at hl'
  split at hl'
  · exact h id l' hl' x hx
  rcases eq_or_ne id edge.target with rfl | hne
  swap
  · rw [update_of_ne hne] at hl'
    exact h id l' hl' x hx
  rw [update_self, some_inj] at hl'
  have hof : ∀ x ∈ (offer l edge).2.tail, x ∈ t.members.keys := by
    intro x hx
    rcases mem_tail_snoc hx with hx | rfl
    · exact hl x hx
    · exact he
  -- the label is the one that was offered or the one that was known
  cases hkn : label edge.target with
  | none =>
    rw [hkn, improve] at hl'
    exact hof x (hl' ▸ hx)
  | some known =>
    rw [hkn, improve] at hl'
    split at hl'
    · exact hof x (hl' ▸ hx)
    · exact h _ _ hkn x (hl' ▸ hx)

theorem search_members (hne : "" ∉ t.nodes) (excluded : List String) (dataOnly : Bool) :
    PathsInMembers t (t.search o excluded dataOnly).label := by
  refine (searchLoop_invariant (P := fun s =>
    PathsInMembers t s.label) ?_ _ _ (initialSearch_ok hne) ?_).2
  · intro s current hs hP hle
    obtain ⟨l, hl⟩ := isSome_iff_exists.1 (hs.paired.mem_keys.1 hle.1.1)
    obtain ⟨-, -, hla⟩ := @visit_label s current o t excluded dataOnly l hs.paired hl
    rw [hla, visitLabel]
    split
    · exact List.foldlRecOn (motive := PathsInMembers t) _ _ hP fun _ h _ he =>
        relaxLabel_members h (hP current l hl) (edgesFrom_target he)
    · exact hP
  · intro id l hl x hx
    rw [initialSearch_label] at hl
    rcases eq_or_ne id t.localID with rfl | hid
    · rw [update_self, some_inj] at hl
      rw [← hl] at hx
      exact absurd hx not_mem_nil
    · rw [update_of_ne hid] at hl
      cases hl

/-- **A computed route leads to a member over a member.** -/
theorem computeRoutesLocked_members (hne : "" ∉ t.nodes) {excluded : List String} {dataOnly : Bool}
    {r : Route} (h : (t.computeRoutesLocked o excluded dataOnly).lookup d = some r) :
    d ≠ t.localID ∧ d ∈ t.members ∧ r.nextHop ∈ t.members := by
  rw [lookup_computeRoutesLocked hne] at h
  obtain ⟨hok, -⟩ := @search_done o t excluded dataOnly hne
  rcases hl : (t.search o excluded dataOnly).label d with _ | l
  · rw [hl] at h
    cases h
  obtain ⟨cost, path⟩ := l
  have hpa := search_members (o := o) hne excluded dataOnly d _ hl
  rw [hl] at h
  match path, h, hpa with
  | first :: nextHop :: rest, h, hpa =>
    simp only [routeOfLabel] at h
    split at h
    · cases h
    rename_i hlo
    have hkey : d ∈ (t.search o excluded dataOnly).dist.keys := hok.paired.mem_keys.2 (by rw [hl]; rfl)
    refine ⟨hlo, ?_, ?_⟩
    · rcases mem_cons.1 (hok.nodes d hkey) with heq | hmem
      · exact absurd heq hlo
      · exact AList.mem_keys.2 hmem
    · rw [← some.inj h]
      exact AList.mem_keys.2 (hpa nextHop mem_cons_self)

theorem nextHops_trimmed (hok : TopologyOK t) (htr : ∀ id ∈ t.members, trimSpace id = id)
    {v : String} (h : t.nextHops.lookup d = some v ∨ t.dataNextHops.lookup d = some v) :
    trimSpace d = d ∧ d ≠ "" ∧ trimSpace v = v ∧ v ≠ "" ∧ d ≠ t.localID := by
  have hne := nonempty_nodes hok.localID hok.members
  have hmem : ∀ id ∈ t.members, trimSpace id = id ∧ id ≠ "" := by
    intro id hid
    exact ⟨htr id hid, fun heq => hne (heq ▸ mem_cons_of_mem _ (AList.mem_keys.1 hid))⟩
  have hro : ∃ dataOnly r, (t.computeRoutesLocked insertionOrder [] dataOnly).lookup d = some r ∧
      r.nextHop = v := by
    rw [(lookup_nextHops t d).1, (lookup_nextHops t d).2] at h
    rcases h with h | h
    · obtain ⟨r, hr, hv⟩ := map_eq_some_iff.1 h
      exact ⟨false, r, hok.tables.routes insertionOrder d ▸ hr, hv⟩
    · obtain ⟨r, hr, hv⟩ := map_eq_some_iff.1 h
      exact ⟨true, r, hok.tables.dataRoutes insertionOrder d ▸ hr, hv⟩
  obtain ⟨dataOnly, r, hr, rfl⟩ := hro
  obtain ⟨hlo, hd, hv⟩ := computeRoutesLocked_members hne hr
  exact ⟨(hmem d hd).1, (hmem d hd).2, (hmem _ hv).1, (hmem _ hv).2, hlo⟩

/-! ## Reading maps -/

theorem lookup_keepCapable (r : Router) (dataRoutes : GoMap String) {keys : List String}
    (hke : keys.Perm dataRoutes.keys) (d : String) :
    (keepCapable r dataRoutes keys).lookup d = (dataRoutes.lookup d).filter r.dataCapability := by
  have hfo : ∀ (keys : List String) (kept : GoMap String), (keys.foldl (fun kept x =>
        if r.dataCapability ((dataRoutes.lookup x).getD "") then kept
          else kept.erase x) kept).lookup d =
        if d ∈ keys ∧ r.dataCapability ((dataRoutes.lookup d).getD "") = false then none
          else kept.lookup d := by
    intro keys
    induction keys with
    | nil => exact fun kept => by simp
    | cons x keys ih =>
      intro kept
      rw [foldl_cons, ih]
      by_cases hcap : r.dataCapability ((dataRoutes.lookup x).getD "") = true <;>
        rcases eq_or_ne d x with rfl | hx <;> simp [*]
  rw [keepCapable, hfo]
  rcases hd : dataRoutes.lookup d with _ | v
  · simp
  have hmem : d ∈ keys := by
    rw [hke.mem_iff, ← AList.mem_keys, ← lookup_isSome, hd]
    rfl
  by_cases hcap : r.dataCapability v = true
  · simp [hcap, filter_some]
  · simp [hmem, hcap, filter_some]

/-- The links of a node are kept under their peers, with the default round-trip time. -/
def Node.Keyed (n : Node) : Prop :=
  ∀ p link, n.links.lookup p = some link → link.peerID = p ∧ link.rttMillis = defaultLinkRTTMillis

theorem mem_localLinks {n : Node} (hke : n.Keyed) (o : RangeOrder) (link : LinkStateLink) :
    link ∈ (n.localLinkStateLocked o).links ↔ n.links.lookup link.peerID = some link := by
  unfold Node.localLinkStateLocked
  rw [(perm_insertionSort _ _).mem_iff, mem_filterMap]
  constructor
  · rintro ⟨p, -, hp⟩
    rwa [(hke p link hp).1]
  · intro h
    refine ⟨link.peerID, ?_, h⟩
    rw [(o.keys_perm 0 _).mem_iff, ← AList.mem_keys, ← lookup_isSome, h]
    rfl

/-- **The local record does not depend on the order of the map.** -/
theorem localLinkState_order {n : Node} (hke : n.Keyed) (o o' : RangeOrder) :
    n.localLinkStateLocked o = n.localLinkStateLocked o' := by
  have hli : (n.localLinkStateLocked o).links = (n.localLinkStateLocked o').links := by
    have hpe : (n.localLinkStateLocked o).links.Perm (n.localLinkStateLocked o').links := by
      refine (perm_insertionSort _ _).trans (List.Perm.trans ?_ (perm_insertionSort _ _).symm)
      exact List.Perm.filterMap _ ((o.keys_perm 0 _).trans (o'.keys_perm 0 _).symm)
    refine hpe.eq_of_pairwise ?_ (pairwise_insertionSort _ _) (pairwise_insertionSort _ _)
    intro a b ha hb hab hba
    rw [mem_localLinks hke] at ha hb
    rw [le_antisymm hab hba, hb] at ha
    exact (some.inj ha).symm
  exact congrArg (fun links => { n.localLinkStateLocked o with links }) hli

/-! ## What the operations do -/

/-- What an operation on one neighbor does to a router. -/
structure NeighborStep (r r' : Router) (peerID : String) : Prop where
  nodeID : r'.nodeID = r.nodeID
  closed : r'.closed = r.closed
  peer : trimSpace peerID = peerID ∧ peerID ≠ ""
  others : ∀ q, q ≠ peerID → r'.neighbors.lookup q = r.neighbors.lookup q

variable {r r' : Router}

theorem NeighborStep.mem (h : NeighborStep r r' p) {q : String} (hq : q ∈ r'.neighbors) :
    q ∈ r.neighbors ∨ q = p := by
  rcases eq_or_ne q p with rfl | hne
  · exact .inr rfl
  · refine .inl (lookup_isSome.1 ?_)
    rw [← h.others q hne]
    exact lookup_isSome.2 hq

theorem addNeighbor_step {peerID : String} {entry : NeighborEntry}
    (h : r.addNeighborWithAdvertisement peerID entry = .ok (r', p)) : NeighborStep r r' p := by
  simp only [Router.addNeighborWithAdvertisement, bind_ok_iff, failIf_ok_iff] at h
  obtain ⟨_, hne, _, -, _, -, _, -, hret⟩ := h
  cases hret
  exact ⟨rfl, rfl, ⟨trimSpace_idem peerID, hne⟩, fun q hq => lookup_insert_ne hq⟩

theorem attached_mem {handle : NeighborHandle} (h : r.attached handle = true) :
    handle.peerID ∈ r.neighbors := by
  simp only [Router.attached, and_eq_true] at h
  obtain ⟨entry, hen, -⟩ := (any_eq_true _ _).1 h.2
  rw [← lookup_isSome, hen]
  rfl

theorem promote_step {handle : NeighborHandle} (hpe : ∀ q ∈ r.neighbors, trimSpace q = q ∧ q ≠ "")
    (h : r.promoteNeighborHandle handle = some (r', emits)) :
    emits = false ∧ r' = r ∨ emits = true ∧ NeighborStep r r' handle.peerID := by
  unfold Router.promoteNeighborHandle at h
  split at h
  · rename_i hatt
    obtain ⟨entry, -, hen⟩ := map_eq_some_iff.1 h
    split at hen
    · cases hen
      exact .inl ⟨rfl, rfl⟩
    · cases hen
      exact .inr ⟨rfl, rfl, rfl, hpe _ (attached_mem hatt), fun q hq => lookup_insert_ne hq⟩
  · cases h

theorem detach_step (hpe : trimSpace p = p ∧ p ≠ "") : NeighborStep r (r.detach p) p :=
  ⟨rfl, rfl, hpe, fun _ hq => lookup_erase_ne hq⟩

/-- What a record or an expiry does to the topology of a node. -/
structure RecordStep (t t' : Topology) (changed : Bool) : Prop where
  ok : TopologyOK t'
  localID : t'.localID = t.localID
  localRecord : t'.lsas.lookup t.localID = t.lsas.lookup t.localID
  tables : changed = false → t'.routes = t.routes ∧ t'.dataRoutes = t.dataRoutes

/-- A record that arrives, when it can be stored without harm. -/
theorem apply_step {ρ : Type} {f : Family ρ} (hf : f.Lawful) (hok : TopologyOK t) {record : ρ}
    {receivedAt now : Time} (hlo : f.Acceptable t.localID record →
      (f.store t record receivedAt now).lsas.lookup t.localID = t.lsas.lookup t.localID) :
    RecordStep t (f.apply o t record receivedAt now).1
      ((f.apply o t record receivedAt now).2.toOption.getD false) where
  ok := hok.apply hf record receivedAt now
  localID := apply_localID hf record receivedAt now
  localRecord := apply_keeps hf (P := fun t' => t'.lsas.lookup t.localID = t.lsas.lookup t.localID)
    rfl hlo fun _ h => h
  tables := by
    rcases apply_cases hf o t record receivedAt now with ⟨hsa, -⟩ | ⟨-, -, changed, hap, -⟩
    · rw [hsa]
      exact fun _ => ⟨rfl, rfl⟩
    · rw [hap]
      rintro rfl
      exact hf.routes_setTable t _

theorem applyMember_step (hok : TopologyOK t) (record : MemberRecord) (receivedAt now : Time) :
    RecordStep t (t.applyMember o record receivedAt now).1
      ((t.applyMember o record receivedAt now).2.toOption.getD false) :=
  apply_step memberFamily_lawful hok fun _ => rfl

theorem applyLinkState_step (hok : TopologyOK t) (record : LinkStateAdvertisement)
    (receivedAt now : Time) : RecordStep t (t.applyLinkState o record receivedAt now).1
      ((t.applyLinkState o record receivedAt now).2.toOption.getD false) :=
  apply_step linkStateFamily_lawful hok fun hacc => lookup_insert_ne hacc.remote.symm

theorem expire_step (hok : TopologyOK t) (now clock : Time) :
    RecordStep t (t.expire o now clock).1 (t.expire o now clock).2 := by
  have hexpired := hok.expire (o := o) now clock
  rcases expire_cases o t now clock with ⟨t', hres, heq⟩ | heq
  · rw [heq] at hexpired ⊢
    exact ⟨hexpired, hres.localID, hres.localRecord hok.records, nofun⟩
  · rw [heq] at hexpired ⊢
    exact ⟨hexpired, rfl, rfl, fun _ => ⟨rfl, rfl⟩⟩

/-! ## One section of a call -/

/-- A sound node: its parts agree on its id, its router runs, and the ids of neighbors are
trimmed. -/
structure NodeOK (s : NodeRun) : Prop where
  nodeID : s.node.topology.localID = s.node.nodeID ∧ s.node.router.nodeID = s.node.nodeID
  running : s.node.router.closed = false
  revision : s.node.lsaRevision ≠ 0
  topology : TopologyOK s.node.topology
  neighbors : ∀ p ∈ s.node.router.neighbors, trimSpace p = p ∧ p ≠ ""
  events : ∀ p ∈ s.events, trimSpace p = p ∧ p ≠ ""
  read : ∀ p neighbor, s.change = some (.read p neighbor) → trimSpace p = p
  state : ∀ state started, s.change = some (.changed state started) →
    state.nodeID = s.node.nodeID ∧ state.revision = s.node.lsaRevision
  keyed : s.node.Keyed

/-- The link of a neighbor, when it is advertised. -/
def linkOf (p : String) (neighbor : Option NeighborInfo) : Option LinkStateLink :=
  neighbor.bind fun info => if info.advertised then some ⟨p, defaultLinkRTTMillis,
    !info.dataCapable⟩ else none

/-- The node after the links were looked at for one peer. -/
structure Noted (n n' : Node) (p : String) (neighbor : Option NeighborInfo) : Prop where
  links : ∀ q, n'.links.lookup q = if q = p then linkOf p neighbor else n.links.lookup q
  router : n'.router = n.router
  topology : n'.topology = n.topology
  nodeID : n'.nodeID = n.nodeID

theorem noted_keyed {n n' : Node} (h : Noted n n' p neighbor) (hke : n.Keyed) : n'.Keyed := by
  intro q link hli
  rw [h.links] at hli
  split at hli
  · rename_i heq
    obtain ⟨info, -, hin⟩ := bind_eq_some_iff.1 hli
    split at hin <;> cases hin
    exact ⟨heq.symm, rfl⟩
  · exact hke q link hli

theorem linkOf_eq (p : String) (neighbor : Option NeighborInfo) :
    linkOf p neighbor =
      if neighbor.any NeighborInfo.advertised then
        some ⟨p, defaultLinkRTTMillis, neighbor.any NeighborInfo.advertised &&
          !neighbor.any NeighborInfo.dataCapable⟩
      else none := by
  cases neighbor with
  | none => rfl
  | some info =>
    by_cases h : info.advertised = true
    · simp [linkOf, h]
    · simp [linkOf, h]

/-- What the section under `mu` does: the link of the peer is the one of the neighbor that was read;
either nothing of the local record changed, or the revision is a new one. -/
theorem noteNeighbor_spec {n n' : Node} {changed : Option LinkStateAdvertisement} (hke : n.Keyed)
    (hwr : n.lsaRevision + 1 < 2 ^ 64) (h : n.noteNeighbor o p neighbor = (n', changed)) :
    Noted n n' p neighbor ∧
      (changed = none ∧ (∀ o', n'.localLinkStateLocked o' = n.localLinkStateLocked o') ∧
          n'.lsaRevision = n.lsaRevision ∨
        changed = some (n'.localLinkStateLocked o) ∧ n'.lsaRevision = n.lsaRevision + 1) := by
  unfold Node.noteNeighbor at h
  dsimp only at h
  split at h <;> cases h
  · refine ⟨⟨?_, rfl, rfl, rfl⟩, .inr ⟨rfl, Nat.mod_eq_of_lt hwr⟩⟩
    intro q
    rw [linkOf_eq]
    by_cases hli : neighbor.any NeighborInfo.advertised = true
    · simp only [hli, if_true]
      rcases eq_or_ne q p with rfl | hq
      · rw [if_pos rfl, lookup_insert]
      · rw [if_neg hq, lookup_insert_ne hq]
    · simp only [hli, false_eq_true, if_false]
      rcases eq_or_ne q p with rfl | hq
      · rw [if_pos rfl, lookup_erase]
      · rw [if_neg hq, lookup_erase_ne hq]
  · rename_i hsa
    refine ⟨⟨?_, rfl, rfl, rfl⟩, .inl ⟨rfl, fun _ => rfl, rfl⟩⟩
    intro q
    show n.links.lookup q = if q = p then linkOf p neighbor else n.links.lookup q
    split
    swap
    · rfl
    rename_i hq
    rw [hq, linkOf_eq]
    -- the link is there as it should be, and with the same capability
    rw [not_eq_true, or_eq_false_iff, bne_eq_false_iff_eq] at hsa
    obtain ⟨hlin, hre⟩ := hsa
    by_cases hli : neighbor.any NeighborInfo.advertised = true
    · rw [if_pos hli]
      obtain ⟨link, hlo⟩ := isSome_iff_exists.1 (hlin.symm.trans hli)
      rw [hli, hlo] at hre
      simp only [Bool.true_and, or_eq_false_iff, any_some, bne_eq_false_iff_eq] at hre
      obtain ⟨hpe, hrtt⟩ := hke p link hlo
      rw [hlo, hli, Bool.true_and, ← hre.2, ← hpe, ← hrtt]
    · rw [if_neg hli]
      rw [not_eq_true] at hli
      rw [hli] at hlin
      exact not_isSome_iff_eq_none.1 (by rw [← hlin]; exact false_ne_true)

/-- A router with the tables that `syncRoutes` has read. -/
def Router.withTables (r : Router) (o : RangeOrder) (routes dataRoutes : GoMap String) : Router :=
  { r with
    routes := Router.normalizedNextHops r.nodeID routes (o.keys 0 routes.keys)
    dataRoutes := Router.normalizedNextHops r.nodeID dataRoutes (o.keys 1 dataRoutes.keys)
    dataRoutesAuthoritative := true }

/-- **What one section can do**, by the kind of call it belongs to. -/
inductive Moves (s : NodeRun) : NodeRun → Prop
  | neighbor {router peerID sessions} (h : NeighborStep s.node.router router peerID) :
      Moves s { s.neighborChanged router peerID with sessions }
  | records {topology changed} (h : RecordStep s.node.topology topology changed) :
      Moves s (s.recordsChanged topology changed)
  | callback {p rest} (hidle : s.change = none) (hp : p ∈ s.events) (hrest : rest ⊆ s.events)
      (hkept : ∀ q ∈ s.events, q ≠ p → q ∈ rest) :
      Moves s { s with events := rest, change := some (.read p (s.node.router.neighbor p)) }
  | noteSame {p neighbor node} (hread : s.change = some (.read p neighbor))
      (hnoted : Noted s.node node p neighbor)
      (hlocal : ∀ o, node.localLinkStateLocked o = s.node.localLinkStateLocked o)
      (hrevision : node.lsaRevision = s.node.lsaRevision) :
      Moves s { s with node, change := some (.syncing false none) }
  | noteChanged {p neighbor node} {o : RangeOrder} (hread : s.change = some (.read p neighbor))
      (hnoted : Noted s.node node p neighbor) (hrevision : node.lsaRevision = s.node.lsaRevision + 1) :
      Moves s { s with node, change := some (.changed (node.localLinkStateLocked o) node.started) }
  | install {state started topology} {o : RangeOrder}
      (hchanged : s.change = some (.changed state started))
      (hset : s.node.topology.setLocalLinkState o state = .ok topology) :
      Moves s { s with
        node := { s.node with topology }
        change := some (.syncing false (if started then some state else none)) }
  | syncRecord (hfree : s.sync = none) :
      Moves s { s with syncs := s.syncs - 1, sync := some (.record, .routes s.node.topology.nextHops) }
  | syncChange {state} (hfree : s.sync = none) (hcall : s.change = some (.syncing false state)) :
      Moves s { s with
        change := some (.syncing true state)
        sync := some (.change, .routes s.node.topology.nextHops) }
  | readDataRoutes {caller routes} (hsync : s.sync = some (caller, .routes routes)) :
      Moves s { s with sync := some (caller, .dataRoutes routes s.node.topology.dataNextHops) }
  | readCapabilities {caller routes dataRoutes} {o : RangeOrder}
      (hsync : s.sync = some (caller, .dataRoutes routes dataRoutes)) :
      Moves s { s with
        sync := some (caller, .capabilities routes
          (keepCapable s.node.router dataRoutes (o.keys 2 dataRoutes.keys))) }
  | replace {caller routes dataRoutes} {o : RangeOrder}
      (hsync : s.sync = some (caller, .capabilities routes dataRoutes)) :
      Moves s { s with node := { s.node with router := s.node.router.withTables o routes dataRoutes }, sync := none }
  | replaceLast {caller routes dataRoutes state} {o : RangeOrder}
      (hsync : s.sync = some (caller, .capabilities routes dataRoutes)) (hcall : s.change =
        some (.syncing true state)) :
      Moves s { s with
        node := { s.node with router := s.node.router.withTables o routes dataRoutes }
        change := none
        sync := none
        outbox := s.outbox ++ state.toList }
  | started {started} : Moves s { s with node := { s.node with started } }
  | publish {o : RangeOrder} : Moves s { s with outbox := s.outbox ++ [s.node.localLinkStateLocked o] }
  | send {state outbox} (hstate : state ∈ s.outbox) (hrest : outbox ⊆ s.outbox) :
      Moves s { s with outbox, published := s.published ++ [state] }
  | stay : Moves s s

variable {s s' : NodeRun}

theorem replaceRouteTables_ok (hop : r.closed = false) (o : RangeOrder)
    (routes dataRoutes : GoMap String) :
    r.replaceRouteTables o routes dataRoutes = .ok (r.withTables o routes dataRoutes) := by
  have hpa : failIf (r.closed = true) RouterErr.closed = .ok () := by
    rw [hop]
    rfl
  unfold Router.replaceRouteTables
  rw [hpa]
  rfl

theorem mem_eraseIdx_of_ne {α : Type*} {l : List α} {i : ℕ} {a b : α} (ha : l[i]? = some a)
    (hb : b ∈ l) (hne : b ≠ a) : b ∈ l.eraseIdx i := by
  rw [mem_eraseIdx_iff_getElem?]
  obtain ⟨j, hj⟩ := List.getElem?_of_mem hb
  refine ⟨j, ?_, hj⟩
  rintro rfl
  rw [ha] at hj
  exact hne (some.inj hj).symm

/-- **Every action of a sound node is one of these sections.** -/
theorem step_moves (hok : NodeOK s) {a : NodeAction} (hreg : s.Regular a)
    (hst : s.step a = some s') : Moves s s' := by
  cases a with
  | attach peerID kind dataCapable advertised =>
    simp only [step, NodeRun.attach] at hst
    split at hst <;> cases hst
    rename_i router p hadd
    exact .neighbor (addNeighbor_step hadd)
  | promote handle =>
    obtain ⟨⟨router, emits⟩, hrou, hs'⟩ := map_eq_some_iff.1 hst
    rcases promote_step hok.neighbors hrou with ⟨rfl, rfl⟩ | ⟨rfl, h⟩
    · rw [← hs']
      exact .stay
    · rw [← hs']
      exact .neighbor h
  | detach handle =>
    obtain ⟨router, hrou, rfl⟩ := map_eq_some_iff.1 hst
    unfold Router.detachNeighborHandle at hrou
    split at hrou
    · rename_i hatt
      rw [← some.inj hrou]
      exact .neighbor (detach_step (hok.neighbors _ (attached_mem hatt)))
    · cases hrou
  | remove peerID =>
    simp only [step, NodeRun.remove] at hst
    split at hst <;> cases hst
    rename_i router hrem
    simp only [Router.removeNeighbor, bind_ok_iff, failIf_ok_iff, Decidable.not_not] at hrem
    obtain ⟨_, -, _, hmem, hret⟩ := hrem
    cases hret
    exact .neighbor (detach_step (hok.neighbors _ hmem))
  | callback index =>
    simp only [step, NodeRun.callback] at hst
    split at hst
    · rename_i p hidle hp
      have hmem : p ∈ s.events := mem_of_getElem? hp
      rw [if_neg] at hst
      · cases hst
        exact .callback hidle hmem (eraseIdx_subset) fun q hq hne => mem_eraseIdx_of_ne hp hq hne
      · rw [(hok.events p hmem).1]
        exact (hok.events p hmem).2
    · cases hst
  | note o =>
    simp only [step, NodeRun.note] at hst
    split at hst
    swap
    · cases hst
    rename_i p neighbor hre
    split at hst <;> cases hst
    · rename_i hnote
      obtain ⟨hno, ⟨-, hlo, hrev⟩ | ⟨⟨⟩, -⟩⟩ := noteNeighbor_spec hok.keyed hreg hnote
      exact .noteSame hre hno hlo hrev
    · rename_i hnote
      obtain ⟨hno, ⟨⟨⟩, -⟩ | ⟨⟨⟩, hrev⟩⟩ := noteNeighbor_spec hok.keyed hreg hnote
      exact .noteChanged hre hno hrev
  | setLocalLinkState o =>
    simp only [step, NodeRun.setLocalLinkState] at hst
    split at hst
    swap
    · cases hst
    rename_i state started hcha
    split at hst
    · rename_i topology hset
      cases hst
      exact .install hcha hset
    · -- the topology takes the record of its own node
      rename_i e hset
      obtain ⟨hid, hrev⟩ := hok.state state started hcha
      have hid' : state.nodeID = s.node.topology.localID := hid.trans hok.nodeID.1.symm
      have hrev' : state.revision ≠ 0 := hrev ▸ hok.revision
      simp only [setLocalLinkState, Family.setLocal, linkStateFamily, hid', hrev', failIf,
        ne_eq, not_true_eq_false, if_false] at hset
      cases hset
  | applyMember o record now =>
    cases hst
    exact .records (applyMember_step hok.topology record now now)
  | applyLinkState o record now =>
    cases hst
    exact .records (applyLinkState_step hok.topology record now now)
  | expire o now =>
    cases hst
    exact .records (expire_step hok.topology now now)
  | syncRoutes caller =>
    simp only [step, NodeRun.syncRoutes] at hst
    split at hst
    · cases hst
    · rename_i hfr
      split at hst <;> cases hst
      exact .syncRecord hfr
    · rename_i hfr
      split at hst <;> cases hst
      rename_i state hcall
      exact .syncChange hfr hcall
  | readDataRoutes =>
    simp only [step, NodeRun.readDataRoutes] at hst
    split at hst <;> cases hst
    rename_i caller routes hsy
    exact .readDataRoutes hsy
  | readCapabilities o =>
    simp only [step, NodeRun.readCapabilities] at hst
    split at hst <;> cases hst
    rename_i caller routes dataRoutes hsy
    exact .readCapabilities hsy
  | replaceRouteTables o =>
    simp only [step, NodeRun.replaceRouteTables] at hst
    split at hst
    · rename_i caller routes dataRoutes hsy
      rw [replaceRouteTables_ok hok.running] at hst
      cases hst
      -- the callback that made the call ends with it
      unfold NodeRun.synced
      split
      · rename_i state hcall
        exact .replaceLast hsy hcall
      · exact .replace hsy
    · cases hst
  | start | rollbackStart =>
    cases hst
    exact .started
  | publishLinkState o =>
    cases hst
    exact .publish
  | send index =>
    obtain ⟨state, hsta, rfl⟩ := map_eq_some_iff.1 hst
    exact .send (mem_of_getElem? hsta) eraseIdx_subset

/-! ## What every section keeps -/

theorem NodeOK.noted (h : NodeOK s) {node : Node} {change : Option Change}
    (hno : Noted s.node node p neighbor) (hrev : node.lsaRevision ≠ 0)
    (hre : ∀ q neighbor, change = some (.read q neighbor) → trimSpace q = q)
    (hst : ∀ state started, change = some (.changed state started) → state.nodeID = node.nodeID ∧
      state.revision = node.lsaRevision) :
    NodeOK { s with node, change } := by
  refine { h with
    nodeID := ?_, running := ?_, revision := hrev, topology := ?_, neighbors := ?_
    read := hre, state := hst, keyed := noted_keyed hno h.keyed }
  · rw [hno.topology, hno.router, hno.nodeID]
    exact h.nodeID
  · rw [hno.router]
    exact h.running
  · rw [hno.topology]
    exact h.topology
  · rw [hno.router]
    exact h.neighbors

theorem NodeOK.move (h : NodeOK s) (hm : Moves s s') : NodeOK s' := by
  cases hm with
  | neighbor hst =>
    refine { h with nodeID := ?_, running := ?_, neighbors := ?_, events := ?_ }
    · exact ⟨h.nodeID.1, hst.nodeID.trans h.nodeID.2⟩
    · exact hst.closed.trans h.running
    · intro q hq
      rcases hst.mem hq with hold | rfl
      · exact h.neighbors q hold
      · exact hst.peer
    · exact forall_mem_append.2 ⟨h.events, forall_mem_singleton.2 hst.peer⟩
  | records hst =>
    refine { h with nodeID := ?_, topology := hst.ok }
    exact ⟨hst.localID.trans h.nodeID.1, h.nodeID.2⟩
  | callback _ hp hre =>
    refine { h with events := fun q hq => h.events q (hre hq), read := ?_, state := ?_ }
    · rintro q neighbor ⟨⟩
      exact (h.events _ hp).1
    · rintro state started ⟨⟩
  | noteSame _ hno _ hrev =>
    exact h.noted hno (hrev ▸ h.revision) nofun nofun
  | noteChanged _ hno hrev =>
    refine h.noted hno (hrev ▸ Nat.succ_ne_zero _) nofun ?_
    rintro state started ⟨⟩
    exact ⟨rfl, rfl⟩
  | install _ hset =>
    obtain ⟨-, htop⟩ := setLocal_ok hset
    refine { h with
      nodeID := ?_, topology := h.topology.setLocal linkStateFamily_lawful hset, read :=
        nofun, state := nofun }
    rw [htop]
    exact h.nodeID
  | syncChange | replaceLast => exact { h with read := nofun, state := nofun }
  | stay => exact h
  | replace | syncRecord | readDataRoutes | readCapabilities | started | publish | send =>
    exact { h with }

/-! ### Links -/

/-- The link that a router's neighbor should have. -/
def Router.linkFor (r : Router) (p : String) : Option LinkStateLink :=
  (r.neighbors.lookup p).bind fun entry =>
    if entry.advertised then some ⟨p, defaultLinkRTTMillis, !entry.dataCapable⟩ else none

theorem linkOf_neighbor (hop : r.closed = false) (htr : trimSpace p = p) :
    linkOf p (r.neighbor p) = r.linkFor p := by
  unfold Router.neighbor Router.linkFor linkOf
  rw [hop, htr]
  cases r.neighbors.lookup p <;> rfl

theorem NeighborStep.linkFor (h : NeighborStep r r' p) {q : String} (hq : q ≠ p) :
    r'.linkFor q = r.linkFor q := by
  rw [Router.linkFor, h.others q hq, Router.linkFor]

/-- The link of a peer is the one its neighbor should have, or the callback that is under way has
just read the neighbor as it is. -/
structure Tracked (s : NodeRun) (p : String) : Prop where
  reading : ∀ neighbor, s.change = some (.read p neighbor) → linkOf p neighbor = s.node.router.linkFor p
  settled : (∀ neighbor, s.change ≠ some (.read p neighbor)) →
    s.node.links.lookup p = s.node.router.linkFor p

/-- **A link that is not tracked has an event that waits.** -/
def LinksOK (s : NodeRun) : Prop := ∀ p, p ∈ s.events ∨ Tracked s p

theorem LinksOK.frame (h : LinksOK s) (heve : s'.events = s.events)
    (hli : s'.node.links = s.node.links) (hnei : s'.node.router.neighbors = s.node.router.neighbors)
    (hcha : ∀ p neighbor, s'.change = some (.read p neighbor) ↔ s.change = some (.read p neighbor)) :
    LinksOK s' := by
  have hlink : ∀ p, s'.node.router.linkFor p = s.node.router.linkFor p := by
    intro p
    rw [Router.linkFor, hnei, Router.linkFor]
  intro p
  rw [heve]
  refine (h p).imp_right fun htra => ⟨?_, ?_⟩
  · intro neighbor hre
    rw [hlink]
    exact htra.reading neighbor ((hcha p neighbor).1 hre)
  · intro hno
    rw [hlink, hli]
    exact htra.settled fun neighbor hre => hno neighbor ((hcha p neighbor).2 hre)

/-- After the section under `mu`, the link of the peer is the one of the neighbor that was read. -/
theorem LinksOK.noted (h : LinksOK s) {node : Node} {change : Option Change}
    (hre : s.change = some (.read p neighbor)) (hno : Noted s.node node p neighbor)
    (hcha : ∀ q neighbor, change ≠ some (.read q neighbor)) : LinksOK { s with node, change } := by
  intro q
  refine (h q).imp_right fun htra => ⟨fun _ hq => absurd hq (hcha q _), fun _ => ?_⟩
  show node.links.lookup q = node.router.linkFor q
  rw [hno.links, hno.router]
  split
  · rename_i heq
    subst heq
    exact htra.reading neighbor hre
  · rename_i hne
    refine htra.settled fun other hq => hne ?_
    cases hre.symm.trans hq
    rfl

theorem LinksOK.move (h : LinksOK s) (hok : NodeOK s) (hm : Moves s s') : LinksOK s' := by
  cases hm with
  | @neighbor router peerID sessions hst =>
    intro q
    rcases eq_or_ne q peerID with rfl | hq
    · exact .inl (mem_append_right _ mem_cons_self)
    · refine (h q).imp (fun hmem => mem_append_left _ hmem) fun htra => ⟨?_, ?_⟩
      · exact fun neighbor hre => (htra.reading neighbor hre).trans (hst.linkFor hq).symm
      · exact fun hno => (htra.settled hno).trans (hst.linkFor hq).symm
  | @callback p rest hid hp hrest hke =>
    intro q
    rcases eq_or_ne q p with rfl | hq
    · refine .inr ⟨?_, fun hno => absurd rfl (hno _)⟩
      rintro neighbor ⟨⟩
      exact linkOf_neighbor hok.running (hok.events q hp).1
    · refine (h q).imp (fun hmem => hke q hmem hq) fun htra => ⟨?_, fun _ => ?_⟩
      · rintro neighbor ⟨⟩
        exact absurd rfl hq
      · refine htra.settled fun neighbor hre => ?_
        cases hid.symm.trans hre
  | noteSame hre hnot | noteChanged hre hnot => exact h.noted hre hnot nofun
  | install hca | syncChange _ hca | replaceLast _ hca =>
    refine h.frame rfl rfl rfl fun q neighbor => ⟨nofun, fun heq => ?_⟩
    cases hca.symm.trans heq
  | stay => exact h
  | records | syncRecord | readDataRoutes | readCapabilities | replace | started | publish | send =>
    exact h.frame rfl rfl rfl fun _ _ => Iff.rfl

/-! ### The local record -/

/-- **The topology has the local record**, unless the callback that is under way is about to put it
there. -/
structure InstalledOK (s : NodeRun) : Prop where
  changed : ∀ state started, s.change = some (.changed state started) →
    ∀ o, state = s.node.localLinkStateLocked o
  installed : (∀ state started, s.change ≠ some (.changed state started)) → ∀ o,
    s.node.topology.lsas.lookup s.node.nodeID = some ⟨s.node.localLinkStateLocked o, Time.zero, true⟩

theorem InstalledOK.frame (h : InstalledOK s) (hid : s'.node.nodeID = s.node.nodeID)
    (hlo : ∀ o, s'.node.localLinkStateLocked o = s.node.localLinkStateLocked o)
    (hls : s'.node.topology.lsas.lookup s.node.nodeID = s.node.topology.lsas.lookup s.node.nodeID)
    (hcha : ∀ state started, s'.change = some (.changed state started) ↔
      s.change = some (.changed state started)) :
    InstalledOK s' where
  changed state started hst o := by
    rw [hlo]
    exact h.changed state started ((hcha state started).1 hst) o
  installed hno o := by
    rw [hid, hls, hlo]
    exact h.installed (fun state started hst => hno state started ((hcha state started).2 hst)) o

theorem InstalledOK.move (h : InstalledOK s) (hok : NodeOK s) (hm : Moves s s') :
    InstalledOK s' := by
  cases hm with
  | records hst =>
    refine h.frame rfl (fun _ => rfl) ?_ fun _ _ => Iff.rfl
    have hlo := hst.localRecord
    rwa [hok.nodeID.1] at hlo
  | callback hca | syncChange _ hca | replaceLast _ hca =>
    refine h.frame rfl (fun _ => rfl) rfl fun state started => ⟨nofun, fun heq => ?_⟩
    cases hca.symm.trans heq
  | noteSame hre hnot hlo =>
    refine h.frame hnot.nodeID hlo (by rw [hnot.topology]) fun state started => ⟨nofun, fun heq => ?_⟩
    rw [hre] at heq
    cases heq
  | noteChanged hre hnot hrev =>
    refine ⟨?_, fun hno => absurd rfl (hno _ _)⟩
    rintro state started ⟨⟩ o
    exact localLinkState_order (noted_keyed hnot hok.keyed) _ o
  | install hcha hset =>
    refine ⟨nofun, fun _ o => ?_⟩
    obtain ⟨-, rfl⟩ := setLocal_ok hset
    show (s.node.topology.lsas.insert s.node.topology.localID _).lookup s.node.nodeID = _
    rw [hok.nodeID.1, lookup_insert, h.changed _ _ hcha o]
    rfl
  | stay => exact h
  | neighbor | syncRecord | readDataRoutes | readCapabilities | replace | started | publish | send =>
    exact h.frame rfl (fun _ => rfl) rfl fun _ _ => Iff.rfl

/-! ### Route tables -/

/-- The callback that is under way has not yet begun its `syncRoutes`. -/
def Change.awaitsSync : Change → Bool
  | read _ _ => true
  | changed _ _ => true
  | syncing begun _ => !begun

/-- A call of `syncRoutes` is to come. -/
def NodeRun.WillSync (s : NodeRun) : Prop :=
  s.syncs ≠ 0 ∨ s.events ≠ [] ∨ s.change.any Change.awaitsSync = true

/-- The router stores the next hops of the topology as they are. -/
def Storable (t : Topology) (r : Router) : Prop :=
  ∀ d v, t.nextHops.lookup d = some v ∨ t.dataNextHops.lookup d = some v →
    trimSpace d = d ∧ d ≠ "" ∧ trimSpace v = v ∧ v ≠ "" ∧ d ≠ r.nodeID

/-- The tables of the router are the topology's next hops; of the data routes, those over an
attached data-capable neighbor. -/
def Installed (t : Topology) (r : Router) : Prop :=
  Storable t r → (∀ d, r.routes.lookup d = t.nextHops.lookup d) ∧
    ∀ d, r.dataRoutes.lookup d = (t.dataNextHops.lookup d).filter r.dataCapability

/-- What a `syncRoutes` that is under way has read is up to date. -/
def UpToDate (t : Topology) (r : Router) : Option (SyncCaller × Sync) → Prop
  | none => Installed t r
  | some (_, .routes routes) => routes = t.nextHops
  | some (_, .dataRoutes routes dataRoutes) => routes = t.nextHops ∧ dataRoutes = t.dataNextHops
  | some (_, .capabilities routes dataRoutes) =>
    routes = t.nextHops ∧ ∀ d, dataRoutes.lookup d = (t.dataNextHops.lookup d).filter r.dataCapability

/-- **Tables that are not up to date have a `syncRoutes` to come.** -/
def TablesOK (s : NodeRun) : Prop := s.WillSync ∨ UpToDate s.node.topology s.node.router s.sync

theorem installed_of_replace {t : Topology} (o : RangeOrder) {caller : SyncCaller}
    {routes dataRoutes : GoMap String}
    (h : UpToDate t r (some (caller, .capabilities routes dataRoutes))) :
    Installed t (r.withTables o routes dataRoutes) := by
  obtain ⟨rfl, hda⟩ := h
  refine fun hst => ⟨fun d => ?_, fun d => ?_⟩
  · exact lookup_normalizedNextHops (o.keys_perm 0 _) (fun d v hv => hst d v (.inl hv)) d
  · refine (lookup_normalizedNextHops (o.keys_perm 1 _) (fun d v hv => ?_) d).trans (hda d)
    rw [hda, filter_eq_some_iff] at hv
    exact hst d v (.inr hv.1)

/-- A section that leaves the tables, the neighbors and the `syncRoutes` under way, and forgets no
call. -/
theorem TablesOK.frame (h : TablesOK s) (hwi : s.WillSync → s'.WillSync)
    (hrou : s'.node.topology.routes = s.node.topology.routes)
    (hda : s'.node.topology.dataRoutes = s.node.topology.dataRoutes)
    (hrout : s'.node.router = s.node.router) (hsy : s'.sync = s.sync) : TablesOK s' := by
  refine h.imp hwi fun hup => ?_
  have h1 : s'.node.topology.nextHops = s.node.topology.nextHops := by
    rw [nextHops, hrou, nextHops]
  have h2 : s'.node.topology.dataNextHops = s.node.topology.dataNextHops := by
    rw [dataNextHops, hda, dataNextHops]
  rw [hrout, hsy]
  revert hup
  match s.sync with
  | none =>
    simp only [UpToDate, Installed, Storable, h1, h2]
    exact id
  | some (_, .routes routes) => exact fun hup => hup.trans h1.symm
  | some (_, .dataRoutes routes dataRoutes) =>
    exact fun hup => ⟨hup.1.trans h1.symm, hup.2.trans h2.symm⟩
  | some (_, .capabilities routes dataRoutes) =>
    exact fun hup => ⟨hup.1.trans h1.symm, fun d => h2 ▸ hup.2 d⟩

theorem TablesOK.move (h : TablesOK s) (hm : Moves s s') : TablesOK s' := by
  cases hm with
  | neighbor => exact .inl (.inr (.inl (append_ne_nil_of_right_ne_nil _ (cons_ne_nil _ _))))
  | @records topology changed hst =>
    cases changed with
    | true => exact .inl (.inl (Nat.succ_ne_zero _))
    | false =>
      obtain ⟨hrou, hda⟩ := hst.tables rfl
      exact h.frame (fun hwi => hwi) hrou hda rfl rfl
  | syncRecord | syncChange => exact .inr rfl
  | readDataRoutes hsy =>
    refine h.imp id fun hup => ?_
    rw [hsy] at hup
    exact ⟨hup, rfl⟩
  | readCapabilities hsy =>
    refine h.imp id fun hup => ?_
    rw [hsy] at hup
    obtain ⟨hrou, rfl⟩ := hup
    exact ⟨hrou, lookup_keepCapable _ _ (RangeOrder.keys_perm _ 2 _)⟩
  | replace hsy =>
    refine h.imp id fun hup => ?_
    rw [hsy] at hup
    exact installed_of_replace _ hup
  | replaceLast hsy hca =>
    refine h.imp (fun hwi => ?_) fun hup => ?_
    · unfold NodeRun.WillSync at hwi
      rw [hca] at hwi
      exact hwi.imp_right fun hwi => hwi.imp_right nofun
    · rw [hsy] at hup
      exact installed_of_replace _ hup
  | stay => exact h
  | callback | noteSame | noteChanged | install => exact .inl (.inr (.inr rfl))
  | started | publish | send => exact h.frame (fun hwi => hwi) rfl rfl rfl rfl

/-! ### Published records -/

/-- The records that were published or will be. -/
def NodeRun.Announced (s : NodeRun) (state : LinkStateAdvertisement) : Prop :=
  state ∈ s.published ∨ state ∈ s.outbox ∨ (∃ started, s.change = some (.changed state started)) ∨
    ∃ begun, s.change = some (.syncing begun (some state))

/-- **One revision has one content**, and the current one is that of the links. -/
structure LogOK (s : NodeRun) : Prop where
  bounded : ∀ a, s.Announced a → a.revision ≤ s.node.lsaRevision
  current : ∀ a, s.Announced a → a.revision = s.node.lsaRevision →
    ∀ o, a = s.node.localLinkStateLocked o
  unique : ∀ a b, s.Announced a → s.Announced b → a.revision = b.revision → a = b

theorem LogOK.announce (h : LogOK s) (hrev : s.node.lsaRevision ≤ s'.node.lsaRevision)
    (hnew : ∀ a, s'.Announced a → s.Announced a ∨ ∀ o, a = s'.node.localLinkStateLocked o)
    (hcur : ∀ a, s.Announced a → a.revision = s'.node.lsaRevision →
      ∀ o, a = s'.node.localLinkStateLocked o) :
    LogOK s' := by
  have hcur' : ∀ a, s'.Announced a → a.revision = s'.node.lsaRevision →
    ∀ o, a = s'.node.localLinkStateLocked o :=
    fun a ha heq => (hnew a ha).elim (hcur a · heq) id
  refine ⟨?_, hcur', ?_⟩
  · intro a ha
    rcases hnew a ha with hs | hs
    · exact (h.bounded a hs).trans hrev
    · rw [hs insertionOrder]
      exact le_rfl
  · intro a b ha hb heq
    rcases hnew a ha with hs | hs
    · rcases hnew b hb with hs' | hs'
      · exact h.unique a b hs hs' heq
      · rw [hs' insertionOrder]
        exact hcur a hs (heq.trans (congrArg _ (hs' insertionOrder))) insertionOrder
    · rw [hs insertionOrder]
      exact (hcur' b hb (heq.symm.trans (congrArg _ (hs insertionOrder))) insertionOrder).symm

theorem LogOK.frame (h : LogOK s) (hrev : s'.node.lsaRevision = s.node.lsaRevision)
    (hlo : ∀ o, s'.node.localLinkStateLocked o = s.node.localLinkStateLocked o)
    (hnew : ∀ a, s'.Announced a → s.Announced a ∨ ∀ o, a = s.node.localLinkStateLocked o) :
    LogOK s' := by
  simp only [← hlo] at hnew
  refine h.announce hrev.ge hnew fun a ha heq o => ?_
  rw [hlo]
  exact h.current a ha (heq.trans hrev) o

theorem LogOK.advance (h : LogOK s) (hrev : s'.node.lsaRevision = s.node.lsaRevision + 1)
    (hnew : ∀ a, s'.Announced a → s.Announced a ∨ ∀ o, a = s'.node.localLinkStateLocked o) :
    LogOK s' := by
  refine h.announce (by omega) hnew fun a ha heq => ?_
  have hle := h.bounded a ha
  omega

/-- **The log stays sound** along a move. -/
theorem LogOK.move (h : LogOK s) (hok : NodeOK s) (hm : Moves s s') : LogOK s' := by
  cases hm with
  | callback =>
    refine h.frame rfl (fun _ => rfl) fun a ha => .inl ?_
    rcases ha with ha | ha | ⟨_, ⟨⟩⟩ | ⟨_, ⟨⟩⟩
    · exact .inl ha
    · exact .inr (.inl ha)
  | noteSame hre hno hlo hrev =>
    refine h.frame hrev hlo fun a ha => .inl ?_
    rcases ha with ha | ha | ⟨_, ⟨⟩⟩ | ⟨_, ⟨⟩⟩
    · exact .inl ha
    · exact .inr (.inl ha)
  | @noteChanged p neighbor node o hre hno hrev =>
    refine h.advance hrev fun a ha => ?_
    rcases ha with ha | ha | ⟨_, ⟨⟩⟩ | ⟨_, ⟨⟩⟩
    · exact .inl (.inl ha)
    · exact .inl (.inr (.inl ha))
    · exact .inr fun o' => localLinkState_order (noted_keyed hno hok.keyed) o o'
  | install hcha =>
    refine h.frame rfl (fun _ => rfl) fun a ha => .inl ?_
    rcases ha with ha | ha | ⟨_, ⟨⟩⟩ | ⟨_, heq⟩
    · exact .inl ha
    · exact .inr (.inl ha)
    · refine .inr (.inr (.inl ?_))
      simp only [some.injEq, Change.syncing.injEq, ite_none_right_eq_some] at heq
      obtain ⟨-, -, rfl⟩ := heq
      exact ⟨_, hcha⟩
  | syncChange _ hca =>
    refine h.frame rfl (fun _ => rfl) fun a ha => .inl ?_
    rcases ha with ha | ha | ⟨_, ⟨⟩⟩ | ⟨_, ⟨⟩⟩
    · exact .inl ha
    · exact .inr (.inl ha)
    · exact .inr (.inr (.inr ⟨_, hca⟩))
  | replaceLast _ hca =>
    -- the record that a callback leaves to be sent was announced before
    refine h.frame rfl (fun _ => rfl) fun a ha => .inl ?_
    rcases ha with ha | ha | ⟨_, ⟨⟩⟩ | ⟨_, ⟨⟩⟩
    · exact .inl ha
    · rcases mem_append.1 ha with hold | hse
      · exact .inr (.inl hold)
      · rw [mem_toList] at hse
        exact .inr (.inr (.inr ⟨true, hca.trans (by rw [hse])⟩))
  | @publish o =>
    refine h.frame rfl (fun _ => rfl) fun a ha => ?_
    rcases ha with ha | ha | ha
    · exact .inl (.inl ha)
    · rcases mem_append.1 ha with hold | hadd
      · exact .inl (.inr (.inl hold))
      · rw [mem_singleton.1 hadd]
        exact .inr fun o' => localLinkState_order hok.keyed o o'
    · exact .inl (.inr (.inr ha))
  | send hst hrest =>
    refine h.frame rfl (fun _ => rfl) fun a ha => .inl ?_
    rcases ha with ha | ha | ha
    · rcases mem_append.1 ha with hold | hadd
      · exact .inl hold
      · rw [mem_singleton.1 hadd]
        exact .inr (.inl hst)
    · exact .inr (.inl (hrest ha))
    · exact .inr (.inr ha)
  | stay => exact h
  | neighbor | records | syncRecord | readDataRoutes | readCapabilities | replace | started =>
    exact h.frame rfl (fun _ => rfl) fun a ha => .inl ha

/-! ## Whole runs -/

theorem bootCounterCandidate_ne_zero (nowNanos : ℤ) (previous : ℕ) :
    bootCounterCandidate nowNanos previous ≠ 0 := by
  unfold bootCounterCandidate bootCounterStride
  dsimp only
  split_ifs <;> omega

structure NodeInvariant (s : NodeRun) : Prop where
  ok : NodeOK s
  links : LinksOK s
  installed : InstalledOK s
  tables : TablesOK s
  log : LogOK s

theorem NodeInvariant.move (h : NodeInvariant s) (hm : Moves s s') : NodeInvariant s' :=
  ⟨h.ok.move hm, h.links.move h.ok hm, h.installed.move h.ok hm, h.tables.move hm, h.log.move h.ok hm⟩

/-- A topology whose only member is the local node has no next hops. -/
theorem nextHops_alone (hok : TopologyOK t) (hal : ∀ id ∈ t.members, id = t.localID) (d : String) :
    t.nextHops.lookup d = none ∧ t.dataNextHops.lookup d = none := by
  have hno : ∀ dataOnly, (t.computeRoutesLocked insertionOrder [] dataOnly).lookup d = none := by
    intro dataOnly
    cases hro : (t.computeRoutesLocked insertionOrder [] dataOnly).lookup d with
    | none => rfl
    | some route =>
      obtain ⟨hlo, hmem, -⟩ := computeRoutesLocked_members (nonempty_nodes hok.localID hok.members) hro
      exact absurd (hal d hmem) hlo
  rw [(lookup_nextHops t d).1, (lookup_nextHops t d).2, hok.tables.routes insertionOrder d,
    hok.tables.dataRoutes insertionOrder d, hno, hno]
  exact ⟨rfl, rfl⟩

theorem newNode_parts {cfg : NodeConfig} {base : ℕ} {seq : UInt64} {n : Node}
    (h : newNode o cfg base seq = .ok n) : TopologyOK n.topology ∧ n.topology.localID = n.nodeID ∧
      (∀ id ∈ n.topology.members, id = n.nodeID) ∧ n.lsaRevision = base ∧ n.links = ∅ ∧
      n.topology.lsas.lookup n.nodeID = some ⟨n.localLinkStateLocked o, Time.zero, true⟩ ∧
      n.router.nodeID = n.nodeID ∧ n.router.closed = false ∧ n.router.neighbors = ∅ ∧
        n.router.routes = ∅ ∧
      n.router.dataRoutes = ∅ := by
  simp only [newNode, bind_ok_iff, failIf_ok_iff, mapError_ok_iff] at h
  obtain ⟨_, -, _, -, _, -, t₀, ht₀, router, hrou, t₁, ht₁, t₂, ht₂, hret⟩ := h
  obtain rfl := ok.inj hret
  have hok₂ := ((newTopology_ok ht₀).setLocal memberFamily_lawful ht₁).setLocal
    linkStateFamily_lawful ht₂
  simp only [newTopology, newRouter, bind_ok_iff, failIf_ok_iff] at ht₀ hrou
  obtain ⟨_, -, hret₀⟩ := ht₀
  obtain rfl := ok.inj hret₀
  obtain ⟨_, -, hre⟩ := hrou
  obtain rfl := ok.inj hre
  obtain ⟨-, rfl⟩ := setLocal_ok ht₁
  obtain ⟨-, rfl⟩ := setLocal_ok ht₂
  refine ⟨hok₂, trimSpace_idem _, ?_, rfl, rfl, ?_, trimSpace_idem _, rfl, rfl, rfl, rfl⟩
  · intro id hid
    rcases (mem_insert _).1 hid with rfl | hem
    · exact trimSpace_idem _
    · exact absurd hem (notMem_empty id)
  · show ((∅ : GoMap LinkState).insert (trimSpace (trimSpace cfg.nodeID)) _).lookup
      (trimSpace cfg.nodeID) = _
    rw [trimSpace_idem, lookup_insert]
    rfl

theorem newNode_invariant {cfg : NodeConfig} {nowNanos : ℤ} {previous : ℕ} {seq : UInt64} {n : Node}
    (h : newNode o cfg (bootCounterCandidate nowNanos previous) seq = .ok n) :
    NodeInvariant ⟨n, 0, [], none, 0, none, [], []⟩ := by
  obtain ⟨htop, hid, hal, hrev, hli, hlo, hrid, hop, hnei, hrou, hda⟩ := newNode_parts h
  have hke : n.Keyed := by
    intro p link hlink
    rw [hli, lookup_empty] at hlink
    cases hlink
  refine ⟨?_, ?_, ⟨nofun, fun _ o' => ?_⟩, .inr fun _ => ⟨?_, ?_⟩, ?_⟩
  · refine ⟨⟨hid, hrid⟩, hop, ?_, htop, ?_, nofun, nofun, nofun, hke⟩
    · exact hrev ▸ bootCounterCandidate_ne_zero nowNanos previous
    · intro p hp
      have hp' : p ∈ n.router.neighbors := hp
      rw [hnei] at hp'
      exact absurd hp' (notMem_empty p)
  · refine fun p => .inr ⟨nofun, fun _ => ?_⟩
    show n.links.lookup p = n.router.linkFor p
    rw [hli, Router.linkFor, hnei, lookup_empty, lookup_empty]
    rfl
  · exact hlo.trans (by rw [localLinkState_order hke o o'])
  · intro d
    show n.router.routes.lookup d = _
    rw [hrou, lookup_empty, (nextHops_alone htop (hid.symm ▸ hal) d).1]
  · intro d
    show n.router.dataRoutes.lookup d = _
    rw [hda, lookup_empty, (nextHops_alone htop (hid.symm ▸ hal) d).2]
    rfl
  · have hno : ∀ a, ¬ NodeRun.Announced ⟨n, 0, [], none, 0, none, [], []⟩ a := by
      rintro a (ha | ha | ⟨_, ⟨⟩⟩ | ⟨_, ⟨⟩⟩)
      · exact not_mem_nil ha
      · exact not_mem_nil ha
    exact ⟨fun a ha => absurd ha (hno a), fun a ha => absurd ha (hno a),
      fun a b ha => absurd ha (hno a)⟩

theorem reachable_invariant (hs : NodeRun.Reachable NodeRun.Regular s) : NodeInvariant s := by
  refine Transition.Reachable.invariant (P := NodeInvariant) ?_ ?_ hs
  · rintro x ⟨o, cfg, nowNanos, previous, seq, n, hnew, rfl⟩
    exact newNode_invariant hnew
  · intro x a x' _ hx hreg hst
    exact hx.move (step_moves hx.ok hreg hst)

/-- **A node whose calls have returned is consistent**, when the revision counter does not wrap.
Once every callback and every `syncRoutes` has run, the links are those of the advertised neighbors,
control-only where the session carries no data; the local record in the topology is made of them;
and when the stored members have trimmed ids, the control table is the topology's, and so is the
data table, without the routes whose next hop is not an attached data-capable neighbor. At any time,
two published records with one revision are equal. -/
theorem node_consistent (s : NodeRun) (hs : NodeRun.Reachable NodeRun.Regular s) :
    (s.Quiescent →
      (∀ p, s.node.links.lookup p =
        (s.node.router.neighbors.lookup p).bind fun entry =>
          if entry.advertised then some ⟨p, defaultLinkRTTMillis, !entry.dataCapable⟩ else none) ∧
      (∀ o, s.node.topology.lsas.lookup s.node.nodeID = some ⟨s.node.localLinkStateLocked o,
        Time.zero, true⟩ ∧ ∀ link, link ∈ (s.node.localLinkStateLocked o).links ↔
          s.node.links.lookup link.peerID = some link) ∧
      ((∀ id ∈ s.node.topology.members, trimSpace id = id) →
        (∀ d, s.node.router.routes.lookup d = s.node.topology.nextHops.lookup d) ∧
        ∀ d, s.node.router.dataRoutes.lookup d =
          (s.node.topology.dataNextHops.lookup d).filter s.node.router.dataCapability)) ∧
    ∀ a ∈ s.published, ∀ b ∈ s.published, a.revision = b.revision → a = b := by
  have h := reachable_invariant hs
  refine ⟨?_, fun a ha b hb => h.log.unique a b (.inl ha) (.inl hb)⟩
  rintro ⟨hevents, hchange, hsyncs, hsync⟩
  have htables : Installed s.node.topology s.node.router := by
    have hup := h.tables
    rw [TablesOK, NodeRun.WillSync, hevents, hchange, hsyncs, hsync] at hup
    simpa [UpToDate] using hup
  refine ⟨?_, ?_, fun htrimmed => htables fun d v hv => ?_⟩
  · intro p
    refine ((h.links p).resolve_left ?_).settled ?_
    · rw [hevents]
      exact not_mem_nil
    · rw [hchange]
      exact nofun
  · intro o
    refine ⟨h.installed.installed ?_ o, mem_localLinks h.ok.keyed o⟩
    rw [hchange]
    exact nofun
  · rw [h.ok.nodeID.2, ← h.ok.nodeID.1]
    exact nextHops_trimmed h.ok.topology htrimmed hv

/-! ## Two runs -/

section Sample

def sampleConfig : NodeConfig := ⟨"a", "", [], [], "", 0, 0, 0, false⟩

/-- A new node, run through some actions. -/
def sampleRun (ok : NodeRun → NodeAction → Prop) [∀ s a, Decidable (ok s a)]
    (acts : List NodeAction) : Option NodeRun :=
  (newNode insertionOrder sampleConfig (bootCounterCandidate 5 0) 0).toOption.bind fun n =>
    Transition.runFrom NodeRun.step ok ⟨n, 0, [], none, 0, none, [], []⟩ acts

theorem sampleRun_reachable {ok : NodeRun → NodeAction → Prop} [∀ s a, Decidable (ok s a)]
    {acts : List NodeAction} (h : sampleRun ok acts = some s) : NodeRun.Reachable ok s := by
  obtain ⟨n, hn, hrun⟩ := bind_eq_some_iff.1 h
  refine Transition.Reachable.of_run (.start ⟨insertionOrder, sampleConfig, 5, 0, 0, n, ?_, rfl⟩) hrun
  cases hnew : newNode insertionOrder sampleConfig (bootCounterCandidate 5 0) 0 with
  | error e =>
    rw [hnew] at hn
    cases hn
  | ok n' =>
    rw [hnew] at hn
    cases hn
    rfl

/-- A call of `syncRoutes`, with nothing in between. -/
def sampleSync (caller : SyncCaller) : List NodeAction :=
  [.syncRoutes caller, .readDataRoutes, .readCapabilities insertionOrder,
    .replaceRouteTables insertionOrder]

/-- The neighbor `b` is attached, and its callback runs to the end. -/
def sampleAttach : List NodeAction :=
  [.start, .attach "b" .packet true true, .callback 0, .note insertionOrder,
    .setLocalLinkState insertionOrder] ++ sampleSync .change ++ [.send 0]

/-- The records of a node, each followed by its `syncRoutes`. -/
def sampleRecords (id : String) (links : List LinkStateLink) : List NodeAction :=
  .applyMember insertionOrder ⟨id, 1, 1000, "", [], [], ""⟩ ⟨1, true⟩ :: sampleSync .record ++
    .applyLinkState insertionOrder ⟨id, 1, 1000, true, links⟩ ⟨1, true⟩ :: sampleSync .record

/-- Whether a run ended with no call under way, and a next hop that it has for a destination. -/
def sampleView (d : String) (s : NodeRun) : Bool × ℕ × Option String × Option String :=
  (s.events.isEmpty && s.change.isNone && s.syncs == 0 && s.sync.isNone, s.published.length,
    s.node.topology.nextHops.lookup d, s.node.router.routes.lookup d)

theorem sampleView_quiescent {d : String} {n : ℕ} {v w : Option String}
    (h : sampleView d s = (true, n, v, w)) :
    s.Quiescent ∧ s.published.length = n ∧ s.node.topology.nextHops.lookup d = v ∧
      s.node.router.routes.lookup d = w := by
  simp only [sampleView, Prod.mk.injEq, and_eq_true, List.isEmpty_iff, isNone_iff_eq_none,
    beq_iff_eq] at h
  exact ⟨⟨h.1.1.1.1, h.1.1.1.2, h.1.1.2, h.1.2⟩, h.2⟩

theorem node_consistent_sample :
    ∃ s, NodeRun.Reachable NodeRun.Regular s ∧ s.Quiescent ∧ s.published.length = 1 ∧
    s.node.router.routes.lookup "b" = some "b" := by
  have hview : (sampleRun NodeRun.Regular (sampleAttach ++ sampleRecords "b" [⟨"a", 1, false⟩])).map
      (sampleView "b") = some (true, 1, some "b", some "b") := by decide +kernel
  have hmembers : (sampleRun NodeRun.Regular (sampleAttach ++ sampleRecords "b" [⟨"a", 1, false⟩])).all
      (·.node.topology.members.keys.all fun id => trimSpace id = id) = true := by decide +kernel
  obtain ⟨s, hs, hview⟩ := map_eq_some_iff.1 hview
  obtain ⟨hquiet, hpublished, hhop, -⟩ := sampleView_quiescent hview
  have hreach := sampleRun_reachable hs
  have htrimmed : ∀ id ∈ s.node.topology.members, trimSpace id = id := by simpa [hs,
    AList.mem_keys] using hmembers
  exact ⟨s, hreach, hquiet, hpublished, (((node_consistent s hreach).1 hquiet).2.2 htrimmed).1 "b"
    |>.trans hhop⟩

/-- **A member whose id has a space in front.** The topology keeps the id as it is, and the router
trims it: the tables differ when all calls have returned. -/
theorem untrimmed_member_misrouted : ∃ s, NodeRun.Reachable (fun _ _ => True) s ∧ s.Quiescent ∧
    s.node.topology.nextHops.lookup " x" = some "b" ∧ s.node.router.routes.lookup " x" = none := by
  have hview : (sampleRun (fun _ _ => True) (sampleAttach ++
      sampleRecords "b" [⟨"a", 1, false⟩, ⟨" x", 1, false⟩] ++ sampleRecords " x" [⟨"b", 1,
        false⟩])).map
      (sampleView " x") = some (true, 1, some "b", none) := by decide +kernel
  obtain ⟨s, hs, hview⟩ := map_eq_some_iff.1 hview
  obtain ⟨hquiet, -, hhop, hroute⟩ := sampleView_quiescent hview
  exact ⟨s, sampleRun_reachable hs, hquiet, hhop, hroute⟩

end Sample

end Winkyou.Mesh
