import Winkyou.Proof.Mesh.Routes
import Winkyou.Spec.Mesh.Data

/-!
# Shared views forward without loops

Every node computes its routes from itself, over one database. The rest of a shortest path is a path
of the next hop, and a path of the next hop can be prolonged by the first hop, so the next hop is
exactly one hop closer.

* `next_hop_closer`: the hop count falls by one at the next hop.
* `travel_spec`: what happens to a data frame on its way.
* `forwarding_loop_free`: both, for the control graph and the data graph.
-/

namespace Winkyou.Mesh

open Winkyou.Mesh.Topology List Router AList Except
open Option (map_eq_some_iff or_none some)

/-- The database as one of its nodes sees it. -/
def Topology.seenFrom (t : Topology) (id : String) : Topology := { t with localID := id }

/-- Node ids are not empty, and a record lists every peer once. -/
structure DatabaseOK (t : Topology) : Prop where
  nonempty : "" ∉ t.members
  unique : ∀ id state, t.lsas.lookup id = some state →
    (state.record.links.map LinkStateLink.peerID).Nodup

/-- The route that a node computes over the database. -/
def routeFrom (order : String → RangeOrder) (t : Topology) (dataOnly : Bool) (s d : String) :
    Option Route :=
  ((t.seenFrom s).computeRoutesLocked (order s) [] dataOnly).lookup d

/-- The hop count of a node to `d`. -/
def hopsTo (order : String → RangeOrder) (t : Topology) (dataOnly : Bool) (d s : String) :
    Option ℕ :=
  if s = d then some 0 else (routeFrom order t dataOnly s d).map Route.hopCount

/-- The node that is reached after a number of next hops towards `d`. -/
def follow (order : String → RangeOrder) (t : Topology) (dataOnly : Bool) (d : String) :
    ℕ → String → Option String
  | 0, s => some s
  | n + 1, s => (routeFrom order t dataOnly s d).bind fun r => follow order t dataOnly d n r.nextHop

variable {order : String → RangeOrder} {t : Topology} {dataOnly : Bool} {s v d x : String}
  {r : Route} {p q a b : List String}

theorem DatabaseOK.wellFormed (h : DatabaseOK t) (hs : s ∈ t.members) :
    (t.seenFrom s).WellFormed where
  nonempty := by
    intro hmem
    rcases mem_cons.1 hmem with heq | hkey
    · exact h.nonempty (heq ▸ hs)
    · exact h.nonempty (mem_keys.2 hkey)
  unique := h.unique

/-! ## Paths of two nodes -/

/-- The rest of an admissible path, from any of its nodes, is one of that node. -/
theorem admissible_suffix (h : (t.seenFrom s).AdmissiblePath [] dataOnly (a ++ x :: b) d)
    (hx : x ≠ d) :
    (t.seenFrom x).AdmissiblePath [] dataOnly (x :: b) d where
  first := rfl
  last := by
    have hla := h.last
    rwa [getLast?_append_of_ne_nil _ (cons_ne_nil x b)] at hla
  hop := by
    cases b with
    | nil =>
      have hla := h.last
      rw [getLast?_append_of_ne_nil _ (cons_ne_nil x []), getLast?_singleton] at hla
      exact absurd (some.inj hla) hx
    | cons y b => simp
  simple := (nodup_append.1 h.simple).2.1
  links := by
    have hch := ((isChain_append.1 h.links).2.1)
    refine hch.imp ?_
    rintro u w ⟨hco, -⟩
    refine ⟨hco, ?_⟩
    rintro (⟨-, h⟩ | ⟨-, h⟩) <;> cases h
  transit := by
    intro y hy
    refine h.transit y ?_
    rcases a with _ | ⟨z, a⟩
    · exact hy
    rw [tail_cons] at hy
    have hb : b ≠ [] := by
      rintro rfl
      cases hy
    rw [cons_append, tail_cons, dropLast_append_of_ne_nil (cons_ne_nil x b), dropLast_cons_of_ne_nil hb]
    exact mem_append_right _ (mem_cons_of_mem _ hy)

/-- An admissible path of a neighbor that may be passed through can be prolonged to the node. -/
theorem admissible_cons (h : (t.seenFrom v).AdmissiblePath [] dataOnly q d) (hs : s ∉ q)
    (hli : t.Confirmed dataOnly s v) (htra : t.TransitAllowed v) :
    (t.seenFrom s).AdmissiblePath [] dataOnly (s :: q) d := by
  obtain ⟨q, rfl⟩ := head?_eq_some_iff.1 h.first
  have hq : q ≠ [] := by
    rintro rfl
    have := h.hop
    simp at this
  have hnot : ∀ u w, ¬ (t.seenFrom s).Excluded [] u w := by
    rintro u w (⟨-, h⟩ | ⟨-, h⟩) <;> cases h
  refine ⟨rfl, ?_, ?_, nodup_cons.2 ⟨hs, h.simple⟩, ?_, ?_⟩
  · rw [getLast?_cons_cons]
    exact h.last
  · have := h.hop
    simp only [length_cons] at this ⊢
    omega
  · refine isChain_cons_cons.2 ⟨⟨hli, hnot _ _⟩, ?_⟩
    exact h.links.imp fun u w hli => ⟨hli.1, hnot u w⟩
  · rw [tail_cons, dropLast_cons_of_ne_nil hq, forall_mem_cons]
    exact ⟨htra, h.transit⟩

theorem routeFrom_spec (order : String → RangeOrder) (dataOnly : Bool) (hdb : DatabaseOK t)
    (hs : s ∈ t.members) (d : String) :
    ((routeFrom order t dataOnly s d).isSome = true ↔
      ∃ p, (t.seenFrom s).AdmissiblePath [] dataOnly p d) ∧
      ∀ r, routeFrom order t dataOnly s d = some r →
        RouteOf (t.seenFrom s) d r ∧ (t.seenFrom s).AdmissiblePath [] dataOnly r.path d ∧
          ∀ q, (t.seenFrom s).AdmissiblePath [] dataOnly q d → r.path.length ≤ q.length :=
  computeRoutesLocked_spec (hdb.wellFormed hs) (hopOrder_agrees _ _ _) d

section

variable (hdb : DatabaseOK t) (hs : s ∈ t.members) (hr : routeFrom order t dataOnly s d = some r)

include hdb hs hr

theorem route_first_hop :
    (∃ rest, r.path = s :: r.nextHop :: rest) ∧ t.Confirmed dataOnly s r.nextHop ∧ s ≠ d := by
  obtain ⟨-, hro⟩ := routeFrom_spec order dataOnly hdb hs d
  obtain ⟨hof, hadm, -⟩ := hro r hr
  obtain ⟨tail, hta⟩ := head?_eq_some_iff.1 hadm.first
  have hne := hof.nextHop
  rw [hta, tail_cons] at hne
  obtain ⟨rest, rfl⟩ := head?_eq_some_iff.1 hne
  have hli := hadm.links
  rw [hta] at hli
  exact ⟨⟨rest, hta⟩, (isChain_cons_cons.1 hli).1.1, (admissible_ne_local hadm).symm⟩

/-- **The next hop is one hop closer.** -/
theorem next_hop_closer :
    1 ≤ r.hopCount ∧ hopsTo order t dataOnly d r.nextHop = some (r.hopCount - 1) ∧
      r.nextHop ∈ t.members := by
  obtain ⟨-, hro⟩ := routeFrom_spec order dataOnly hdb hs d
  obtain ⟨hof, hadm, hmin⟩ := hro r hr
  obtain ⟨⟨rest, hpa⟩, hli, hsd⟩ := route_first_hop hdb hs hr
  have hco := hof.hopCount
  rw [hpa] at hadm hmin hco
  simp only [length_cons] at hco hmin
  have hv : r.nextHop ∈ t.members := hli.2.1
  refine ⟨by omega, ?_, hv⟩
  unfold hopsTo
  by_cases hvd : r.nextHop = d
  · -- the path has one hop, because it does not pass its end twice
    rw [if_pos hvd]
    have hla := hadm.last
    have hnd := hadm.simple
    rw [getLast?_cons_cons, hvd] at hla
    cases rest with
    | nil => simp at hco; rw [hco]
    | cons y rest =>
      rw [getLast?_cons_cons] at hla
      have hin := mem_of_getLast? hla
      exact absurd (hvd ▸ hin) (nodup_cons.1 (nodup_cons.1 hnd).2).1
  rw [if_neg hvd]
  obtain ⟨hso, hro'⟩ := routeFrom_spec order dataOnly hdb hv d
  have hre : (t.seenFrom r.nextHop).AdmissiblePath [] dataOnly (r.nextHop :: rest) d :=
    @admissible_suffix t dataOnly s d r.nextHop [s] rest hadm hvd
  obtain ⟨r', hr'⟩ := Option.isSome_iff_exists.1 (hso.2 ⟨_, hre⟩)
  obtain ⟨hof', hadm', hmin'⟩ := hro' r' hr'
  have hle := hmin' _ hre
  rw [length_cons] at hle
  -- the next hop has no shorter path: it would give the node a shorter one
  have hge : rest.length + 2 ≤ r'.path.length + 1 := by
    by_cases hin : s ∈ r'.path
    · obtain ⟨front, back, hsp⟩ := append_of_mem hin
      have hfi := hadm'.first
      rw [hsp] at hadm' hfi
      have hsh := hmin _ (admissible_suffix hadm' hsd)
      cases front with
      | nil =>
        have heq : s = r.nextHop := some.inj hfi
        exact absurd (heq ▸ mem_cons_self) (nodup_cons.1 hadm.simple).1
      | cons y front =>
        rw [hsp] at hle ⊢
        simp only [length_append, length_cons] at hle hsh ⊢
        omega
    · have htra : t.TransitAllowed r.nextHop := by
        refine hadm.transit r.nextHop ?_
        have hne : rest ≠ [] := by
          rintro rfl
          have := hre.hop
          simp at this
        rw [tail_cons, dropLast_cons_of_ne_nil hne]
        exact mem_cons_self
      have hlo := hmin _ (admissible_cons hadm' hin hli htra)
      rw [length_cons] at hlo
      omega
  rw [hr', Option.map_some, hof'.hopCount]
  congr 1
  omega

end

theorem hopsTo_zero (hdb : DatabaseOK t) (hs : s ∈ t.members)
    (h : hopsTo order t dataOnly d s = some 0) : s = d := by
  by_contra hne
  rw [hopsTo, if_neg hne] at h
  obtain ⟨r, hr, hco⟩ := map_eq_some_iff.1 h
  have := (next_hop_closer hdb hs hr).1
  omega

theorem hopsTo_succ {n : ℕ} (h : hopsTo order t dataOnly d s = some (n + 1)) :
    s ≠ d ∧ ∃ r, routeFrom order t dataOnly s d = some r ∧ r.hopCount = n + 1 := by
  unfold hopsTo at h
  split_ifs at h with hsd
  · cases h
  · exact ⟨hsd, map_eq_some_iff.1 h⟩

/-- **Following next hops reaches the destination** after as many hops as the route counts. -/
theorem follow_spec (hdb : DatabaseOK t) (n : ℕ) :
    ∀ s, s ∈ t.members → hopsTo order t dataOnly d s = some n →
    follow order t dataOnly d n s = some d ∧
      ∀ k ≤ n, ∃ v, follow order t dataOnly d k s = some v ∧
        hopsTo order t dataOnly d v = some (n - k) := by
  induction n with
  | zero =>
    intro s hs h
    refine ⟨by rw [follow, hopsTo_zero hdb hs h], fun k hk => ⟨s, ?_, ?_⟩⟩
    · rw [Nat.le_zero.1 hk, follow]
    · rw [Nat.le_zero.1 hk]
      exact h
  | succ n ih =>
    intro s hs h
    obtain ⟨-, r, hr, hco⟩ := hopsTo_succ h
    obtain ⟨-, hnext, hv⟩ := next_hop_closer hdb hs hr
    rw [hco, Nat.add_sub_cancel] at hnext
    obtain ⟨hend, hall⟩ := ih r.nextHop hv hnext
    refine ⟨by rw [follow, hr, Option.bind_some, hend], ?_⟩
    intro k hk
    cases k with
    | zero => exact ⟨s, rfl, h⟩
    | succ k =>
      obtain ⟨w, hw, hho⟩ := hall k (by omega)
      refine ⟨w, by rw [follow, hr, Option.bind_some, hw], ?_⟩
      rw [hho]
      congr 1
      omega

/-! ## Installed tables -/

theorem lookup_nextHops (t : Topology) (d : String) :
    t.nextHops.lookup d = (t.routes.lookup d).map Route.nextHop ∧
      t.dataNextHops.lookup d = (t.dataRoutes.lookup d).map Route.nextHop := by
  have hfi : ∀ routes : GoMap Route, (fill (fun d => (routes.lookup d).map Route.nextHop) ∅
    routes.keys).lookup d =
        (routes.lookup d).map Route.nextHop := by
    intro routes
    rw [lookup_fill, lookup_empty, or_none]
    split
    · rfl
    · rename_i hno
      rw [lookup_eq_none.2 fun h => hno (mem_keys.1 h)]
      rfl
  exact ⟨hfi t.routes, hfi t.dataRoutes⟩

theorem lookup_normalizedNextHops {nodeID : String} {routes : GoMap String} {keys : List String}
    (hke : keys.Perm routes.keys) (hgo : ∀ d v, routes.lookup d = some v →
      trimSpace d = d ∧ d ≠ "" ∧ trimSpace v = v ∧ v ≠ "" ∧ d ≠ nodeID) (d : String) :
    (Router.normalizedNextHops nodeID routes keys).lookup d = routes.lookup d := by
  have hfi : normalizedNextHops nodeID routes keys = fill (fun d => routes.lookup d) ∅ keys := by
    unfold normalizedNextHops fill
    refine foldl_ext _ _ _ ?_
    intro next x hx
    have hmem := mem_keys.2 (hke.mem_iff.1 hx)
    obtain ⟨v, hv⟩ := Option.isSome_iff_exists.1 (lookup_isSome.2 hmem)
    obtain ⟨h1, h2, h3, h4, h5⟩ := hgo x v hv
    simp [hv, h1, h2, h3, h4, h5]
  rw [hfi, lookup_fill, lookup_empty, or_none]
  split
  · rfl
  · rename_i hno
    rw [lookup_eq_none.2 fun h => hno (hke.mem_iff.2 (mem_keys.1 h))]

theorem keepCapable_self {r : Router} {dataRoutes : GoMap String} {keys : List String}
    (hke : keys.Perm dataRoutes.keys)
    (hcap : ∀ d v, dataRoutes.lookup d = some v → r.dataCapability v = true) :
    keepCapable r dataRoutes keys = dataRoutes := by
  have hkept : ∀ kept : GoMap String, ∀ x ∈ keys,
      (if r.dataCapability ((dataRoutes.lookup x).getD "") then kept else kept.erase x) = kept := by
    intro kept x hx
    have hmem := mem_keys.2 (hke.mem_iff.1 hx)
    obtain ⟨v, hv⟩ := Option.isSome_iff_exists.1 (lookup_isSome.2 hmem)
    rw [hv, Option.getD_some, if_pos (hcap x v hv)]
  unfold keepCapable
  refine foldlRecOn (motive := fun m => m = dataRoutes) keys _ rfl ?_
  intro m hm x hx
  rw [hkept m x hx, hm]

/-- Every member runs a router with its sessions attached: a link that both ends advertise for data
is an attached data-capable neighbor. -/
structure MeshOK (t : Topology) (base : String → Router) : Prop where
  database : DatabaseOK t
  trimmed : ∀ id ∈ t.members, trimSpace id = id
  nodeID : ∀ id ∈ t.members, (base id).nodeID = id
  running : ∀ id ∈ t.members, (base id).closed = false
  attached : ∀ u v, t.Confirmed true u v → (base u).dataCapability v = true

/-- The router of a node after it has installed the tables of its view. -/
def installed (order : String → RangeOrder) (t : Topology) (base : String → Router) (id : String) :
    Router :=
  syncRoutes (order id) ((t.seenFrom id).recomputeLocked (order id)) (base id)

variable {base : String → Router} {frame : DataFrame}

/-- **What is installed is the data route of the node's own view.** -/
theorem installed_spec (order : String → RangeOrder) (h : MeshOK t base) (hs : s ∈ t.members) :
    (installed order t base s).nodeID = s ∧ (installed order t base s).closed = false ∧
      (installed order t base s).neighbors = (base s).neighbors ∧
      (installed order t base s).dataRoutesAuthoritative = true ∧
      ∀ d, (installed order t base s).dataRoutes.lookup d =
        (routeFrom order t true s d).map Route.nextHop := by
  have hop := h.running s hs
  -- the next hops of the data table
  have hne : ∀ d v, ((t.seenFrom s).recomputeLocked (order s)).dataNextHops.lookup d = some v →
      ∃ r, routeFrom order t true s d = some r ∧ r.nextHop = v := by
    intro d v hv
    rw [(lookup_nextHops _ d).2] at hv
    exact map_eq_some_iff.1 hv
  have hcap : ∀ d v, ((t.seenFrom s).recomputeLocked (order s)).dataNextHops.lookup d = some v →
      (base s).dataCapability v = true := by
    intro d v hv
    obtain ⟨r, hr, rfl⟩ := hne d v hv
    exact h.attached s r.nextHop (route_first_hop h.database hs hr).2.1
  have hke := keepCapable_self ((order s).keys_perm 2 _) hcap
  unfold installed syncRoutes replaceRouteTables
  simp only [hke, hop, failIf, Bool.false_eq_true, if_false]
  refine ⟨h.nodeID s hs, rfl, rfl, rfl, ?_⟩
  intro d
  refine (lookup_normalizedNextHops ((order s).keys_perm 1 _) ?_ d).trans (lookup_nextHops _ d).2
  intro d v hv
  obtain ⟨r, hr, rfl⟩ := hne d v hv
  obtain ⟨-, hro⟩ := routeFrom_spec order true h.database hs d
  have hd : d ∈ t.members := (hro r hr).2.1.member
  have hv' : r.nextHop ∈ t.members := (next_hop_closer h.database hs hr).2.2
  refine ⟨h.trimmed d hd, ?_, h.trimmed _ hv', ?_, ?_⟩
  · rintro rfl
    exact h.database.nonempty hd
  · intro hem
    exact h.database.nonempty (hem ▸ hv')
  · rw [h.nodeID s hs]
    exact ((route_first_hop h.database hs hr).2.2).symm

/-- A router with installed tables forwards a frame to the next hop of its route. -/
theorem forwardData_installed (h : MeshOK t base) (hs : s ∈ t.members)
    (hr : routeFrom order t true s d = some r) (hd : frame.destination = d) :
    (installed order t base s).forwardData frame = .forwarded r.nextHop frame := by
  obtain ⟨-, hop, hnei, hau, hrou⟩ := installed_spec order h hs
  have hv : r.nextHop ≠ "" := fun hem => h.database.nonempty (hem ▸
    (next_hop_closer h.database hs hr).2.2)
  have hcap := h.attached s r.nextHop (route_first_hop h.database hs hr).2.1
  simp only [dataCapability, h.running s hs, Bool.not_false, Bool.true_and] at hcap
  obtain ⟨entry, hen, hda⟩ := (Option.any_eq_true _ _).1 hcap
  have hne : ((installed order t base s).dataRoutes.lookup d).getD "" = r.nextHop := by
    rw [hrou, hr]
    rfl
  have hloo : (installed order t base s).lookupData d = .ok r.nextHop := by
    simp only [lookupData, hop, hau, hnei, hne, hv, if_false, not_true_eq_false, false_and,
      Bool.false_eq_true]
    rw [hne, hen]
    exact if_pos hda
  rw [forwardData, hd, hloo]

/-! ## Frames -/

theorem validateDataFrame_hopLimit (h : validateDataFrame frame = .ok ()) :
    1 ≤ frame.hopLimit.toNat := by
  simp only [validateDataFrame, Except.bind_ok_iff, Except.failIf_ok_iff] at h
  obtain ⟨-, -, -, -, -, -, -, hli, -⟩ := h
  by_contra hze
  refine hli (.inl (UInt8.toNat_inj.1 ?_))
  simpa using hze

theorem toNat_decrement {n : UInt8} (h : ¬ n ≤ 1) : (n - 1).toNat = n.toNat - 1 := by
  rw [UInt8.toNat_sub_of_le _ _ (UInt8.le_of_lt (UInt8.not_le.1 h))]
  rfl

theorem validateDataFrame_decrement (h : validateDataFrame frame = .ok ())
    (hli : ¬ frame.hopLimit ≤ 1) :
    validateDataFrame { frame with hopLimit := frame.hopLimit - 1 } = .ok () := by
  simp only [validateDataFrame, Except.bind_ok_iff, Except.failIf_ok_iff] at h ⊢
  obtain ⟨_, h1, _, h2, _, h3, _, h4, hre⟩ := h
  refine ⟨(), h1, (), h2, (), h3, (), ?_, hre⟩
  have hsub := toNat_decrement hli
  rw [not_or] at h4 ⊢
  rw [UInt8.not_le, UInt8.lt_iff_toNat_lt] at hli
  constructor
  · intro hze
    have := congrArg UInt8.toNat hze
    rw [hsub] at this
    simp at this hli
    omega
  · have h64 := h4.2
    rw [gt_iff_lt, UInt8.lt_iff_toNat_lt] at h64 ⊢
    rw [hsub]
    omega

/-- A frame that arrives from the node before it on the path passes the checks. -/
theorem handleInboundData_installed (h : MeshOK t base) (hs : s ∈ t.members)
    (hr : routeFrom order t true s d = some r) (hva : validateDataFrame frame = .ok ())
    (hd : frame.destination = d) :
    (installed order t base r.nextHop).handleInboundData s frame =
      if r.nextHop = d then .delivered frame
      else if frame.hopLimit ≤ 1 then .dropped (.router .hopLimitExceeded)
      else (installed order t base r.nextHop).forwardData
        { frame with hopLimit := frame.hopLimit - 1 } := by
  have hv := (next_hop_closer h.database hs hr).2.2
  obtain ⟨hid, hop, hnei, -, -⟩ := installed_spec order h hv
  -- the link is confirmed in both directions, so the sender is a neighbor
  have hba : t.Confirmed true r.nextHop s := by
    obtain ⟨hu, hw, l, l', hl, hl', hda⟩ := (route_first_hop h.database hs hr).2.1
    exact ⟨hw, hu, l', l, hl', hl, fun ht => ⟨(hda ht).2, (hda ht).1⟩⟩
  have hcap := h.attached r.nextHop s hba
  simp only [dataCapability, h.running _ hv, Bool.not_false, Bool.true_and] at hcap
  obtain ⟨entry, hen, -⟩ := (Option.any_eq_true _ _).1 hcap
  have hsne : s ≠ "" := fun hem => h.database.nonempty (hem ▸ hs)
  have hneig : (installed order t base r.nextHop).hasNeighbor (trimSpace s) = true := by
    rw [h.trimmed s hs]
    simp [hasNeighbor, hsne, hop, hnei, hen]
  have hde : (d = r.nextHop) = (r.nextHop = d) := propext eq_comm
  rw [handleInboundData, if_neg (not_not.2 hneig), hva]
  dsimp only
  simp only [hd, hid, hde]

/-- The hop counts of the nodes that a frame passes: one less at each of them. -/
def Descends (order : String → RangeOrder) (t : Topology) (d : String) (n : ℕ)
    (nodes : List String) : Prop :=
  nodes.map (hopsTo order t true d) = (range nodes.length).map fun i => some (n - i)

theorem Descends.cons {n : ℕ} {nodes : List String} (hv : hopsTo order t true d v = some n)
    (h : Descends order t d (n - 1) nodes) : Descends order t d n (v :: nodes) := by
  unfold Descends at *
  rw [map_cons, hv, h, length_cons, range_succ_eq_map, map_cons, map_map]
  congr 1
  refine map_congr_left ?_
  intro i _
  simp only [Function.comp_apply]
  congr 1
  omega

/-- **A frame on its way.** It is delivered after as many hops as the route counts when its hop
limit allows that many, and else dropped after as many as the limit allows. -/
theorem travel_spec (order : String → RangeOrder) (h : MeshOK t base) (n : ℕ) :
    ∀ (s : String) (r : Route) (frame : DataFrame) (fuel : ℕ),
    s ∈ t.members → routeFrom order t true s d = some r → r.hopCount = n + 1 →
      validateDataFrame frame = .ok () →
    frame.destination = d → frame.hopLimit.toNat ≤ fuel →
    ∃ nodes, Descends order t d n nodes ∧
      ((n + 1 ≤ frame.hopLimit.toNat ∧ nodes.length = n + 1 ∧ nodes.getLast? = some d ∧
          travel (installed order t base) fuel s (.forwarded r.nextHop frame) =
            (nodes, .delivered { frame with hopLimit := frame.hopLimit - UInt8.ofNat n })) ∨
        (frame.hopLimit.toNat < n + 1 ∧ nodes.length = frame.hopLimit.toNat ∧
          travel (installed order t base) fuel s (.forwarded r.nextHop frame) =
            (nodes, .dropped (.router .hopLimitExceeded)))) := by
  induction n with
  | zero =>
    intro s r frame fuel hs hr hco hva hd hfu
    obtain ⟨-, hnext, hv⟩ := next_hop_closer h.database hs hr
    have hli := validateDataFrame_hopLimit hva
    obtain ⟨fuel, rfl⟩ : ∃ f, fuel = f + 1 := ⟨fuel - 1, by omega⟩
    rw [hco] at hnext
    have hvd := hopsTo_zero h.database hv hnext
    refine ⟨[r.nextHop], Descends.cons hnext rfl, .inl ⟨hli, rfl, by rw [hvd]; rfl, ?_⟩⟩
    rw [travel, handleInboundData_installed h hs hr hva hd, if_pos hvd, travel]
    · simp
    · intro _ _ _ _ hno
      cases hno
  | succ n ih =>
    intro s r frame fuel hs hr hco hva hd hfu
    obtain ⟨-, hnext, hv⟩ := next_hop_closer h.database hs hr
    have hli := validateDataFrame_hopLimit hva
    obtain ⟨fuel, rfl⟩ : ∃ f, fuel = f + 1 := ⟨fuel - 1, by omega⟩
    rw [hco, Nat.add_sub_cancel] at hnext
    obtain ⟨hvd, r', hr', hco'⟩ := hopsTo_succ hnext
    by_cases hla : frame.hopLimit ≤ 1
    · -- the limit is used up
      have hone : frame.hopLimit.toNat = 1 := by
        rw [UInt8.le_iff_toNat_le] at hla
        simp at hla
        omega
      refine ⟨[r.nextHop], Descends.cons hnext rfl, .inr ⟨by omega, hone.symm, ?_⟩⟩
      rw [travel, handleInboundData_installed h hs hr hva hd, if_neg hvd, if_pos hla, travel]
      intro _ _ _ _ hno
      cases hno
    · have hsub := toNat_decrement hla
      obtain ⟨nodes, hde, hca⟩ := ih r.nextHop r' { frame with hopLimit := frame.hopLimit - 1 } fuel
        hv hr' hco'
        (validateDataFrame_decrement hva hla) hd (by simp only [hsub]; omega)
      have hst : (installed order t base r.nextHop).handleInboundData s frame =
          .forwarded r'.nextHop { frame with hopLimit := frame.hopLimit - 1 } := by
        rw [handleInboundData_installed h hs hr hva hd, if_neg hvd, if_neg hla]
        exact forwardData_installed h hv hr' hd
      refine ⟨r.nextHop :: nodes, Descends.cons hnext hde, ?_⟩
      rw [travel, hst]
      simp only [hsub] at hca
      rcases hca with ⟨heno, hlen, hend, htra⟩ | ⟨hsh, hlen, htra⟩
      · have hne : nodes ≠ [] := by
          rintro rfl
          cases hend
        refine .inl ⟨by omega, by rw [length_cons, hlen], by rw [getLast?_cons_of_ne_nil hne, hend], ?_⟩
        rw [htra]
        have hmi : frame.hopLimit - 1 - UInt8.ofNat n = frame.hopLimit - UInt8.ofNat (n + 1) := by
          rw [UInt8.ofNat_add]
          grind
        rw [hmi]
      · refine .inr ⟨by omega, by rw [length_cons, hlen]; omega, ?_⟩
        rw [htra]

theorem Descends.nodup {n : ℕ} {nodes : List String} (h : Descends order t d n nodes)
    (hlen : nodes.length ≤ n + 1) :
    nodes.Nodup := by
  refine List.Nodup.of_map (hopsTo order t true d) ?_
  rw [h]
  refine List.Nodup.map_on ?_ nodup_range
  intro i hi j hj heq
  rw [mem_range] at hi hj
  have := some.inj heq
  omega

/-- **Shared views forward without loops.** Over one database, the hop count to a destination falls
by one at every next hop, and following next hops reaches the destination after as many hops as the
route counts, in the control graph and in the data graph. A data frame passes no node twice: it is
delivered when the hop limit it is originated with is at least the hop count, and dropped when it is
smaller. -/
theorem forwarding_loop_free (order : String → RangeOrder) (t : Topology) (hdb : DatabaseOK t) :
    (∀ dataOnly s d r, s ∈ t.members → routeFrom order t dataOnly s d = some r →
      1 ≤ r.hopCount ∧ hopsTo order t dataOnly d r.nextHop = some (r.hopCount - 1) ∧
      follow order t dataOnly d r.hopCount s = some d ∧
      ∀ k ≤ r.hopCount, ∃ v, follow order t dataOnly d k s = some v ∧
        hopsTo order t dataOnly d v = some (r.hopCount - k)) ∧
    ∀ base, MeshOK t base → ∀ s d r frame sent fuel, s ∈ t.members →
      routeFrom order t true s d = some r →
      (installed order t base s).originate frame = .ok sent → sent.destination = d →
        sent.hopLimit.toNat ≤ fuel →
      ∃ nodes, nodes.Nodup ∧ Descends order t d (r.hopCount - 1) nodes ∧
        (r.hopCount ≤ sent.hopLimit.toNat → nodes.length = r.hopCount ∧ nodes.getLast? = some d ∧
          ∃ last, travel (installed order t base) fuel s ((installed order t base s).sendData frame) =
            (nodes, .delivered { sent with hopLimit := last })) ∧
        (sent.hopLimit.toNat < r.hopCount → nodes.length = sent.hopLimit.toNat ∧
          travel (installed order t base) fuel s ((installed order t base s).sendData frame) =
            (nodes, .dropped (.router .hopLimitExceeded))) := by
  constructor
  · intro dataOnly s d r hs hr
    obtain ⟨hpos, hnext, -⟩ := next_hop_closer hdb hs hr
    have hhops : hopsTo order t dataOnly d s = some r.hopCount := by
      rw [hopsTo, if_neg (route_first_hop hdb hs hr).2.2, hr]
      rfl
    obtain ⟨hend, hall⟩ := follow_spec hdb r.hopCount s hs hhops
    exact ⟨hpos, hnext, hend, hall⟩
  · intro base h s d r frame sent fuel hs hr horig hd hfuel
    have hpos := (next_hop_closer hdb hs hr).1
    have hvalid : validateDataFrame sent = .ok () := by
      simp only [originate, Except.bind_ok_iff, Except.failIf_ok_iff, mapError_ok_iff] at horig
      obtain ⟨_, _, ⟨⟩, hvalid, hret⟩ := horig
      cases hret
      exact hvalid
    have hsend : (installed order t base s).sendData frame = .forwarded r.nextHop sent := by
      have hne : sent.destination ≠ (installed order t base s).nodeID := by
        rw [hd, (installed_spec order h hs).1]
        exact ((route_first_hop hdb hs hr).2.2).symm
      rw [sendData, horig]
      dsimp only
      rw [if_neg hne]
      exact forwardData_installed h hs hr hd
    rw [hsend]
    obtain ⟨nodes, hdesc, hcases⟩ := travel_spec order h (r.hopCount - 1) s r sent fuel hs hr (by omega)
      hvalid hd hfuel
    rcases hcases with ⟨henough, hlen, hend, htravel⟩ | ⟨hshort, hlen, htravel⟩
    · refine ⟨nodes, hdesc.nodup (by omega), hdesc, fun _ => ⟨by omega, hend, _, htravel⟩, fun hlt => ?_⟩
      omega
    · refine ⟨nodes, hdesc.nodup (by omega), hdesc, fun hge => ?_, fun _ => ⟨hlen, htravel⟩⟩
      omega

/-! ## A sample mesh -/

section Sample

theorem sampleTopology_database : DatabaseOK sampleTopology :=
  ⟨fun h => sampleTopology_wellFormed.nonempty (mem_cons_of_mem _ (mem_keys.1 h)),
    sampleTopology_wellFormed.unique⟩

/-- Every node of the sample is attached to every other one. -/
def sampleRouter (id : String) : Router where
  nodeID := id
  seenTTL := defaultSeenTTL
  seq := 1
  closed := false
  neighbors := (["a", "b", "c", "d"].erase id).map (fun peer =>
    (⟨peer, 0, .packet, true, true⟩ : Sigma fun _ => NeighborEntry)) |>.toAList
  routes := ∅
  dataRoutes := ∅
  dataRoutesAuthoritative := false
  seen := []

theorem sampleRouter_ok : MeshOK sampleTopology sampleRouter where
  database := sampleTopology_database
  trimmed := by
    have hall : ∀ id ∈ sampleTopology.members.keys, trimSpace id = id := by decide +kernel
    exact fun id hid => hall id (mem_keys.1 hid)
  nodeID _ _ := rfl
  running _ _ := rfl
  attached u v h := by
    have hall : ∀ u ∈ sampleTopology.members.keys, ∀ v ∈ sampleTopology.members.keys,
        (sampleTopology.link? u v).isSome = true →
        (sampleRouter u).dataCapability v = true := by decide +kernel
    obtain ⟨hu, hv, l, -, hlink, -⟩ := h
    exact hall u (mem_keys.1 hu) v (mem_keys.1 hv) (hlink ▸ rfl)

def sampleFrame (hopLimit : UInt8) : DataFrame := ⟨0, .packet, 0, hopLimit, "", "d", 7, 0, [1]⟩

/-- The far corner is two hops away in the data graph: a limit of two is enough and a limit of one
is not. -/
theorem forwarding_loop_free_sample :
    (∃ nodes last, nodes.length = 2 ∧
      travel (installed (fun _ => insertionOrder) sampleTopology sampleRouter) 2 "a"
        ((installed (fun _ => insertionOrder) sampleTopology sampleRouter "a").sendData
          (sampleFrame 2)) =
          (nodes, .delivered ⟨1, .packet, 0, last, "a", "d", 7, 0, [1]⟩)) ∧
      travel (installed (fun _ => insertionOrder) sampleTopology sampleRouter) 1 "a"
        ((installed (fun _ => insertionOrder) sampleTopology sampleRouter "a").sendData
          (sampleFrame 1)) =
          (["b"], .dropped (.router .hopLimitExceeded)) := by
  refine ⟨?_, by decide +kernel⟩
  obtain ⟨nodes, -, -, henough, -⟩ := (forwarding_loop_free (fun _ => insertionOrder) sampleTopology
    sampleTopology_database).2 sampleRouter sampleRouter_ok "a" "d" ⟨"d", "b", 2, 6000000,
      ["a", "b", "d"]⟩ (sampleFrame 2)
    ⟨1, .packet, 0, 2, "a", "d", 7, 0, [1]⟩ 2 (by decide +kernel) (by decide +kernel)
      (by decide +kernel) rfl (by decide)
  obtain ⟨hlen, -, last, htravel⟩ := henough (by decide)
  exact ⟨nodes, last, hlen, htravel⟩

end Sample

end Winkyou.Mesh
