import Mathlib.Algebra.Order.BigOperators.Group.List
import Mathlib.Algebra.Group.Int.Defs
import Winkyou.Proof.Mesh.Graph

/-!
# Computed routes are best paths

The search is a label-setting search (`Lib.LabelSetting`) for every order of paths that agrees with
the comparisons of the code. Two orders are used: by hops alone, for which nothing is assumed about
round-trip times, and by hops, round-trip time and path, for topologies whose path times fit in an
`int64`.

* `search_best`: the label of a node is a best path, and every node that has a path has a label.
* `computeRoutesLocked_spec`: the routes that are computed, for any such order.
* `computeRoutesLocked_optimal`: they are the best admissible paths.
-/

namespace Winkyou.Mesh

open Winkyou.Mesh.Topology LabelSetting List Option Function AList
open Prod.Lex (toLex_le_toLex toLex_lt_toLex)
open Function (update_of_ne update_self update)

variable {t : Topology} {o : RangeOrder} {excluded : List String} {dataOnly : Bool} {u v d : String}
  {p q : List String}

/-! ## The cost of a path -/

namespace Topology

/-- The round-trip time that the search adds up along a path, in an `int64`. -/
def addedRTT (t : Topology) (p : List String) : Duration :=
  (p.zip p.tail).foldl (fun rtt e => int64 (rtt + t.linkRTT e.1 e.2)) 0

/-- The cost that the search gives to a path. -/
def costOfPath (t : Topology) (p : List String) : PathCost := ⟨p.length - 1, t.addedRTT p⟩

/-- The paths of the search. -/
def IsWalk (t : Topology) (excluded : List String) (dataOnly : Bool) :
    List String → String → Prop :=
  Walk (t.graph excluded dataOnly) t.localID

end Topology

theorem zip_tail_snoc {α : Type*} {p : List α} {u : α} (hu : p.getLast? = some u) (v : α) :
    (p ++ [v]).zip (p ++ [v]).tail = p.zip p.tail ++ [(u, v)] := by
  induction p with
  | nil => cases hu
  | cons a p ih =>
    cases p with
    | nil =>
      cases hu
      rfl
    | cons b p =>
      have hta := ih (by rwa [getLast?_cons_cons] at hu)
      simp only [cons_append, tail_cons, zip_cons_cons] at hta ⊢
      rw [hta]

theorem addedRTT_snoc (hu : p.getLast? = some u) (v : String) :
    t.addedRTT (p ++ [v]) = int64 (t.addedRTT p + t.linkRTT u v) := by
  rw [addedRTT, zip_tail_snoc hu, foldl_append]
  rfl

theorem pathRTT_snoc (hu : p.getLast? = some u) (v : String) :
    t.pathRTT (p ++ [v]) = t.pathRTT p + t.linkRTT u v := by
  rw [pathRTT, zip_tail_snoc hu, map_append, sum_append]
  simp [pathRTT]

theorem costOfPath_snoc (hu : p.getLast? = some u) (v : String) :
    t.costOfPath (p ++ [v]) = ⟨(t.costOfPath p).hops + 1,
      int64 ((t.costOfPath p).rtt + t.linkRTT u v)⟩ := by
  have hne : p ≠ [] := by
    rintro rfl
    cases hu
  have hpos := length_pos_iff.2 hne
  simp only [costOfPath, addedRTT_snoc hu, length_append, length_singleton, PathCost.mk.injEq, and_true]
  omega

/-! ## The search, for an order of paths -/

/-- The order agrees with the comparisons of the search. -/
structure Agrees {C : Type} [LinearOrder C] (t : Topology) (excluded : List String)
    (dataOnly : Bool) (O : PathOrder (t.graph excluded dataOnly) t.localID C) : Prop where
  select : ∀ {p q u v}, t.IsWalk excluded dataOnly p u → t.IsWalk excluded dataOnly q v →
    (t.costOfPath p).key ≤ (t.costOfPath q).key → O.cost p ≤ O.cost q
  replace : ∀ {p q v}, t.IsWalk excluded dataOnly p v → t.IsWalk excluded dataOnly q v →
    Label.key (t.costOfPath p, p) ≤ Label.key (t.costOfPath q, q) → O.le p q

def pathLabels (label : String → Option Label) (id : String) : Option (List String) :=
  (label id).map Prod.snd

theorem pathLabels_some {label : String → Option Label} :
    pathLabels label v = some p ↔ ∃ c, label v = some (c, p) := by
  rw [pathLabels, map_eq_some_iff]
  constructor
  · rintro ⟨⟨c, p'⟩, h, rfl⟩
    exact ⟨c, h⟩
  · rintro ⟨c, h⟩
    exact ⟨(c, p), h, rfl⟩

theorem pathLabels_update (label : String → Option Label) (l : Label) :
    pathLabels (update label v (some l)) = update (pathLabels label) v (some l.2) := by
  funext x
  rcases eq_or_ne x v with rfl | hx
  · simp [pathLabels]
  · simp [pathLabels, hx]

/-- The cost of each label is the one of its path. -/
def Costed (t : Topology) (label : String → Option Label) : Prop :=
  ∀ v l, label v = some l → l.1 = t.costOfPath l.2

section Order

variable {C : Type} [LinearOrder C] {O : PathOrder (t.graph excluded dataOnly) t.localID C}

/-- The labels of a search with the visited nodes `S`. -/
structure LabelsOK (O : PathOrder (t.graph excluded dataOnly) t.localID C) (S : Set String)
    (label : String → Option Label) : Prop where
  search : LabelSetting.Search O S (pathLabels label)
  costed : Costed t label

variable {S : Set String} {label : String → Option Label} {visited : List String} {l : Label}

theorem key_le_of_not_labelLess {a b : Label} (h : ¬ labelLess a b = true) : b.key ≤ a.key :=
  not_lt.1 fun hlt => h (labelLess_iff.2 hlt)

theorem relaxLabel_ok (ha : Agrees t excluded dataOnly O) (h : LabelsOK O S label)
    (hS : ∀ x, x ∈ visited ↔ x ∈ S) (hsrc : t.localID ∈ S) (huS : u ∈ S) (hl : label u = some l)
    (hu : u = t.localID ∨ t.TransitAllowed u) {e : GraphEdge}
    (he : (t.graph excluded dataOnly).edge u e.target) (hrtt : e.rtt = t.linkRTT u e.target) :
    LabelsOK O S (relaxLabel visited l label e) ∧
      Improves O S (pathLabels label) (pathLabels (relaxLabel visited l label e)) ∧
      (e.target ∉ S → Relaxed O (pathLabels (relaxLabel visited l label e)) u e.target) := by
  unfold relaxLabel
  by_cases hvis : e.target ∈ visited
  · rw [if_pos hvis]
    exact ⟨h, .refl _, fun hno => absurd ((hS _).1 hvis) hno⟩
  rw [if_neg hvis]
  have hvS : e.target ∉ S := fun hmem => hvis ((hS _).2 hmem)
  have hpa : pathLabels label u = some l.2 := pathLabels_some.2 ⟨l.1, hl⟩
  -- the path that is offered is a walk, and its cost is the one that the code compares
  obtain ⟨hwa, hmem⟩ := h.search.extend huS hvS hu he hpa
  have hco : (offer l e).1 = t.costOfPath (offer l e).2 := by
    have hla := (h.search.walk u l.2 hpa).1.getLast?
    have heq := costOfPath_snoc (t := t) hla e.target
    simp only [offer]
    rw [heq, ← h.costed u l hl, hrtt]
  have hnew : LabelsOK O S (update label e.target (some (offer l e))) := by
    refine ⟨?_, ?_⟩
    · rw [pathLabels_update]
      exact h.search.relabel hvS hsrc hwa hmem
    · intro x m hm
      rcases eq_or_ne x e.target with rfl | hx
      · rw [update_self] at hm
        cases hm
        exact hco
      · rw [update_of_ne hx] at hm
        exact h.costed x m hm
  have hown : pathLabels (update label e.target (some (offer l e))) u = some l.2 := by
    rw [pathLabels_update, update_of_ne, hpa]
    rintro rfl
    exact hvS huS
  have hrel : Relaxed O (pathLabels (update label e.target (some (offer l e)))) u e.target := by
    intro p hp
    cases hown.symm.trans hp
    rw [pathLabels_update, update_self]
    exact ⟨_, rfl, O.refl _⟩
  cases hkn : label e.target with
  | none =>
    refine ⟨hnew, ?_, fun _ => hrel⟩
    rw [improve, pathLabels_update]
    refine .update hvS ?_
    intro p hp
    rw [pathLabels, hkn] at hp
    cases hp
  | some known =>
    have hkno : pathLabels label e.target = some known.2 := pathLabels_some.2 ⟨known.1, hkn⟩
    have hknow := (h.search.walk e.target known.2 hkno).1
    have hknownC := h.costed e.target known hkn
    rw [improve]
    by_cases hle : labelLess (offer l e) known = true
    · rw [if_pos hle]
      refine ⟨hnew, ?_, fun _ => hrel⟩
      rw [pathLabels_update]
      refine .update hvS ?_
      intro p hp
      cases hkno.symm.trans hp
      refine ha.replace hwa hknow ?_
      rw [← hknownC]
      exact hco ▸ (labelLess_iff.1 hle).le
    · rw [if_neg hle, ← hkn, update_eq_self]
      refine ⟨h, .refl _, ?_⟩
      intro _ p hp
      cases hpa.symm.trans hp
      refine ⟨known.2, hkno, ha.replace hknow hwa ?_⟩
      rw [← hknownC]
      exact hco ▸ key_le_of_not_labelLess hle

theorem foldl_relaxLabel_ok (visited : List String) (ha : Agrees t excluded dataOnly O)
    (hS : ∀ x, x ∈ visited ↔ x ∈ S) (hsrc : t.localID ∈ S) (huS : u ∈ S)
    (hu : u = t.localID ∨ t.TransitAllowed u) (edges : List GraphEdge)
    (hed : ∀ e ∈ edges, (t.graph excluded dataOnly).edge u e.target ∧ e.rtt = t.linkRTT u e.target) :
    ∀ label, LabelsOK O S label → label u = some l →
      LabelsOK O S (edges.foldl (relaxLabel visited l) label) ∧
        Improves O S (pathLabels label) (pathLabels (edges.foldl (relaxLabel visited l) label)) ∧
        ∀ e ∈ edges, e.target ∉ S → Relaxed O
          (pathLabels (edges.foldl (relaxLabel visited l) label)) u e.target := by
  induction edges with
  | nil => exact fun label h _ => ⟨h, .refl _, by simp⟩
  | cons e edges ih =>
    intro label h hl
    obtain ⟨he, hrtt⟩ := hed e mem_cons_self
    obtain ⟨h1, himp1, hrel1⟩ := relaxLabel_ok ha h hS hsrc huS hl hu he hrtt
    have hl1 : relaxLabel visited l label e u = some l := by
      rw [relaxLabel]
      split
      · exact hl
      · rw [update_of_ne, hl]
        rintro rfl
        exact absurd ((hS _).2 huS) ‹_›
    obtain ⟨h2, himp2, hrel2⟩ := ih (fun f hf => hed f (mem_cons_of_mem _ hf)) _ h1 hl1
    refine ⟨h2, himp1.trans himp2, ?_⟩
    intro f hf hfS
    rcases mem_cons.1 hf with rfl | hf
    · exact (hrel1 hfS).improves himp2 huS
    · exact hrel2 f hf hfS

/-- What every visit keeps: the labels are those of a search that has visited the local node
first. -/
structure BestSoFar (O : PathOrder (t.graph excluded dataOnly) t.localID C) (s : Mesh.Search) :
    Prop where
  labels : LabelsOK O {x | x ∈ s.visited} s.label
  closed : Closed O {x | x ∈ s.visited} (pathLabels s.label)
  start : t.localID ∈ s.visited ∨ s.visited = [] ∧ ∀ x ∈ s.dist.keys, x = t.localID

theorem expands_iff : t.expands u = true ↔ u = t.localID ∨ t.TransitAllowed u := by
  simp only [expands, Topology.TransitAllowed, Bool.or_eq_true, decide_eq_true_eq, Option.any_eq_true]

theorem cost_key_le {s : Mesh.Search} (h : s.nodeKey u ≤ s.nodeKey v) :
    (s.distOf u).key ≤ (s.distOf v).key := by
  unfold Mesh.Search.nodeKey PathCost.key at *
  rw [toLex_le_toLex] at h ⊢
  rcases h with h | ⟨heq, h⟩
  · exact .inl h
  · refine .inr ⟨heq, ?_⟩
    rw [toLex_le_toLex] at h
    rcases h with h | h
    · exact h.le
    · exact h.1.le

/-- **A visit of the least open node** keeps the labels best. -/
theorem BestSoFar.visit (hwf : t.WellFormed) (ha : Agrees t excluded dataOnly O) {s : Mesh.Search}
    (hok : SearchOK t s) (h : BestSoFar O s) (hle : s.Least u) :
    BestSoFar O (t.visit (t.adjacency o excluded dataOnly) s u) := by
  obtain ⟨⟨huk, huS⟩, hmin⟩ := hle
  obtain ⟨l, hl⟩ := isSome_iff_exists.1 (hok.paired.mem_keys.1 huk)
  obtain ⟨-, hvis, hla⟩ := @visit_label s u o t excluded dataOnly l hok.paired hl
  have hpa : pathLabels s.label u = some l.2 := pathLabels_some.2 ⟨l.1, hl⟩
  have hset : {x | x ∈ u :: s.visited} = insert u {x | x ∈ s.visited} := by
    ext x
    simp
  -- the node has the least cost of all that are open
  have hsett : LabelSetting.Search O {x | x ∈ u :: s.visited} (pathLabels s.label) := by
    rw [hset]
    refine h.labels.search.settle h.closed huS hpa ?_
    intro x r hxS hr
    obtain ⟨c, hx⟩ := pathLabels_some.1 hr
    have hxo : s.Open x := ⟨hok.paired.mem_keys.2 (by rw [hx]; rfl), hxS⟩
    have hkey := cost_key_le (hmin x hxo)
    rw [Search.distOf_of_label hl, Search.distOf_of_label hx, h.labels.costed u l hl,
      h.labels.costed x _ hx] at hkey
    exact ha.select (h.labels.search.walk u l.2 hpa).1 (h.labels.search.walk x r hr).1 hkey
  have hsrc : t.localID ∈ {x | x ∈ u :: s.visited} := by
    rcases h.start with hin | ⟨-, hon⟩
    · exact mem_cons_of_mem _ hin
    · exact mem_cons.2 (.inl (hon u huk).symm)
  have huS' : u ∈ {x | x ∈ u :: s.visited} := mem_cons_self
  have hst : t.localID ∈ (t.visit (t.adjacency o excluded dataOnly) s u).visited := by
    rw [hvis]
    exact hsrc
  by_cases hexp : t.expands u = true
  · have hlab : (t.visit (t.adjacency o excluded dataOnly) s u).label =
        (t.edgesFrom excluded dataOnly u).foldl (relaxLabel (u :: s.visited) l) s.label := by
      rw [hla, visitLabel, if_pos hexp]
    obtain ⟨hgo, himp, hrel⟩ := foldl_relaxLabel_ok (u :: s.visited) ha (fun x => Iff.rfl) hsrc huS'
      (expands_iff.1 hexp) _ (fun e he => (mem_edgesFrom_iff hwf).1 he) s.label ⟨hsett,
        h.labels.costed⟩ hl
    refine ⟨?_, ?_, .inl hst⟩
    · rw [hvis, hlab]
      exact hgo
    · rw [hvis, hlab]
      intro x hx y hy htr he
      rcases mem_cons.1 hx with rfl | hx
      · exact hrel ⟨y, t.linkRTT x y⟩ ((mem_edgesFrom_iff hwf).2 ⟨he, rfl⟩) hy
      · have hold := h.closed x hx y (fun hmem => hy (mem_cons_of_mem _ hmem)) htr he
        exact hold.improves himp (mem_cons_of_mem _ hx)
  · -- the node is not passed through: no edge of it counts
    have hlab : (t.visit (t.adjacency o excluded dataOnly) s u).label = s.label := by
      rw [hla, visitLabel, if_neg hexp]
    refine ⟨?_, ?_, .inl hst⟩
    · rw [hvis, hlab]
      exact ⟨hsett, h.labels.costed⟩
    · rw [hvis, hlab]
      intro x hx y hy htr he
      rcases mem_cons.1 hx with rfl | hx
      · exact absurd (expands_iff.2 htr) hexp
      · exact h.closed x hx y (fun hmem => hy (mem_cons_of_mem _ hmem)) htr he

theorem initialSearch_best : BestSoFar O t.initialSearch := by
  have hpa : pathLabels t.initialSearch.label =
      update (fun _ => none) t.localID (some [t.localID]) := by
    rw [initialSearch_label, pathLabels_update]
    rfl
  refine ⟨⟨⟨?_, ?_, ?_⟩, ?_⟩, ?_, .inr ⟨rfl, ?_⟩⟩
  · rw [hpa, update_self]
  · intro v p hp
    rw [hpa] at hp
    rcases eq_or_ne v t.localID with rfl | hv
    · rw [update_self] at hp
      cases hp
      exact ⟨.source, fun x hx => .inl (mem_singleton.1 hx)⟩
    · rw [update_of_ne hv] at hp
      cases hp
  · intro v hv
    cases hv
  · intro v l hl
    rw [initialSearch_label] at hl
    rcases eq_or_ne v t.localID with rfl | hv
    · rw [update_self] at hl
      cases hl
      rfl
    · rw [update_of_ne hv] at hl
      cases hl
  · intro v hv
    cases hv
  · intro x hx
    by_contra hne
    rw [← AList.mem_keys, ← lookup_isSome, initialSearch_dist, if_neg hne] at hx
    cases hx

/-- **The labels of the search are best paths**, and every node that has a path has one. -/
theorem search_best (hwf : t.WellFormed) (ha : Agrees t excluded dataOnly O) :
    (∀ v l, (t.search o excluded dataOnly).label v = some l →
      t.IsWalk excluded dataOnly l.2 v ∧ l.1 = t.costOfPath l.2 ∧
        ∀ q, t.IsWalk excluded dataOnly q v → O.le l.2 q) ∧
      ∀ v q, t.IsWalk excluded dataOnly q v → ∃ l, (t.search o excluded dataOnly).label v = some l := by
  obtain ⟨hok, hdo⟩ := @search_done o t excluded dataOnly hwf.nonempty
  have hbe : BestSoFar O (t.search o excluded dataOnly) :=
    (searchLoop_invariant (fun s u hok h hle => h.visit hwf ha hok hle) _ _
      (initialSearch_ok hwf.nonempty) initialSearch_best).2
  have hall : ∀ x p, pathLabels (t.search o excluded dataOnly).label x = some p →
      x ∈ (t.search o excluded dataOnly).visited := by
    intro x p hp
    obtain ⟨c, hx⟩ := pathLabels_some.1 hp
    by_contra hno
    exact hdo x ⟨hok.paired.mem_keys.2 (by rw [hx]; rfl), hno⟩
  constructor
  · intro v l hl
    have hp : pathLabels (t.search o excluded dataOnly).label v = some l.2 := pathLabels_some.2 ⟨l.1, hl⟩
    obtain ⟨p, hp', hmin⟩ := hbe.labels.search.best v (hall v l.2 hp)
    cases hp.symm.trans hp'
    exact ⟨(hbe.labels.search.walk v l.2 hp).1, hbe.labels.costed v l hl, hmin⟩
  · intro v q hq
    obtain ⟨p, hp, -⟩ := hbe.labels.search.complete hbe.closed hall hq
    obtain ⟨c, hl⟩ := pathLabels_some.1 hp
    exact ⟨(c, p), hl⟩

/-! ## Routes, for an order of paths -/

/-- What the route of a path says about it. -/
structure RouteOf (t : Topology) (d : String) (r : Route) : Prop where
  destination : r.destination = d
  hopCount : r.hopCount = r.path.length - 1
  rtt : r.rtt = t.addedRTT r.path
  nextHop : r.path.tail.head? = some r.nextHop

theorem admissible_ne_local (h : t.AdmissiblePath excluded dataOnly p d) : d ≠ t.localID := by
  rintro rfl
  obtain ⟨s, rfl⟩ := head?_eq_some_iff.1 h.first
  have hla := h.last
  have hhop := h.hop
  cases s with
  | nil => simp at hhop
  | cons a s =>
    rw [getLast?_cons_cons] at hla
    exact (nodup_cons.1 h.simple).1 (mem_of_getLast? hla)

theorem Topology.AdmissiblePath.member (h : t.AdmissiblePath excluded dataOnly p d) :
    d ∈ t.members := by
  cases (walk_iff_admissible.2 h).1 with
  | source => exact absurd rfl (admissible_ne_local h)
  | snoc _ _ he _ => exact he.1.2.1

/-- **The computed routes are best paths**, for every order that agrees with the code. -/
theorem computeRoutesLocked_spec (hwf : t.WellFormed) (ha : Agrees t excluded dataOnly O)
    (d : String) :
    (((t.computeRoutesLocked o excluded dataOnly).lookup d).isSome = true ↔
      ∃ p, t.AdmissiblePath excluded dataOnly p d) ∧
      ∀ r, (t.computeRoutesLocked o excluded dataOnly).lookup d = some r →
        RouteOf t d r ∧ t.AdmissiblePath excluded dataOnly r.path d ∧
          ∀ q, t.AdmissiblePath excluded dataOnly q d → O.le r.path q := by
  obtain ⟨hso, hcom⟩ := @search_best t o excluded dataOnly C _ O hwf ha
  rw [lookup_computeRoutesLocked hwf.nonempty]
  have hro : ∀ r, routeOfLabel t.localID d ((t.search o excluded dataOnly).label d) = some r →
      RouteOf t d r ∧ t.AdmissiblePath excluded dataOnly r.path d ∧
        ∀ q, t.AdmissiblePath excluded dataOnly q d → O.le r.path q := by
    intro r hr
    unfold routeOfLabel at hr
    split at hr
    · rename_i cost first nextHop rest hl
      split at hr <;> cases hr
      obtain ⟨hwa, hco, hmin⟩ := hso d _ hl
      refine ⟨⟨rfl, ?_, ?_, rfl⟩, walk_iff_admissible.1 ⟨hwa, by simp⟩, ?_⟩
      · exact congrArg PathCost.hops hco
      · exact congrArg PathCost.rtt hco
      · exact fun q hq => hmin q (walk_iff_admissible.2 hq).1
    · cases hr
  refine ⟨⟨?_, ?_⟩, hro⟩
  · intro hsome
    obtain ⟨r, hr⟩ := isSome_iff_exists.1 hsome
    exact ⟨r.path, (hro r hr).2.1⟩
  · rintro ⟨q, hq⟩
    have hdne := admissible_ne_local hq
    obtain ⟨l, hl⟩ := hcom d q (walk_iff_admissible.2 hq).1
    obtain ⟨hwa, -⟩ := hso d l hl
    obtain ⟨cost, path⟩ := l
    -- a path to another node has a hop
    have hfi : path.head? = some t.localID := Walk.head? hwa
    have hla : path.getLast? = some d := Walk.getLast? hwa
    rw [hl]
    match path with
    | [] => cases hfi
    | [a] =>
      cases hfi
      cases hla
      exact absurd rfl hdne
    | first :: nextHop :: rest =>
      rw [routeOfLabel, if_neg hdne]
      rfl

end Order

/-! ## The order by hops -/

theorem Walk_length_pos (h : t.IsWalk excluded dataOnly p v) : 0 < p.length :=
  length_pos_iff.2 (Walk.ne_nil h)

/-- Paths compared by their length alone. -/
def hopOrder (G : LabelSetting.Graph String) (src : String) : PathOrder G src ℕ where
  cost := length
  le p q := p.length ≤ q.length
  refl _ := le_rfl
  trans := le_trans
  cost_le _ _ h := h
  of_cost_lt _ _ h := h.le
  snoc _ _ _ h := by simpa using h
  grows _ _ := by simp

theorem hopOrder_agrees (t : Topology) (excluded : List String) (dataOnly : Bool) :
    Agrees t excluded dataOnly (hopOrder (t.graph excluded dataOnly) t.localID) where
  select {p q u v} hp hq h := by
    have hpos := Walk_length_pos hp
    have hpos' := Walk_length_pos hq
    have hle := Prod.Lex.monotone_fst _ _ h
    simp only [PathCost.key, ofLex_toLex, costOfPath] at hle
    show p.length ≤ q.length
    omega
  replace {p q v} hp hq h := by
    have hpos := Walk_length_pos hp
    have hpos' := Walk_length_pos hq
    have hle := Prod.Lex.monotone_fst _ _ h
    simp only [Label.key, ofLex_toLex, costOfPath] at hle
    show p.length ≤ q.length
    omega

/-! ## The order by hops, round-trip time and path -/

/-- How paths compare: by hops, then by round-trip time, then by their nodes. -/
def Topology.pathKey (t : Topology) (p : List String) : ℕ ×ₗ ℤ ×ₗ List String :=
  toLex (p.length - 1, toLex (t.pathRTT p, p))

/-- The round-trip time of every path fits in an `int64`. -/
def Topology.Fits (t : Topology) : Prop :=
  ∀ p d, t.AdmissiblePath [] false p d → t.pathRTT p < 2 ^ 63

theorem combinedRTT_bounds (a b : UInt32) :
    0 ≤ combinedRTT a b ∧ combinedRTT a b ≤ 2 ^ 32 * 1000000 := by
  have ha := a.toNat_lt
  have hb := b.toNat_lt
  have hms : millisecond = (1000000 : ℤ) := rfl
  unfold combinedRTT
  rw [hms]
  split
  · decide
  · have hmid : (a.toNat + b.toNat) / 2 ≤ 2 ^ 32 := by omega
    generalize (a.toNat + b.toNat) / 2 = mid at hmid
    split
    · constructor <;> (show (_ : ℤ) ≤ _) <;> omega
    · split <;> constructor <;> (show (_ : ℤ) ≤ _) <;> omega

theorem linkRTT_bounds (u v : String) : 0 ≤ t.linkRTT u v ∧ t.linkRTT u v ≤ 2 ^ 32 * 1000000 := by
  unfold linkRTT
  split
  · exact combinedRTT_bounds _ _
  · decide

theorem pathRTT_nonneg (p : List String) : 0 ≤ t.pathRTT p := by
  exact sum_nonneg (forall_mem_map.2 fun _ _ => (linkRTT_bounds _ _).1)

theorem Topology.AdmissiblePath.of_restricted (h : t.AdmissiblePath excluded dataOnly p d) :
    t.AdmissiblePath [] false p d where
  first := h.first
  last := h.last
  hop := h.hop
  simple := h.simple
  links := by
    refine h.links.imp ?_
    rintro u v ⟨⟨hu, hv, l, r, hl, hr, -⟩, -⟩
    refine ⟨⟨hu, hv, l, r, hl, hr, fun h => by cases h⟩, ?_⟩
    rintro (⟨-, h⟩ | ⟨-, h⟩) <;> cases h
  transit := h.transit

theorem walk_subset_nodes (h : t.IsWalk excluded dataOnly p v) : p ⊆ t.nodes := by
  unfold Topology.IsWalk at h
  induction h with
  | source => exact cons_subset.2 ⟨mem_cons_self, nil_subset _⟩
  | snoc h hu he hv ih =>
    refine append_subset.2 ⟨ih, cons_subset.2 ⟨?_, nil_subset _⟩⟩
    exact mem_cons_of_mem _ (AList.mem_keys.1 he.1.2.1)

/-- Up to 2000 members no sum of round-trip times leaves an `int64`. -/
theorem fits_of_members (h : t.members.entries.length ≤ 2000) : t.Fits := by
  intro p d hp
  have hno := (subperm_of_subset hp.simple (walk_subset_nodes (walk_iff_admissible.2 hp).1)).length_le
  rw [nodes_length] at hno
  have hho : (p.zip p.tail).length ≤ 2000 := by
    rw [length_zip, length_tail]
    omega
  have hsum : t.pathRTT p ≤ ((p.zip p.tail).map fun e =>
    t.linkRTT e.1 e.2).length • ((2 ^ 32 * 1000000 : ℤ)) := by
    exact sum_le_card_nsmul _ _ (forall_mem_map.2 fun _ _ => (linkRTT_bounds _ _).2)
  rw [length_map, Int.nsmul_eq_mul] at hsum
  have hbo : ((p.zip p.tail).length : ℤ) * (2 ^ 32 * 1000000) < 2 ^ 63 := by omega
  exact hsum.trans_lt hbo

/-- Along the paths of the search the sum in an `int64` is the sum. -/
theorem addedRTT_eq (hfi : t.Fits) (h : t.IsWalk excluded dataOnly p v) :
    t.addedRTT p = t.pathRTT p := by
  unfold Topology.IsWalk at h
  induction h with
  | source => rfl
  | @snoc p u v h hu he hv ih =>
    have hwa : Walk (t.graph excluded dataOnly) t.localID (p ++ [v]) v := .snoc h hu he hv
    have hlen : 2 ≤ (p ++ [v]).length := by
      have := length_pos_iff.2 h.ne_nil
      simp only [length_append, length_singleton]
      omega
    have hlt := hfi _ _ (walk_iff_admissible.1 ⟨hwa, hlen⟩).of_restricted
    rw [pathRTT_snoc h.getLast?] at hlt ⊢
    rw [addedRTT_snoc h.getLast?, ih]
    have h1 := pathRTT_nonneg (t := t) p
    have h2 := (linkRTT_bounds (t := t) u v).1
    have h3 : -((2 ^ 64 : ℕ) : ℤ) / 2 ≤ t.pathRTT p + t.linkRTT u v :=
      le_trans (by decide) (add_nonneg h1 h2)
    exact Int.bmod_eq_of_le h3 (lt_of_lt_of_eq hlt (by decide))

/-- Two paths of one length compare the same with one more node at their end. -/
theorem append_singleton_lt {v : String} :
    ∀ {p q : List String}, p.length = q.length → p < q → p ++ [v] < q ++ [v]
  | [], [], _, h => absurd h (lt_irrefl _)
  | a :: p, b :: q, hlen, h => by
    rw [cons_append, cons_append, cons_lt_cons_iff]
    rw [cons_lt_cons_iff] at h
    rcases h with h | ⟨heq, h⟩
    · exact .inl h
    · exact .inr ⟨heq, append_singleton_lt (Nat.succ.inj hlen) h⟩

theorem append_singleton_le (hlen : p.length = q.length) (h : p ≤ q) : p ++ [v] ≤ q ++ [v] := by
  rcases h.lt_or_eq with h | rfl
  · exact (append_singleton_lt hlen h).le
  · exact le_rfl

/-- Paths compared by hops, round-trip time and nodes; the next node is chosen by the first two. -/
def fullOrder (t : Topology) (excluded : List String) (dataOnly : Bool) :
    PathOrder (t.graph excluded dataOnly) t.localID (ℕ ×ₗ ℤ) where
  cost p := toLex (p.length, t.pathRTT p)
  le p q := toLex (p.length, toLex (t.pathRTT p, p)) ≤ toLex (q.length, toLex (t.pathRTT q, q))
  refl _ := le_rfl
  trans := le_trans
  cost_le _ _ h := by
    rw [toLex_le_toLex] at h ⊢
    rcases h with h | ⟨heq, h⟩
    · exact .inl h
    · rw [toLex_le_toLex] at h
      exact .inr ⟨heq, h.elim le_of_lt fun h => h.1.le⟩
  of_cost_lt _ _ h := by
    rw [toLex_lt_toLex] at h
    rw [toLex_le_toLex]
    rcases h with h | ⟨heq, h⟩
    · exact .inl h
    · exact .inr ⟨heq, toLex_le_toLex.2 (.inl h)⟩
  snoc {p q u v} hp hq _ h := by
    rw [toLex_le_toLex] at h ⊢
    simp only [length_append, length_singleton, pathRTT_snoc hp.getLast?, pathRTT_snoc hq.getLast?,
      Nat.add_lt_add_iff_right, Nat.add_right_cancel_iff]
    rcases h with h | ⟨heq, h⟩
    · exact .inl h
    · refine .inr ⟨heq, ?_⟩
      rw [toLex_le_toLex] at h ⊢
      rcases h with h | ⟨hrtt, h⟩
      · exact .inl (Int.add_lt_add_right h _)
      · exact .inr ⟨congrArg (· + t.linkRTT u v) hrtt, append_singleton_le heq h⟩
  grows _ _ := toLex_lt_toLex.2 (.inl (by simp))

theorem fullOrder_agrees (excluded : List String) (dataOnly : Bool) (hfi : t.Fits) :
    Agrees t excluded dataOnly (fullOrder t excluded dataOnly) where
  select {p q u v} hp hq h := by
    have hpos := Walk_length_pos hp
    have hpos' := Walk_length_pos hq
    simp only [PathCost.key, costOfPath, addedRTT_eq hfi hp, addedRTT_eq hfi hq, toLex_le_toLex] at h
    show toLex (p.length, t.pathRTT p) ≤ toLex (q.length, t.pathRTT q)
    rw [toLex_le_toLex]
    refine h.imp (fun h => ?_) fun h => ⟨?_, h.2⟩ <;> omega
  replace {p q v} hp hq h := by
    have hpos := Walk_length_pos hp
    have hpos' := Walk_length_pos hq
    simp only [Label.key, costOfPath, addedRTT_eq hfi hp, addedRTT_eq hfi hq] at h
    show toLex (p.length, toLex (t.pathRTT p, p)) ≤ toLex (q.length, toLex (t.pathRTT q, q))
    rw [toLex_le_toLex] at h ⊢
    refine h.imp (fun h => ?_) fun h => ⟨?_, h.2⟩ <;> omega

/-! ## Optimal routes -/

/-- The route of a best admissible path to `d`. -/
structure BestRoute (t : Topology) (excluded : List String) (dataOnly : Bool) (d : String)
    (r : Route) : Prop where
  admissible : t.AdmissiblePath excluded dataOnly r.path d
  best : ∀ q, t.AdmissiblePath excluded dataOnly q d → t.pathKey r.path ≤ t.pathKey q
  destination : r.destination = d
  hopCount : r.hopCount = r.path.length - 1
  rtt : r.rtt = t.pathRTT r.path
  nextHop : r.path.tail.head? = some r.nextHop

/-- `found` is the route of a best path to `d`, and there is one when a path exists. -/
def IsBest (t : Topology) (excluded : List String) (dataOnly : Bool) (d : String)
    (found : Option Route) : Prop :=
  (found.isSome = true ↔ ∃ p, t.AdmissiblePath excluded dataOnly p d) ∧
    ∀ r, found = some r → BestRoute t excluded dataOnly d r

theorem computeRoutesLocked_isBest (hwf : t.WellFormed) (hfi : t.Fits) (d : String) :
    IsBest t excluded dataOnly d ((t.computeRoutesLocked o excluded dataOnly).lookup d) := by
  obtain ⟨hso, hro⟩ := computeRoutesLocked_spec (o := o) hwf
    (fullOrder_agrees excluded dataOnly hfi) d
  refine ⟨hso, ?_⟩
  intro r hr
  obtain ⟨⟨hde, hho, hrtt, hne⟩, hadm, hmin⟩ := hro r hr
  have hwa := (walk_iff_admissible.2 hadm).1
  refine ⟨hadm, ?_, hde, hho, hrtt.trans (addedRTT_eq hfi hwa), hne⟩
  intro q hq
  have hle := hmin q hq
  have h1 := hadm.hop
  have h2 := hq.hop
  change toLex (r.path.length, toLex (t.pathRTT r.path, r.path)) ≤ toLex (q.length,
    toLex (t.pathRTT q, q)) at hle
  rw [pathKey, pathKey]
  rw [toLex_le_toLex] at hle ⊢
  refine hle.imp (fun h => ?_) fun h => ⟨?_, h.2⟩
  · simp only at h ⊢
    omega
  · have := h.1
    simp only at this ⊢
    omega

theorem Topology.SameRecords.refl (t : Topology) : t.SameRecords t :=
  ⟨rfl, fun _ => Iff.rfl, fun _ => rfl⟩

theorem alternateRoute_isBest (hwf : t.WellFormed) (hfi : t.Fits) (destination : String) :
    IsBest t [trimSpace destination] false (trimSpace destination) (t.alternateRoute o destination) := by
  unfold alternateRoute
  dsimp only
  split
  · -- the local node and the empty id have no path
    rename_i hno
    refine ⟨⟨fun h => absurd h Bool.false_ne_true, ?_⟩, fun r h => absurd h (some_ne_none r).symm⟩
    rintro ⟨p, hp⟩
    rcases hno with hem | hlo
    · have hmem := hp.member
      rw [hem] at hmem
      exfalso
      exact hwf.nonempty (mem_cons_of_mem _ (AList.mem_keys.1 hmem))
    · exact absurd hlo (admissible_ne_local hp)
  · exact computeRoutesLocked_isBest hwf hfi _

/-- **Computed routes are the best admissible paths.** There is a route to `d` exactly when there is
an admissible path, the route is the one of the least path by hops, round-trip time and nodes, and
it does not depend on the order of a `range` or of edges that compare equal. The alternate route is
the best one without the link to the destination. -/
theorem computeRoutesLocked_optimal (t : Topology) (hwf : t.WellFormed) (hfits : t.Fits) :
    (∀ o excluded dataOnly d, IsBest t excluded dataOnly d
      ((t.computeRoutesLocked o excluded dataOnly).lookup d)) ∧
    (∀ o o' excluded dataOnly d, (t.computeRoutesLocked o' excluded dataOnly).lookup d =
      (t.computeRoutesLocked o excluded dataOnly).lookup d) ∧
    (∀ o destination,
      IsBest t [trimSpace destination] false (trimSpace destination) (t.alternateRoute o destination)) ∧
    ∀ o o' destination, t.alternateRoute o' destination = t.alternateRoute o destination := by
  have hsame : ∀ o o' excluded dataOnly d, (t.computeRoutesLocked o' excluded dataOnly).lookup d =
      (t.computeRoutesLocked o excluded dataOnly).lookup d :=
    fun o o' excluded dataOnly d => computeRoutesLocked_congr (.refl t) hwf.nonempty d
  refine ⟨fun o excluded dataOnly d => computeRoutesLocked_isBest hwf hfits d, hsame,
    fun o destination => alternateRoute_isBest hwf hfits destination, ?_⟩
  intro o o' destination
  simp only [alternateRoute]
  rw [hsame o o']

/-! ## A sample topology -/

section Sample

def sampleMember (id : String) : Sigma fun _ : String => MemberState :=
  ⟨id, ⟨⟨id, 1, 1000, "", [], [], ""⟩, ⟨1000, true⟩, false⟩⟩

def sampleLinks (id : String) (links : List LinkStateLink) : Sigma fun _ : String => LinkState :=
  ⟨id, ⟨⟨id, 1, 1000, true, links⟩, ⟨1000, true⟩, false⟩⟩

/-- The order of insertion everywhere. -/
def insertionOrder : RangeOrder where
  keys _ l := l
  keys_perm _ _ := .refl _
  sortEdges l := l.insertionSort fun e f => e.target ≤ f.target
  sortEdges_perm l := perm_insertionSort _ l
  sortEdges_sorted l := pairwise_insertionSort _ l

/-- A square with one diagonal missing, seen from a corner. -/
def sampleTopology : Topology where
  localID := "a"
  members := [sampleMember "a", sampleMember "b", sampleMember "c", sampleMember "d"].toAList
  lsas := [sampleLinks "a" [⟨"b", 3, false⟩, ⟨"c", 1, true⟩], sampleLinks "b" [⟨"a", 5, false⟩,
    ⟨"d", 2, false⟩],
    sampleLinks "c" [⟨"a", 1, false⟩, ⟨"d", 0, false⟩], sampleLinks "d" [⟨"b", 0, false⟩,
    ⟨"c", 1, false⟩]].toAList
  routes := ∅
  dataRoutes := ∅

theorem sampleTopology_wellFormed : sampleTopology.WellFormed where
  nonempty := by decide +kernel
  unique := by
    have hall : ∀ e ∈ sampleTopology.lsas.entries,
      (e.2.record.links.map LinkStateLink.peerID).Nodup := by
      decide +kernel
    intro id state h
    exact hall ⟨id, state⟩ (mem_lookup_iff.1 h)

/-- Both paths to the far corner have two hops; the faster one is taken, and the data graph has the
other one only. -/
theorem computeRoutesLocked_optimal_sample :
    IsBest sampleTopology [] false "d" ((sampleTopology.computeRoutesLocked insertionOrder []
      false).lookup "d") ∧
      (sampleTopology.computeRoutesLocked insertionOrder [] false).lookup "d" =
        some ⟨"d", "c", 2, 2000000, ["a", "c", "d"]⟩ ∧
      (sampleTopology.computeRoutesLocked insertionOrder [] true).lookup "d" =
        some ⟨"d", "b", 2, 6000000, ["a", "b", "d"]⟩ :=
  ⟨(computeRoutesLocked_optimal sampleTopology sampleTopology_wellFormed
    (fits_of_members (by decide +kernel))).1
    insertionOrder [] false "d", by decide +kernel, by decide +kernel⟩

end Sample

end Winkyou.Mesh
