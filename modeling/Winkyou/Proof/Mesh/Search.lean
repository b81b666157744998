import Mathlib.Data.Prod.Lex
import Mathlib.Order.Lex
import Mathlib.Data.List.Induction
import Mathlib.Data.List.Lex
import Winkyou.Spec.Mesh.Topology

/-!
# The route search does not depend on what Go leaves open

The labels of a search (the cost and the path of each node that was found) and the set of visited
nodes determine what the loop does next, whatever the order of a `range` and of the edges.

* `search_done`: the loop ends because no node is left.
* `search_label_eq`: two searches over the same records find the same labels.
-/

namespace Winkyou.Mesh

open Winkyou.Mesh.Topology List Option Function AList
open Function (update_of_ne update_self)

/-! ## Comparing labels -/

/-- The cost and the path of a node. -/
abbrev Label := PathCost × List String

/-- Costs compare by hops, then by round-trip time. -/
def PathCost.key (c : PathCost) : ℕ ×ₗ ℤ := toLex (c.hops, c.rtt)

/-- Labels compare by cost, then by path. -/
def Label.key (l : Label) : ℕ ×ₗ ℤ ×ₗ List String := toLex (l.1.hops, toLex (l.1.rtt, l.2))

theorem costLess_iff {c d : PathCost} : costLess c d = true ↔ c.key < d.key := by
  simp only [costLess, PathCost.key, Prod.Lex.toLex_lt_toLex]
  by_cases h : c.hops = d.hops
  · simp [h]
  · simp [h]

theorem pathLess_iff : ∀ p q : List String, pathLess p q = true ↔ p < q
  | [], [] => by simp [pathLess]
  | [], _ :: _ => by simp [pathLess]
  | _ :: _, [] => by simp [pathLess]
  | a :: p, b :: q => by
    rw [cons_lt_cons_iff]
    by_cases h : a = b
    · simp [pathLess, h, pathLess_iff p q]
    · simp [pathLess, h]

/-- The comparison that decides whether a label is replaced. -/
def labelLess (a b : Label) : Bool := costLess a.1 b.1 || (a.1 = b.1 && pathLess a.2 b.2)

theorem labelLess_iff {a b : Label} : labelLess a b = true ↔ a.key < b.key := by
  obtain ⟨⟨ha, ra⟩, pa⟩ := a
  obtain ⟨⟨hb, rb⟩, pb⟩ := b
  simp only [labelLess, Bool.or_eq_true, costLess_iff, Bool.and_eq_true, decide_eq_true_eq,
    pathLess_iff, PathCost.key, Label.key, Prod.Lex.toLex_lt_toLex, PathCost.mk.injEq]
  tauto

theorem Label.key_injective : Function.Injective Label.key := by
  rintro ⟨⟨h, r⟩, p⟩ ⟨⟨h', r'⟩, p'⟩ heq
  have h1 := toLex_inj.1 heq
  simp only [Prod.mk.injEq] at h1
  have h2 := toLex_inj.1 h1.2
  simp only [Prod.mk.injEq] at h2
  rw [h1.1, h2.1, h2.2]

/-- The label that a node has after it was offered another one. -/
def improve (offer : Label) : Option Label → Label
  | none => offer
  | some known => if labelLess offer known then offer else known

theorem improve_key (offer known : Label) :
    (improve offer (some known)).key = min offer.key known.key := by
  simp only [improve]
  by_cases h : labelLess offer known = true
  · rw [if_pos h, min_eq_left (labelLess_iff.1 h).le]
  · rw [if_neg h, min_eq_right (not_lt.1 fun hlt => h (labelLess_iff.2 hlt))]

theorem improve_comm (a b : Label) (old : Option Label) :
    improve a (some (improve b old)) = improve b (some (improve a old)) := by
  apply Label.key_injective
  rw [improve_key, improve_key]
  cases old with
  | none => exact min_comm _ _
  | some k => rw [improve_key, improve_key, min_left_comm]

/-! ## Views -/

def Search.label (s : Search) (id : String) : Option Label :=
  match s.dist.lookup id, s.paths.lookup id with
  | some c, some p => some (c, p)
  | _, _ => none

/-- The two maps have the same keys. -/
def Search.Paired (s : Search) : Prop :=
  ∀ id, (s.dist.lookup id).isSome = (s.paths.lookup id).isSome

variable {s s' : Search} {id current : String} {o o' : RangeOrder} {t t' : Topology}
  {excluded : List String} {dataOnly : Bool} {l : Label}

theorem Search.label_some :
    s.label id = some l ↔ s.dist.lookup id = some l.1 ∧ s.paths.lookup id = some l.2 := by
  unfold Search.label
  cases hd : s.dist.lookup id with
  | none => simp
  | some c =>
    cases hq : s.paths.lookup id with
    | none => simp
    | some p =>
      obtain ⟨c', p'⟩ := l
      simp

theorem Search.Paired.label_none (hp : s.Paired) : s.label id = none ↔ s.dist.lookup id = none := by
  have h := hp id
  unfold Search.label
  cases hd : s.dist.lookup id with
  | none => simp
  | some c =>
    rw [hd] at h
    obtain ⟨p, hq⟩ := isSome_iff_exists.1 h.symm
    simp [hq]

theorem Search.Paired.mem_keys (hp : s.Paired) : id ∈ s.dist.keys ↔ (s.label id).isSome = true := by
  rw [← AList.mem_keys, ← lookup_isSome, isSome_iff_ne_none, isSome_iff_ne_none, ne_eq,
    ne_eq, hp.label_none]

theorem Search.distOf_of_label (h : s.label id = some l) : s.distOf id = l.1 := by
  rw [Search.distOf, (Search.label_some.1 h).1]
  rfl

theorem Search.pathOf_of_label (h : s.label id = some l) : s.pathOf id = l.2 := by
  rw [Search.pathOf, (Search.label_some.1 h).2]
  rfl

/-- The label that an edge offers to its target. -/
def offer (l : Label) (edge : GraphEdge) : Label :=
  (⟨l.1.hops + 1, int64 (l.1.rtt + edge.rtt)⟩, l.2 ++ [edge.target])

/-- What one edge does to the labels. -/
def relaxLabel (visited : List String) (l : Label) (label : String → Option Label)
    (edge : GraphEdge) :
    String → Option Label :=
  if edge.target ∈ visited then label
  else update label edge.target (some (improve (offer l edge) (label edge.target)))

theorem relax_visited (s : Search) (current : String) (edge : GraphEdge) :
    (s.relax current edge).visited = s.visited := by
  unfold Search.relax
  split
  · rfl
  · exact (apply_ite Search.visited _ _ _).trans (ite_self _)

theorem relax_label (hp : s.Paired) (hl : s.label current = some l) (edge : GraphEdge) :
    (s.relax current edge).Paired ∧ (s.relax current edge).label =
      relaxLabel s.visited l s.label edge := by
  unfold Search.relax relaxLabel
  split
  · exact ⟨hp, rfl⟩
  simp only [Search.distOf_of_label hl, Search.pathOf_of_label hl]
  have hins : ∀ m : Label,
      ({ s with dist := s.dist.insert edge.target m.1, paths := s.paths.insert edge.target m.2 } :
      Search).Paired ∧
      ({ s with dist := s.dist.insert edge.target m.1, paths := s.paths.insert edge.target m.2 } :
        Search).label =
        update s.label edge.target (some m) := by
    intro m
    constructor
    · intro x
      rcases eq_or_ne x edge.target with rfl | hx
      · simp
      · simpa [lookup_insert_ne hx] using hp x
    · funext x
      rcases eq_or_ne x edge.target with rfl | hx
      · simp [Search.label]
      · simp [Search.label, lookup_insert_ne hx, update_of_ne hx]
  rcases hkn : s.label edge.target with _ | k
  · rw [hp.label_none.1 hkn]
    exact hins (offer l edge)
  have hdi := (Search.label_some.1 hkn).1
  rw [hdi, Search.pathOf_of_label hkn]
  simp only [improve]
  by_cases hle : labelLess (offer l edge) k = true
  · rw [if_pos (by exact hle), if_pos hle]
    exact hins (offer l edge)
  · rw [if_neg (by exact hle), if_neg hle]
    refine ⟨hp, ?_⟩
    rw [← hkn, update_eq_self]

theorem relaxLabel_comm (visited : List String) (l : Label) (label : String → Option Label)
    (e f : GraphEdge) :
    relaxLabel visited l (relaxLabel visited l label e) f =
      relaxLabel visited l (relaxLabel visited l label f) e := by
  unfold relaxLabel
  by_cases he : e.target ∈ visited
  · simp [he]
  by_cases hf : f.target ∈ visited
  · simp [hf]
  · simp only [if_neg he, if_neg hf]
    rcases eq_or_ne e.target f.target with heq | hne
    · simp only [heq, update_self, update_idem]
      rw [improve_comm]
    · rw [update_of_ne hne.symm, update_of_ne hne, update_comm hne]

theorem foldl_relax_visited (edges : List GraphEdge) :
    (edges.foldl (Search.relax current) s).visited = s.visited := by
  induction edges generalizing s with
  | nil => rfl
  | cons e edges ih => rw [foldl_cons, ih, relax_visited]

theorem foldl_relax_label (edges : List GraphEdge) :
    ∀ s : Search, s.Paired → s.label current = some l →
    current ∈ s.visited →
    (edges.foldl (Search.relax current) s).Paired ∧
      (edges.foldl (Search.relax current) s).label = edges.foldl (relaxLabel s.visited l) s.label := by
  induction edges with
  | nil => exact fun s hp _ _ => ⟨hp, rfl⟩
  | cons e edges ih =>
    intro s hp hl hv
    obtain ⟨hp', hla⟩ := relax_label hp hl e
    have hvis := relax_visited s current e
    have hl' : (s.relax current e).label current = some l := by
      rw [hla, relaxLabel]
      split
      · exact hl
      · rw [update_of_ne, hl]
        rintro rfl
        exact absurd hv ‹_›
    obtain ⟨hp'', hre⟩ := ih _ hp' hl' (hvis ▸ hv)
    refine ⟨hp'', ?_⟩
    rw [foldl_cons, foldl_cons, hre, hvis, hla]

/-! ## The next node -/

/-- What the loop that looks for the next node compares. -/
def Search.nodeKey (s : Search) (id : String) : ℕ ×ₗ ℤ ×ₗ String :=
  toLex ((s.distOf id).hops, toLex ((s.distOf id).rtt, id))

theorem nodeKey_lt_iff {a b : String} :
    s.nodeKey a < s.nodeKey b ↔ costLess (s.distOf a)
      (s.distOf b) = true ∨ s.distOf a = s.distOf b ∧ a < b := by
  rw [costLess_iff]
  rcases hda : s.distOf a with ⟨ha, ra⟩
  rcases hdb : s.distOf b with ⟨hb, rb⟩
  simp only [Search.nodeKey, hda, hdb, PathCost.key, Prod.Lex.toLex_lt_toLex, PathCost.mk.injEq]
  tauto

/-- A node that the loop can choose: found, and not visited. -/
def Search.Open (s : Search) (id : String) : Prop := id ∈ s.dist.keys ∧ id ∉ s.visited

theorem foldl_preferred (keys : List String) (hne : "" ∉ keys) :
    (s.next keys = "" ∧ ∀ x ∈ keys, x ∈ s.visited) ∨
      (s.next keys ∈ keys ∧ s.next keys ∉ s.visited ∧
        ∀ x ∈ keys, x ∉ s.visited → s.nodeKey (s.next keys) ≤ s.nodeKey x) := by
  unfold Search.next
  induction keys using reverseRecOn with
  | nil => exact .inl ⟨rfl, by simp⟩
  | append_singleton keys a ih =>
    rw [mem_append, not_or] at hne
    have ih := ih hne.1
    rw [foldl_append, foldl_cons, foldl_nil]
    generalize keys.foldl s.preferred "" = current at ih ⊢
    simp only [mem_append, mem_singleton, or_imp, forall_and, forall_eq]
    by_cases hv : a ∈ s.visited
    · -- a visited candidate is skipped
      rw [Search.preferred, if_pos hv]
      exact ih.imp (fun h => ⟨h.1, h.2, hv⟩) fun h => ⟨.inl h.1, h.2.1, h.2.2, absurd hv⟩
    by_cases hbet : current = "" ∨ s.nodeKey a < s.nodeKey current
    · rw [Search.preferred, if_neg hv, if_pos (hbet.imp id nodeKey_lt_iff.1)]
      refine .inr ⟨.inr rfl, hv, fun x hx hxv => ?_, fun _ => le_rfl⟩
      rcases ih with ⟨-, hall⟩ | ⟨hin, -, hle⟩
      · exact absurd (hall x hx) hxv
      · have hlt := hbet.resolve_left fun h => hne.1 (h ▸ hin)
        exact hlt.le.trans (hle x hx hxv)
    · rw [Search.preferred, if_neg hv, if_neg (mt (Or.imp id nodeKey_lt_iff.2) hbet)]
      rw [not_or, not_lt] at hbet
      obtain ⟨hin, hnv, hle⟩ := ih.resolve_left fun h => hbet.1 h.1
      exact .inr ⟨.inl hin, hnv, hle, fun _ => hbet.2⟩

/-- **The next node**: none when every node is visited, else the least one. -/
theorem next_spec (hne : "" ∉ s.dist.keys) (n : ℕ) :
    (s.next (o.keys n s.dist.keys) = "" ∧ ∀ x, ¬ s.Open x) ∨
      (s.next (o.keys n s.dist.keys) ≠ "" ∧ s.Open (s.next (o.keys n s.dist.keys)) ∧
        ∀ x, s.Open x → s.nodeKey (s.next (o.keys n s.dist.keys)) ≤ s.nodeKey x) := by
  have hmem : ∀ {x}, x ∈ o.keys n s.dist.keys ↔ x ∈ s.dist.keys := (o.keys_perm n s.dist.keys).mem_iff
  have hnot : "" ∉ o.keys n s.dist.keys := fun h => hne (hmem.1 h)
  refine (foldl_preferred (s := s) _ hnot).imp ?_ ?_
  · rintro ⟨h, hall⟩
    exact ⟨h, fun x hx => hx.2 (hall x (hmem.2 hx.1))⟩
  · rintro ⟨hin, hnv, hle⟩
    exact ⟨fun h => hnot (h ▸ hin), ⟨hmem.1 hin, hnv⟩, fun x hx => hle x (hmem.2 hx.1) hx.2⟩

/-! ## The edges of a node -/

theorem adjacency_perm (o : RangeOrder) (t : Topology) (excluded : List String) (dataOnly : Bool)
    (id : String) :
    (((t.adjacency o excluded dataOnly).lookup id).getD []).Perm
      (t.edgesFrom excluded dataOnly id) := by
  have hbu : (t.unsortedAdjacency o excluded dataOnly).lookup id =
      if t.edgesFrom excluded dataOnly id = [] then none
        else some (t.edgesFrom excluded dataOnly id) := by
    rw [Topology.unsortedAdjacency, lookup_fill]
    split
    · rw [lookup_empty, or_none]
      cases t.edgesFrom excluded dataOnly id <;> rfl
    -- a node without a record has no edge
    rename_i hno
    have hnone : t.lsas.lookup id = none := by
      rw [lookup_eq_none, AList.mem_keys]
      exact fun h => hno ((o.keys_perm 0 _).mem_iff.2 h)
    have hed : t.edgesFrom excluded dataOnly id = [] := by
      rw [Topology.edgesFrom, hnone]
      simp
    simp [hed]
  rw [Topology.adjacency, lookup_fill]
  rcases hed : t.edgesFrom excluded dataOnly id with _ | ⟨e, edges⟩
  · rw [hed, if_pos rfl] at hbu
    simp [hbu]
  rw [hed, if_neg (cons_ne_nil e edges)] at hbu
  have hin : id ∈ o.keys 1 (t.unsortedAdjacency o excluded dataOnly).keys := by
    rw [(o.keys_perm 1 _).mem_iff, ← AList.mem_keys, ← lookup_isSome, hbu]
    rfl
  simp only [if_pos hin, hbu, map_some, some_or, getD_some]
  exact o.sortEdges_perm _

/-! ## One pass of the search -/

/-- The nodes that a search can find. -/
def Topology.nodes (t : Topology) : List String := t.localID :: t.members.keys

structure SearchOK (t : Topology) (s : Search) : Prop where
  paired : s.Paired
  nodes : ∀ id ∈ s.dist.keys, id ∈ t.nodes
  visited : s.visited.Nodup ∧ s.visited ⊆ t.nodes
  nonempty : "" ∉ t.nodes

theorem SearchOK.nonempty_keys (h : SearchOK t s) : "" ∉ s.dist.keys :=
  fun hmem => h.nonempty (h.nodes "" hmem)

theorem edgesFrom_target {e : GraphEdge} (he : e ∈ t.edgesFrom excluded dataOnly id) :
    e.target ∈ t.members.keys := by
  unfold Topology.edgesFrom at he
  split at he
  · cases he
  split at he
  · cases he
  obtain ⟨link, -, hli⟩ := mem_filterMap.1 he
  unfold Topology.confirmedEdge at hli
  split at hli
  · cases hli
  split at hli
  · cases hli
  rename_i hmem
  simp only [bind_eq_bind, bind_eq_some_iff] at hli
  obtain ⟨_, -, _, -, hli⟩ := hli
  split at hli <;> cases hli
  rw [← AList.mem_keys, ← lookup_isSome]
  simpa [isSome_iff_ne_none] using hmem

def visitLabel (t : Topology) (excluded : List String) (dataOnly : Bool) (visited : List String)
    (current : String) (l : Label) (label : String → Option Label) : String → Option Label :=
  if t.expands current then (t.edgesFrom excluded dataOnly current).foldl
    (relaxLabel (current :: visited) l) label
  else label

/-- A visit relaxes the edges of its node. -/
theorem visit_label (hp : s.Paired) (hl : s.label current = some l) :
    (t.visit (t.adjacency o excluded dataOnly) s current).Paired ∧
      (t.visit (t.adjacency o excluded dataOnly) s current).visited = current :: s.visited ∧
      (t.visit (t.adjacency o excluded dataOnly) s current).label =
        visitLabel t excluded dataOnly s.visited current l s.label := by
  unfold Topology.visit visitLabel
  dsimp only
  split
  · obtain ⟨hp', hla⟩ := foldl_relax_label (((t.adjacency o excluded dataOnly).lookup current).getD [])
      { s with visited := current :: s.visited } hp hl mem_cons_self
    refine ⟨hp', foldl_relax_visited _, ?_⟩
    rw [hla]
    exact (adjacency_perm o t excluded dataOnly current).foldl_eq'
      (fun e _ f _ z => relaxLabel_comm _ _ z e f) _
  · exact ⟨hp, rfl, rfl⟩

theorem foldl_relaxLabel_isSome {visited : List String} {edges : List GraphEdge} :
    ∀ label : String → Option Label, ∀ id, (edges.foldl (relaxLabel visited l) label id).isSome =
      true → (label id).isSome = true ∨ ∃ e ∈ edges, e.target = id := by
  induction edges with
  | nil => exact fun label id h => .inl h
  | cons e edges ih =>
    intro label id h
    rcases ih _ id h with h | ⟨f, hf, rfl⟩
    · rw [relaxLabel] at h
      split at h
      · exact .inl h
      · rcases eq_or_ne id e.target with rfl | hne
        · exact .inr ⟨e, mem_cons_self, rfl⟩
        · rw [update_of_ne hne] at h
          exact .inl h
    · exact .inr ⟨f, mem_cons_of_mem _ hf, rfl⟩

theorem SearchOK.visit (h : SearchOK t s) (hop : s.Open current) :
    SearchOK t (t.visit (t.adjacency o excluded dataOnly) s current) := by
  obtain ⟨l, hl⟩ := isSome_iff_exists.1 (h.paired.mem_keys.1 hop.1)
  obtain ⟨hp, hvis, hla⟩ := @visit_label s current o t excluded dataOnly l h.paired hl
  refine ⟨hp, ?_, ?_, h.nonempty⟩
  · intro id hid
    rw [hp.mem_keys, hla, visitLabel] at hid
    split at hid
    · rcases foldl_relaxLabel_isSome _ id hid with hold | ⟨e, he, rfl⟩
      · exact h.nodes id (h.paired.mem_keys.2 hold)
      · exact mem_cons_of_mem _ (edgesFrom_target he)
    · exact h.nodes id (h.paired.mem_keys.2 hid)
  · rw [hvis]
    exact ⟨nodup_cons.2 ⟨hop.2, h.visited.1⟩, cons_subset.2 ⟨h.nodes _ hop.1, h.visited.2⟩⟩

/-! ## The whole search -/

/-- The node that the loop visits: open, and before all others. -/
def Search.Least (s : Search) (id : String) : Prop :=
  s.Open id ∧ ∀ x, s.Open x → s.nodeKey id ≤ s.nodeKey x

/-- **What each visit keeps holds after the loop.** -/
theorem searchLoop_invariant {P : Search → Prop}
    (hvi : ∀ s current, SearchOK t s → P s → s.Least current →
      P (t.visit (t.adjacency o excluded dataOnly) s current)) (fuel : ℕ) :
    ∀ s, SearchOK t s → P s →
      SearchOK t (t.searchLoop o (t.adjacency o excluded dataOnly) fuel s) ∧
        P (t.searchLoop o (t.adjacency o excluded dataOnly) fuel s) := by
  induction fuel with
  | zero => exact fun s h hP => ⟨h, hP⟩
  | succ fuel ih =>
    intro s h hP
    rw [searchLoop]
    rcases next_spec (o := o) h.nonempty_keys (fuel + 2) with ⟨hno, -⟩ | ⟨hso, hle⟩
    · rw [if_pos hno]
      exact ⟨h, hP⟩
    · rw [if_neg hso]
      exact ih _ (h.visit hle.1) (hvi s _ h hP hle)

theorem nodeKey_injective : Function.Injective s.nodeKey := by
  intro a b heq
  have h1 := toLex_inj.1 heq
  simp only [Prod.mk.injEq] at h1
  exact (Prod.mk.inj (toLex_inj.1 h1.2)).2

/-- The loop ends because no node is open: every pass visits another one of the nodes. -/
theorem searchLoop_done (fuel : ℕ) : ∀ s, SearchOK t s → t.nodes.length < fuel + s.visited.length →
    ∀ x, ¬ (t.searchLoop o (t.adjacency o excluded dataOnly) fuel s).Open x := by
  induction fuel with
  | zero =>
    intro s h hlen
    have hle := (subperm_of_subset h.visited.1 h.visited.2).length_le
    omega
  | succ fuel ih =>
    intro s h hlen
    rw [searchLoop]
    rcases next_spec (o := o) h.nonempty_keys (fuel + 2) with ⟨hno, hdo⟩ | ⟨hso, hlea⟩
    · rw [if_pos hno]
      exact hdo
    · rw [if_neg hso]
      refine ih _ (h.visit hlea.1) ?_
      obtain ⟨l, hl⟩ := isSome_iff_exists.1 (h.paired.mem_keys.1 hlea.1.1)
      obtain ⟨-, hvis, -⟩ := @visit_label s _ o t excluded dataOnly l h.paired hl
      rw [hvis, length_cons]
      omega

theorem initialSearch_dist (x : String) :
    t.initialSearch.dist.lookup x = if x = t.localID then some ⟨0, 0⟩ else none := by
  unfold initialSearch
  split
  · rename_i hx
    rw [hx, lookup_insert]
  · rename_i hx
    rw [lookup_insert_ne hx, lookup_empty]

theorem initialSearch_paths (x : String) :
    t.initialSearch.paths.lookup x = if x = t.localID then some [t.localID] else none := by
  unfold initialSearch
  split
  · rename_i hx
    rw [hx, lookup_insert]
  · rename_i hx
    rw [lookup_insert_ne hx, lookup_empty]

theorem initialSearch_label : t.initialSearch.label =
    update (fun _ => none) t.localID (some (⟨0, 0⟩, [t.localID])) := by
  funext x
  rw [Search.label, initialSearch_dist, initialSearch_paths]
  rcases eq_or_ne x t.localID with rfl | hx
  · simp
  · simp [hx]

theorem initialSearch_ok (hne : "" ∉ t.nodes) : SearchOK t t.initialSearch where
  paired x := by
    rw [initialSearch_dist, initialSearch_paths]
    split <;> rfl
  nodes := by
    intro x hx
    simp only [initialSearch, keys_insert, mem_cons] at hx
    rcases hx with rfl | hx
    · exact mem_cons_self
    · simp at hx
  visited := ⟨nodup_nil, nil_subset _⟩
  nonempty := hne

theorem nodes_length (t : Topology) : t.nodes.length = t.members.entries.length + 1 := by
  simp [Topology.nodes, AList.keys, List.keys]

/-- **The search is over when it returns.** -/
theorem search_done (hne : "" ∉ t.nodes) :
    SearchOK t (t.search o excluded dataOnly) ∧ ∀ x, ¬ (t.search o excluded dataOnly).Open x := by
  have hin := initialSearch_ok hne
  refine ⟨(searchLoop_invariant (P := fun _ => True) (fun _ _ _ _ _ => trivial) _ _ hin trivial).1, ?_⟩
  refine searchLoop_done _ _ hin ?_
  rw [nodes_length]
  omega

/-! ## Two searches over the same records -/

/-- The two topologies hold the same members and the same link-state records. -/
structure Topology.SameRecords (t t' : Topology) : Prop where
  localID : t'.localID = t.localID
  members : ∀ id, id ∈ t'.members ↔ id ∈ t.members
  lsas : ∀ id, (t'.lsas.lookup id).map Leased.record = (t.lsas.lookup id).map Leased.record

section

variable (h : t.SameRecords t')

include h

theorem Topology.SameRecords.members_isNone (id : String) :
    (t'.members.lookup id).isNone = (t.members.lookup id).isNone := by
  have := h.members id
  rw [← lookup_isSome, ← lookup_isSome] at this
  cases h1 : t'.members.lookup id <;> cases h2 : t.members.lookup id <;> simp_all

theorem Topology.SameRecords.lookup_lsas (id : String) :
    (t'.lsas.lookup id = none ∧ t.lsas.lookup id = none) ∨
    ∃ s' s, t'.lsas.lookup id = some s' ∧ t.lsas.lookup id = some s ∧ s'.record = s.record := by
  have hl := h.lsas id
  cases h1 : t'.lsas.lookup id <;> cases h2 : t.lsas.lookup id <;> simp_all

theorem Topology.SameRecords.confirmedEdge (origin : String) (link : LinkStateLink) :
    t'.confirmedEdge excluded dataOnly origin link = t.confirmedEdge excluded dataOnly origin link := by
  unfold Topology.confirmedEdge
  rw [h.localID, h.members_isNone]
  rcases h.lookup_lsas link.peerID with ⟨h1, h2⟩ | ⟨state', state, h1, h2, hrec⟩
  · rw [h1, h2]
  · simp only [h1, h2, bind_eq_bind, bind_some, hrec]

/-- The edges depend on the records alone. -/
theorem Topology.SameRecords.edgesFrom (id : String) :
    t'.edgesFrom excluded dataOnly id = t.edgesFrom excluded dataOnly id := by
  unfold Topology.edgesFrom
  rw [h.members_isNone]
  have hed : t'.confirmedEdge excluded dataOnly id = t.confirmedEdge excluded dataOnly id :=
    funext fun link => h.confirmedEdge id link
  rcases h.lookup_lsas id with ⟨h1, h2⟩ | ⟨state', state, h1, h2, hrec⟩
  · rw [h1, h2]
  · simp only [h1, h2, hrec, hed]

theorem Topology.SameRecords.expands (id : String) : t'.expands id = t.expands id := by
  have hl := h.lsas id
  have hany : ∀ x : Option LinkState, (x.any fun state => state.record.transitAllowed) =
        ((x.map Leased.record).any fun record => record.transitAllowed) := by
    intro x
    cases x <;> rfl
  rw [Topology.expands, Topology.expands, h.localID, hany, hany, hl]

theorem Topology.SameRecords.length_eq : t'.members.entries.length = t.members.entries.length := by
  have hpe : t'.members.keys.Perm t.members.keys := by
    rw [perm_ext_iff_of_nodup t'.members.keys_nodup t.members.keys_nodup]
    intro id
    rw [← AList.mem_keys, ← AList.mem_keys]
    exact h.members id
  have hlen := hpe.length_eq
  simpa [AList.keys, List.keys] using hlen

theorem Topology.SameRecords.nodes (hne : "" ∉ t.nodes) : "" ∉ t'.nodes := by
  intro hmem
  rcases mem_cons.1 hmem with h0 | hk
  · exact hne (mem_cons.2 (.inl (h0.trans h.localID)))
  · exact hne (mem_cons_of_mem _ (AList.mem_keys.1 ((h.members "").1 (AList.mem_keys.2 hk))))

end

/-- Two searches that have found the same labels and visited the same nodes. -/
def Search.Same (s s' : Search) : Prop := s'.label = s.label ∧ s'.visited = s.visited

theorem Search.Same.open_iff (h : s.Same s') (hp : s.Paired) (hp' : s'.Paired) (x : String) :
    s'.Open x ↔ s.Open x := by
  rw [Search.Open, Search.Open, hp.mem_keys, hp'.mem_keys, h.1, h.2]

theorem Search.Same.nodeKey (h : s.Same s') (hp : s.Paired) {x : String} (hx : s.Open x) :
    s'.nodeKey x = s.nodeKey x := by
  obtain ⟨l, hl⟩ := isSome_iff_exists.1 (hp.mem_keys.1 hx.1)
  rw [Search.nodeKey, Search.nodeKey, Search.distOf_of_label hl, Search.distOf_of_label (h.1 ▸ hl)]

theorem searchLoop_same (ht : t.SameRecords t') (fuel : ℕ) :
    ∀ s s', SearchOK t s → SearchOK t' s' → s.Same s' →
      (t.searchLoop o (t.adjacency o excluded dataOnly) fuel s).Same
        (t'.searchLoop o' (t'.adjacency o' excluded dataOnly) fuel s') := by
  induction fuel with
  | zero => exact fun s s' _ _ h => h
  | succ fuel ih =>
    intro s s' hs hs' hsa
    have hop := hsa.open_iff hs.paired hs'.paired
    rw [searchLoop, searchLoop]
    rcases next_spec (o := o) hs.nonempty_keys (fuel + 2) with ⟨hno, hdo⟩ | ⟨hso, hle⟩
    · rcases next_spec (o := o') hs'.nonempty_keys (fuel + 2) with ⟨hno', -⟩ | ⟨-, hle'⟩
      · rw [if_pos hno, if_pos hno']
        exact hsa
      · exact absurd ((hop _).1 hle'.1) (hdo _)
    rcases next_spec (o := o') hs'.nonempty_keys (fuel + 2) with ⟨-, hdo'⟩ | ⟨hso', hle'⟩
    · exact absurd ((hop _).2 hle.1) (hdo' _)
    -- both choose the least open node
    have hne : s'.next (o'.keys (fuel + 2) s'.dist.keys) = s.next (o.keys (fuel + 2) s.dist.keys) := by
      have hx := (hop _).1 hle'.1
      apply nodeKey_injective (s := s)
      apply le_antisymm
      · rw [← hsa.nodeKey hs.paired hx, ← hsa.nodeKey hs.paired hle.1]
        exact hle'.2 _ ((hop _).2 hle.1)
      · exact hle.2 _ hx
    rw [if_neg hso, if_neg hso', hne]
    obtain ⟨l, hl⟩ := isSome_iff_exists.1 (hs.paired.mem_keys.1 hle.1.1)
    obtain ⟨-, hvis, hla⟩ := @visit_label s _ o t excluded dataOnly l hs.paired hl
    obtain ⟨-, hvis', hla'⟩ := @visit_label s' _ o' t' excluded dataOnly l hs'.paired (hsa.1 ▸ hl)
    refine ih _ _ (hs.visit hle.1) (hs'.visit (hne ▸ hle'.1)) ⟨?_, ?_⟩
    · rw [hla, hla', visitLabel, visitLabel, ht.expands, ht.edgesFrom, hsa.1, hsa.2]
    · rw [hvis, hvis', hsa.2]

/-- **Two searches over the same records find the same labels**, whatever Go leaves open. -/
theorem search_label_eq (ht : t.SameRecords t') (hne : "" ∉ t.nodes) :
    (t'.search o' excluded dataOnly).label = (t.search o excluded dataOnly).label := by
  rw [search, search, ht.length_eq]
  refine (searchLoop_same ht _ _ _ (initialSearch_ok hne) (initialSearch_ok (ht.nodes hne)) ⟨?_, rfl⟩).1
  rw [initialSearch_label, initialSearch_label, ht.localID]

/-! ## Routes -/

/-- The route that a label stands for. -/
def routeOfLabel (localID destination : String) : Option Label → Option Route
  | some (cost, first :: nextHop :: rest) =>
    if destination = localID then none
    else some ⟨destination, nextHop, cost.hops, cost.rtt, first :: nextHop :: rest⟩
  | _ => none

theorem lookup_computeRoutesLocked (hne : "" ∉ t.nodes) (d : String) :
    (t.computeRoutesLocked o excluded dataOnly).lookup d =
      routeOfLabel t.localID d ((t.search o excluded dataOnly).label d) := by
  have hok := (@search_done o t excluded dataOnly hne).1
  rw [Topology.computeRoutesLocked, lookup_fill]
  set s := t.search o excluded dataOnly
  cases hl : s.label d with
  | none =>
    have hpa : s.paths.lookup d = none := by
      have h1 := hok.paired d
      rw [hok.paired.label_none.1 hl] at h1
      simpa using h1.symm
    have hro : t.routeOf s d = none := by simp [routeOf, Search.pathOf, hpa]
    simp [hro, routeOfLabel]
  | some l =>
    have hin : d ∈ o.keys (t.members.entries.length + 4) s.paths.keys := by
      rw [(o.keys_perm _ _).mem_iff, ← AList.mem_keys, ← lookup_isSome, (Search.label_some.1 hl).2]
      rfl
    rw [if_pos hin, lookup_empty, or_none, routeOf, Search.pathOf_of_label hl,
      Search.distOf_of_label hl]
    obtain ⟨c, p⟩ := l
    match p with
    | [] => rfl
    | [_] => rfl
    | first :: nextHop :: rest => rfl

/-- **The routes depend on the records only.** -/
theorem computeRoutesLocked_congr (ht : t.SameRecords t') (hne : "" ∉ t.nodes) (d : String) :
    (t'.computeRoutesLocked o' excluded dataOnly).lookup d =
      (t.computeRoutesLocked o excluded dataOnly).lookup d := by
  rw [lookup_computeRoutesLocked hne, lookup_computeRoutesLocked (ht.nodes hne), ht.localID,
    search_label_eq ht hne]

end Winkyou.Mesh
