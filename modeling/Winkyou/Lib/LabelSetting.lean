import Mathlib.Order.Lattice
import Mathlib.Data.Set.Insert
import Mathlib.Data.List.Chain
import Mathlib.Data.List.Induction
import Mathlib.Data.List.Nodup
import Mathlib.Logic.Function.Basic

/-!
# Label-setting search for best paths

A search keeps a path for some nodes and a set of settled nodes. It settles a labelled node of
least cost and extends its path along every edge. `Walk G src p v`: the list `p` is a path without
repeated nodes from the source to `v` whose nodes in between may be passed through.

The order in which paths are compared is a parameter, `PathOrder`: a cost that grows along a path,
and a finer order that agrees with it and is kept by extending two paths to the same node.

* `Search.settle`: a settled node has a best path.
* `Search.complete`: when every labelled node is settled, every node that has a path is.
-/

namespace LabelSetting

open List
open Function (update update_of_ne update_self)

variable {α : Type*}

/-- A directed graph in which some nodes cannot be passed through. -/
structure Graph (α : Type*) where
  edge : α → α → Prop
  transit : α → Prop

/-- The paths from the source, each with its last node. -/
inductive Walk (G : Graph α) (src : α) : List α → α → Prop
  | source : Walk G src [src] src
  | snoc {p : List α} {u v : α} (h : Walk G src p u) (hu : u = src ∨ G.transit u) (he : G.edge u v)
      (hv : v ∉ p) : Walk G src (p ++ [v]) v

variable {G : Graph α} {src u v c : α} {p q : List α}

section

variable (h : Walk G src p v)

include h

theorem Walk.mem : v ∈ p := by
  cases h with
  | source => exact mem_singleton_self _
  | snoc => exact mem_append_right _ (mem_singleton_self _)

theorem Walk.head? : p.head? = some src := by
  induction h with
  | source => rfl
  | snoc h hu he hv ih =>
    rw [head?_append, ih]
    rfl

theorem Walk.getLast? : p.getLast? = some v := by
  cases h with
  | source => rfl
  | snoc h hu he hv => rw [getLast?_append]; rfl

theorem Walk.nodup : p.Nodup := by
  induction h with
  | source => exact nodup_singleton _
  | snoc h hu he hv ih =>
    rw [nodup_append]
    refine ⟨ih, nodup_singleton _, ?_⟩
    intro x hx y hy
    rw [mem_singleton.1 hy]
    rintro rfl
    exact hv hx

/-- Consecutive nodes of a walk are joined. -/
theorem Walk.isChain : p.IsChain G.edge := by
  induction h with
  | source => exact isChain_singleton _
  | snoc h hu he hv ih =>
    rw [isChain_append]
    refine ⟨ih, isChain_singleton _, ?_⟩
    intro x hx y hy
    rw [h.getLast?] at hx
    cases hx
    cases hy
    exact he

theorem Walk.ne_nil : p ≠ [] :=
  ne_nil_of_mem h.mem

theorem Walk.transit : ∀ x ∈ p.tail.dropLast, G.transit x := by
  induction h with
  | source => simp
  | @snoc p u v h hu he hv ih =>
    intro x hx
    -- the nodes in between are those of the shorter path and its last node
    rw [tail_append_of_ne_nil h.ne_nil, dropLast_concat] at hx
    obtain ⟨s, rfl⟩ := head?_eq_some_iff.1 h.head?
    rcases eq_nil_or_concat' s with rfl | ⟨q, y, rfl⟩
    · cases hx
    have hyu : y = u := Option.some.inj ((@getLast?_concat _ (src :: q) y).symm.trans h.getLast?)
    rw [tail_cons, dropLast_concat] at ih
    rcases mem_append.1 hx with hx | hx
    · exact ih x hx
    rw [mem_singleton.1 hx, hyu]
    refine hu.resolve_left fun hsrc => (nodup_cons.1 h.nodup).1 ?_
    simp [hyu, hsrc]

end

theorem Walk.of_isChain (hfi : p.head? = some src) (hla : p.getLast? = some v) (hsim : p.Nodup)
    (hli : p.IsChain G.edge) (htra : ∀ x ∈ p.tail.dropLast, G.transit x) : Walk G src p v := by
  induction p using reverseRecOn generalizing v with
  | nil => cases hfi
  | append_singleton p w ih =>
    obtain rfl : w = v := by simpa using hla
    rcases eq_nil_or_concat' p with rfl | ⟨q, u, rfl⟩
    · cases hfi
      exact .source
    rw [isChain_append] at hli
    rw [nodup_append] at hsim
    rw [tail_append_of_ne_nil (by simp), dropLast_concat] at htra
    rw [head?_append_of_ne_nil _ (by simp)] at hfi
    have hwa := @ih u hfi (by simp) hsim.1 hli.1 fun x hx => htra x (dropLast_subset _ hx)
    have hed := hli.2.2 u (by simp) w rfl
    refine .snoc hwa ?_ hed fun hmem => hsim.2.2 w hmem w (mem_singleton_self w) rfl
    cases q with
    | nil => exact .inl (Option.some.inj hfi)
    | cons a q => exact .inr (htra u (by simp))

/-- How paths are compared. -/
structure PathOrder (G : Graph α) (src : α) (C : Type*) [LinearOrder C] where
  cost : List α → C
  le : List α → List α → Prop
  refl : ∀ p, le p p
  trans : ∀ {p q r}, le p q → le q r → le p r
  cost_le : ∀ {p q v}, Walk G src p v → Walk G src q v → le p q → cost p ≤ cost q
  of_cost_lt : ∀ {p q v}, Walk G src p v → Walk G src q v → cost p < cost q → le p q
  snoc : ∀ {p q u v}, Walk G src p u → Walk G src q u → G.edge u v → le p q → le (p ++ [v]) (q ++ [v])
  grows : ∀ {p u v}, Walk G src p u → G.edge u v → cost p < cost (p ++ [v])

variable {C : Type*} [LinearOrder C] {O : PathOrder G src C} {S : Set α}
  {lab lab' : α → Option (List α)}

/-- The labels of a search with the settled nodes `S`. -/
structure Search (O : PathOrder G src C) (S : Set α) (lab : α → Option (List α)) : Prop where
  source : lab src = some [src]
  walk : ∀ v p, lab v = some p → Walk G src p v ∧ ∀ x ∈ p, x = v ∨ x ∈ S
  best : ∀ v ∈ S, ∃ p, lab v = some p ∧ ∀ q, Walk G src q v → O.le p q

/-- The label of `v` is at least as good as the one that it gets from `u`. -/
def Relaxed (O : PathOrder G src C) (lab : α → Option (List α)) (u v : α) : Prop :=
  ∀ p, lab u = some p → ∃ q, lab v = some q ∧ O.le q (p ++ [v])

/-- Every edge that leaves the settled nodes has been used. -/
def Closed (O : PathOrder G src C) (S : Set α) (lab : α → Option (List α)) : Prop :=
  ∀ u ∈ S, ∀ v, v ∉ S → (u = src ∨ G.transit u) → G.edge u v → Relaxed O lab u v

/-- Where a path leaves the settled nodes there is a label at least as good as its first part. -/
theorem Search.exit (h : Search O S lab) (hc : Closed O S lab) (hq : Walk G src q c) (hcS : c ∉ S) :
    ∃ x r p, x ∉ S ∧ lab x = some p ∧ Walk G src r x ∧ O.le p r ∧
      (x = c ∧ r = q ∨ O.cost r < O.cost q) := by
  induction hq with
  | source => exact ⟨src, [src], [src], hcS, h.source, .source, O.refl _, .inl ⟨rfl, rfl⟩⟩
  | @snoc q u v hq hu he hv ih =>
    by_cases huS : u ∈ S
    · -- the path leaves the settled nodes here
      obtain ⟨p, hp, hbe⟩ := h.best u huS
      obtain ⟨p', hp', hle⟩ := hc u huS v hcS hu he p hp
      have hext : O.le (p ++ [v]) (q ++ [v]) := O.snoc (h.walk u p hp).1 hq he (hbe q hq)
      exact ⟨v, q ++ [v], p', hcS, hp', .snoc hq hu he hv, O.trans hle hext, .inl ⟨rfl, rfl⟩⟩
    · -- it has left them before
      obtain ⟨x, r, p, hxS, hp, hr, hle, hco⟩ := ih huS
      refine ⟨x, r, p, hxS, hp, hr, hle, .inr ?_⟩
      have hgr := O.grows hq he
      rcases hco with ⟨-, rfl⟩ | hlt
      · exact hgr
      · exact hlt.trans hgr

/-- **A labelled node of least cost can be settled.** -/
theorem Search.settle (h : Search O S lab) (hc : Closed O S lab) (hcS : c ∉ S) (hp : lab c = some p)
    (hmin : ∀ x r, x ∉ S → lab x = some r → O.cost p ≤ O.cost r) : Search O (insert c S) lab where
  source := h.source
  walk x r hr := by
    obtain ⟨hw, hmem⟩ := h.walk x r hr
    exact ⟨hw, fun y hy => (hmem y hy).imp id (Set.mem_insert_of_mem c)⟩
  best := by
    intro x hx
    rcases Set.mem_insert_iff.1 hx with rfl | hx
    · refine ⟨p, hp, ?_⟩
      intro q hq
      obtain ⟨y, r, p', hyS, hp', hr, hle, hco⟩ := h.exit hc hq hcS
      rcases hco with ⟨rfl, rfl⟩ | hlt
      · cases hp.symm.trans hp'
        exact hle
      · have hch := (hmin y p' hyS hp').trans (O.cost_le (h.walk y p' hp').1 hr hle)
        exact O.of_cost_lt (h.walk _ p hp).1 hq (hch.trans_lt hlt)
    · exact h.best x hx

/-- A path of a settled node is extended along an edge to a node that is not settled. -/
theorem Search.extend (h : Search O S lab) (huS : u ∈ S) (hvS : v ∉ S) (hu : u = src ∨ G.transit u)
    (he : G.edge u v) (hp : lab u = some p) :
    Walk G src (p ++ [v]) v ∧ ∀ x ∈ p ++ [v], x = v ∨ x ∈ S := by
  obtain ⟨hw, hmem⟩ := h.walk u p hp
  have hin : ∀ x ∈ p, x ∈ S := by
    intro x hx
    rcases hmem x hx with rfl | hx
    · exact huS
    · exact hx
  refine ⟨.snoc hw hu he fun hv => hvS (hin v hv), ?_⟩
  rw [forall_mem_append, forall_mem_singleton]
  exact ⟨fun x hx => .inr (hin x hx), .inl rfl⟩

/-- A new label for a node that is not settled. -/
theorem Search.relabel [DecidableEq α] (h : Search O S lab) (hvS : v ∉ S) (hsrc : src ∈ S)
    (hq : Walk G src q v) (hmem : ∀ x ∈ q, x = v ∨ x ∈ S) : Search O S (update lab v (some q)) where
  source := by
    rw [update_of_ne]
    · exact h.source
    · rintro rfl
      exact hvS hsrc
  walk x r hr := by
    rcases eq_or_ne x v with rfl | hx
    · rw [update_self] at hr
      cases hr
      exact ⟨hq, hmem⟩
    · rw [update_of_ne hx] at hr
      exact h.walk x r hr
  best x hx := by
    rw [update_of_ne]
    · exact h.best x hx
    · rintro rfl
      exact hvS hx

/-- Labels only get better, and those of settled nodes stay. -/
structure Improves (O : PathOrder G src C) (S : Set α) (lab lab' : α → Option (List α)) : Prop where
  le : ∀ v p, lab v = some p → ∃ p', lab' v = some p' ∧ O.le p' p
  settled : ∀ v ∈ S, lab' v = lab v

theorem Improves.refl (lab : α → Option (List α)) : Improves O S lab lab :=
  ⟨fun _ p hp => ⟨p, hp, O.refl p⟩, fun _ _ => rfl⟩

theorem Improves.trans {lab'' : α → Option (List α)} (h : Improves O S lab lab')
    (h' : Improves O S lab' lab'') :
    Improves O S lab lab'' where
  le v p hp := by
    obtain ⟨p', hp', hle'⟩ := h.le v p hp
    obtain ⟨p'', hp'', hle''⟩ := h'.le v p' hp'
    exact ⟨p'', hp'', O.trans hle'' hle'⟩
  settled v hv := (h'.settled v hv).trans (h.settled v hv)

theorem Relaxed.improves (h : Relaxed O lab u v) (himp : Improves O S lab lab') (hu : u ∈ S) :
    Relaxed O lab' u v := by
  intro p hp
  rw [himp.settled u hu] at hp
  obtain ⟨q, hq, hle⟩ := h p hp
  obtain ⟨q', hq', hle'⟩ := himp.le v q hq
  exact ⟨q', hq', O.trans hle' hle⟩

/-- A better label for a node that is not settled. -/
theorem Improves.update [DecidableEq α] (hvS : v ∉ S) (hle : ∀ p, lab v = some p → O.le q p) :
    Improves O S lab (update lab v (some q)) where
  le x p hp := by
    rcases eq_or_ne x v with rfl | hx
    · exact ⟨q, update_self _ _ _, hle p hp⟩
    · exact ⟨p, by rw [update_of_ne hx]; exact hp, O.refl p⟩
  settled x hx := by
    rw [update_of_ne]
    rintro rfl
    exact hvS hx

/-- **A search that is over has settled every node that has a path.** -/
theorem Search.complete (h : Search O S lab) (hc : Closed O S lab)
    (hdo : ∀ x p, lab x = some p → x ∈ S) (hq : Walk G src q v) :
    ∃ p, lab v = some p ∧ O.le p q := by
  by_contra hno
  have hvS : v ∉ S := by
    intro hv
    obtain ⟨p, hp, hbe⟩ := h.best v hv
    exact hno ⟨p, hp, hbe q hq⟩
  obtain ⟨x, -, p, hxS, hp, -⟩ := h.exit hc hq hvS
  exact hxS (hdo x p hp)

end LabelSetting
