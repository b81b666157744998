import Mathlib.Algebra.Ring.Int.Defs
import Winkyou.Lib.LabelSetting
import Winkyou.Proof.Mesh.Search

/-!
# The graph of a topology and its admissible paths

What the routes are meant to be, said without the search: a link counts when both of its ends are
members and list each other, and a path passes only through nodes that allow transit.

* `mem_edgesFrom_iff`: the edges that the search uses are the confirmed links.
* `walk_iff_admissible`: the paths of the search are the admissible paths.
-/

namespace Winkyou.Mesh

open Winkyou.Mesh.Topology LabelSetting List Option

namespace Topology

/-- The link to `v` that the record of `u` lists. -/
def link? (t : Topology) (u v : String) : Option LinkStateLink :=
  (t.lsas.lookup u).bind fun state => findLink state.record.links v

/-- Both ends are members and list each other, neither as control-only in the data graph. -/
def Confirmed (t : Topology) (dataOnly : Bool) (u v : String) : Prop :=
  u ∈ t.members ∧ v ∈ t.members ∧ ∃ l r, t.link? u v = some l ∧ t.link? v u = some r ∧
    (dataOnly = true → l.controlOnly = false ∧ r.controlOnly = false)

/-- The link joins the local node with an excluded peer. -/
def Excluded (t : Topology) (excluded : List String) (u v : String) : Prop :=
  u = t.localID ∧ v ∈ excluded ∨ v = t.localID ∧ u ∈ excluded

def TransitAllowed (t : Topology) (id : String) : Prop :=
  ∃ state, t.lsas.lookup id = some state ∧ state.record.transitAllowed = true

/-- The combined round-trip time of a link. -/
def linkRTT (t : Topology) (u v : String) : Duration :=
  match t.link? u v, t.link? v u with
  | some l, some r => combinedRTT l.rttMillis r.rttMillis
  | _, _ => 0

/-- The sum of the round-trip times along a path. -/
def pathRTT (t : Topology) (p : List String) : Duration :=
  ((p.zip p.tail).map fun e => t.linkRTT e.1 e.2).sum

/-- A path from the local node to `d` that a route may take. -/
structure AdmissiblePath (t : Topology) (excluded : List String) (dataOnly : Bool) (p : List String)
    (d : String) : Prop where
  first : p.head? = some t.localID
  last : p.getLast? = some d
  hop : 2 ≤ p.length
  simple : p.Nodup
  links : p.IsChain fun u v => t.Confirmed dataOnly u v ∧ ¬ t.Excluded excluded u v
  transit : ∀ x ∈ p.tail.dropLast, t.TransitAllowed x

/-- Node ids are not empty, and a record lists every peer once. -/
structure WellFormed (t : Topology) : Prop where
  nonempty : "" ∉ t.nodes
  unique : ∀ id state, t.lsas.lookup id = some state →
    (state.record.links.map LinkStateLink.peerID).Nodup

/-- The graph that the search walks through. -/
def graph (t : Topology) (excluded : List String) (dataOnly : Bool) :
    LabelSetting.Graph String where
  edge u v := t.Confirmed dataOnly u v ∧ ¬ t.Excluded excluded u v
  transit := t.TransitAllowed

end Topology

variable {t : Topology} {excluded : List String} {dataOnly : Bool} {u v d : String} {p q : List String}

/-! ## Edges -/

theorem findLink_of_mem {links : List LinkStateLink} (hnd : (links.map LinkStateLink.peerID).Nodup)
    {link : LinkStateLink} (hmem : link ∈ links) : findLink links link.peerID = some link := by
  unfold findLink
  induction links with
  | nil => cases hmem
  | cons a links ih =>
    rw [map_cons, nodup_cons] at hnd
    rcases mem_cons.1 hmem with rfl | hmem
    · simp
    rw [List.find?_cons_of_neg]
    · exact ih hnd.2 hmem
    · simp only [decide_eq_true_eq]
      intro heq
      exact hnd.1 (heq ▸ mem_map_of_mem hmem)

/-- **The edges of the search are the confirmed links**, with their combined round-trip time. -/
theorem mem_edgesFrom_iff (hwf : t.WellFormed) {e : GraphEdge} :
    e ∈ t.edgesFrom excluded dataOnly u ↔
      (t.graph excluded dataOnly).edge u e.target ∧ e.rtt = t.linkRTT u e.target := by
  constructor
  · intro he
    unfold edgesFrom at he
    split at he
    · cases he
    rename_i hum
    split at he
    · cases he
    rename_i state hst
    obtain ⟨link, hli, hed⟩ := mem_filterMap.1 he
    unfold confirmedEdge at hed
    split at hed
    · cases hed
    rename_i hexcl
    split at hed
    · cases hed
    rename_i hvm
    simp only [bind_eq_bind, bind_eq_some_iff] at hed
    obtain ⟨rstate, hrst, reverse, hrev, hed⟩ := hed
    split at hed <;> cases hed
    rename_i hda
    have hlu : t.link? u link.peerID = some link := by
      simp [link?, hst, findLink_of_mem (hwf.unique u state hst) hli]
    have hlv : t.link? link.peerID u = some reverse := by simp [link?, hrst, hrev]
    refine ⟨⟨⟨?_, ?_, link, reverse, hlu, hlv, ?_⟩, hexcl⟩, ?_⟩
    · rw [← AList.lookup_isSome]
      simpa [isSome_iff_ne_none] using hum
    · rw [← AList.lookup_isSome]
      simpa [isSome_iff_ne_none] using hvm
    · intro hd
      simpa [hd] using hda
    · simp [linkRTT, hlu, hlv]
  · rintro ⟨⟨⟨hum, hvm, l, r, hl, hr, hda⟩, hexcl⟩, hrtt⟩
    obtain ⟨state, hst, hfi⟩ := bind_eq_some_iff.1 hl
    obtain ⟨rstate, hrst, hrf⟩ := bind_eq_some_iff.1 hr
    have hlm := mem_of_find?_eq_some hfi
    have hpe : l.peerID = e.target := by simpa using List.find?_some hfi
    rw [← AList.lookup_isSome] at hum hvm
    have hu : ¬ (t.members.lookup u).isNone = true := by simpa [isSome_iff_ne_none] using hum
    have hv : ¬ (t.members.lookup l.peerID).isNone = true := by
      rw [hpe]
      simpa [isSome_iff_ne_none] using hvm
    unfold edgesFrom
    rw [if_neg hu, hst]
    refine mem_filterMap.2 ⟨l, hlm, ?_⟩
    unfold confirmedEdge
    rw [if_neg (by rw [hpe]; exact hexcl), if_neg hv, hpe, hrst]
    simp only [bind_eq_bind, bind_some, hrf]
    have hok : ¬ (dataOnly && (l.controlOnly || r.controlOnly)) = true := by
      cases hd : dataOnly with
      | false => simp
      | true => simp [hda hd]
    rw [if_neg hok]
    have hsa : e.rtt = combinedRTT l.rttMillis r.rttMillis := by rw [hrtt, linkRTT, hl, hr]
    rw [← hsa]

/-! ## Paths -/

/-- **The paths of the search that have a hop are the admissible paths.** -/
theorem walk_iff_admissible :
    Walk (t.graph excluded dataOnly) t.localID p d ∧ 2 ≤ p.length ↔
      t.AdmissiblePath excluded dataOnly p d := by
  constructor
  · rintro ⟨h, hlen⟩
    exact ⟨h.head?, h.getLast?, hlen, h.nodup, h.isChain, h.transit⟩
  · rintro ⟨hfi, hla, hhop, hsim, hli, htra⟩
    exact ⟨.of_isChain hfi hla hsim hli htra, hhop⟩

end Winkyou.Mesh
