import Winkyou.Proof.Routed.Step

/-!
# Assertions about the tasks of a forwarder

An invariant of a forwarder is given by assertions: one about each flow object, one about each task
at a flow object, one about each task without one, and one about each frame sent. `Holds.step`
reduces the invariant to what one step of a flow object keeps (`Kept`): the assertions about the
other tasks must survive it.

The guards are what a run is assumed to meet at a step, besides the assertions.
-/

namespace Winkyou.Routed

open Winkyou.Routed.Flow List

structure Assertions where
  flow : Flow → Prop
  task : Flow → Code → Prop
  node : NodeCode → Prop
  /-- A frame that a flow object has sent. -/
  frame : Flow → Frame → Prop
  /-- A frame that no flow object has sent. -/
  bare : Frame → Prop

structure Holds (A : Assertions) (n : Node) : Prop where
  flows : ∀ f ∈ n.flows, A.flow f
  tasks : ∀ j code, Task.flow j code ∈ n.tasks → ∃ f, n.flows[j]? = some f ∧ A.task f code
  nodes : ∀ code, Task.node code ∈ n.tasks → A.node code
  sent : ∀ g ∈ n.sent, A.bare g ∨ ∃ f ∈ n.flows, A.frame f g
  table : ∀ j, n.table = some j → j < n.flows.length

/-- What a run is assumed to meet. -/
structure Guards where
  event : Flow → Event → Prop
  code : Flow → Code → Prop
  node : Node → NodeCode → Prop

/-- The assertions after a step of a flow object. -/
structure After (A : Assertions) (f f' : Flow) (out : List Frame) (codes : List Code) : Prop where
  flow : A.flow f'
  task : ∀ code, A.task f code → A.task f' code
  frame : ∀ g, A.frame f g → A.frame f' g
  out : ∀ g ∈ out, A.bare g ∨ A.frame f' g
  codes : ∀ code ∈ codes, A.task f' code

/-- Every step that meets the guards keeps the assertions. -/
structure Kept (A : Assertions) (G : Guards) : Prop where
  event : ∀ {closed f event f' out codes}, TaskStep closed f event f' out codes → G.event f event →
    A.flow f → After A f f' out codes
  code : ∀ {closed f code f' out codes}, CodeStep closed f code f' out codes → G.code f code →
    A.flow f → A.task f code → After A f f' out codes
  node : ∀ {n m code out tasks}, NodeCodeStep n code m out tasks → G.node n code → A.node code →
    (∀ g ∈ out, A.bare g) ∧ (∀ c, Task.node c ∈ tasks → A.node c) ∧
      ∀ j c, Task.flow j c ∈ tasks → n.table = some j ∧ ∀ f, A.flow f → A.task f c
  promoted : A.node .promoteOpening → A.flow (newTCPFlow false 1).markOpened
  shutdown : ∀ f, A.flow f → A.task f .shutdown

/-- The guards of an action. -/
def Guards.meets (G : Guards) (n : Node) : Node.Action → Prop
  | .flow j event => ∀ f, n.flows[j]? = some f → G.event f event
  | .task i _ =>
    (∀ j code f, n.tasks[i]? = some (.flow j code) → n.flows[j]? = some f → G.code f code) ∧
      ∀ code, n.tasks[i]? = some (.node code) → G.node (n.taken i) code
  | .close => True

variable {A : Assertions} {G : Guards} {n n' : Node} {f f' : Flow} {out : List Frame}
  {codes : List Code}

theorem Holds.taken (h : Holds A n) (i : ℕ) : Holds A (n.taken i) :=
  ⟨h.flows, fun j code ht => h.tasks j code (mem_of_mem_eraseIdx ht),
    fun code ht => h.nodes code (mem_of_mem_eraseIdx ht), h.sent, h.table⟩

theorem Holds.removeFlow (h : Holds A n) (j : ℕ) : Holds A (n.removeFlow j) := by
  unfold Node.removeFlow
  split_ifs
  · exact ⟨h.flows, h.tasks, h.nodes, h.sent, nofun⟩
  · exact h

theorem Holds.update (h : Holds A n) {j : ℕ} (hf : n.flows[j]? = some f)
    (ha : After A f f' out codes) :
    Holds A (n.update j f' out codes) := by
  have hlt : j < n.flows.length := (List.getElem?_eq_some_iff.mp hf).1
  have hse : (n.flows.set j f')[j]? = some f' := by rw [List.getElem?_set_self hlt]
  constructor
  · intro g hg
    rcases mem_or_eq_of_mem_set hg with hg | rfl
    · exact h.flows g hg
    · exact ha.flow
  · intro k code ht
    rcases mem_append.mp ht with ht | ht
    · obtain ⟨g, hg, hta⟩ := h.tasks k code ht
      by_cases hk : j = k
      · subst hk
        cases hf.symm.trans hg
        exact ⟨f', hse, ha.task code hta⟩
      · exact ⟨g, (getElem?_set_ne hk).trans hg, hta⟩
    · obtain ⟨c, hc, heq⟩ := mem_map.mp ht
      cases heq
      exact ⟨f', hse, ha.codes code hc⟩
  · intro code ht
    rcases mem_append.mp ht with ht | ht
    · exact h.nodes code ht
    · obtain ⟨c, -, heq⟩ := mem_map.mp ht
      cases heq
  · intro g hg
    rcases mem_append.mp hg with hg | hg
    · refine (h.sent g hg).imp_right ?_
      rintro ⟨f₁, hf₁, hfr⟩
      obtain ⟨k, hk⟩ := mem_iff_getElem?.mp hf₁
      by_cases hjk : j = k
      · subst hjk
        cases hf.symm.trans hk
        exact ⟨f', mem_of_getElem? hse, ha.frame g hfr⟩
      · exact ⟨f₁, mem_of_getElem? ((getElem?_set_ne hjk).trans hk), hfr⟩
    · refine (ha.out g hg).imp_right fun hfr => ⟨f', mem_of_getElem? hse, hfr⟩
  · intro k hk
    simpa [Node.update] using h.table k hk

theorem Holds.nodeCode {code : NodeCode} {m : Node} {tasks : List Task} (hk : Kept A G)
    (h : Holds A n) (hs : NodeCodeStep n code m out tasks) (hco : A.node code)
    (hg : G.node n code) :
    Holds A { m with sent := m.sent ++ out, tasks := m.tasks ++ tasks } := by
  obtain ⟨hout, hno, htas⟩ := hk.node hs hg hco
  obtain ⟨hmt, hms, hfl⟩ := hs.frame
  have hnew : ∀ f ∈ m.flows, A.flow f := by
    rcases hfl with ⟨hfl, -⟩ | ⟨hfl, -, -, rfl⟩ <;> rw [hfl]
    · exact h.flows
    · rw [forall_mem_append, forall_mem_singleton]
      exact ⟨h.flows, hk.promoted hco⟩
  have hta : ∀ j, m.table = some j → j < m.flows.length := by
    rcases hfl with ⟨hfl, hta⟩ | ⟨hfl, hta, -⟩ <;> rw [hfl, hta]
    · exact h.table
    · intro j hj
      cases hj
      simp
  refine ⟨hnew, fun j c ht => ?_, fun c ht => ?_, fun g hg => ?_, hta⟩
  · rcases mem_append.mp ht with ht | ht
    · obtain ⟨f, hf, htask⟩ := h.tasks j c (hmt ▸ ht)
      exact ⟨f, hs.getElem?_flows hf, htask⟩
    · obtain ⟨hj, htask⟩ := htas j c ht
      have hlt := h.table j hj
      exact ⟨_, hs.getElem?_flows (getElem?_eq_getElem hlt), htask _ (h.flows _ (getElem_mem hlt))⟩
  · rcases mem_append.mp ht with ht | ht
    · exact h.nodes c (hmt ▸ ht)
    · exact hno c ht
  · rcases mem_append.mp hg with hg | hg
    · refine (h.sent g (hms ▸ hg)).imp_right ?_
      rintro ⟨f, hf, hfr⟩
      obtain ⟨j, hj⟩ := mem_iff_getElem?.mp hf
      exact ⟨f, mem_of_getElem? (hs.getElem?_flows hj), hfr⟩
    · exact .inl (hout g hg)

/-- **A step of a forwarder that meets the guards keeps the assertions.** -/
theorem Holds.step {action : Node.Action} (hk : Kept A G) (h : Holds A n)
    (hs : NodeStep n action n') (hg : G.meets n action) : Holds A n' := by
  cases hs with
  | event hf hs =>
    exact h.update hf (hk.event hs (hg _ hf) (h.flows _ (mem_of_getElem? hf)))
  | code ht hf hs =>
    obtain ⟨f, hf', hta⟩ := h.tasks _ _ (mem_of_getElem? ht)
    cases hf.symm.trans hf'
    have ha := hk.code hs (hg.1 _ _ _ ht hf) (h.flows _ (mem_of_getElem? hf)) hta
    split_ifs
    · refine ((h.taken _).removeFlow _).update ?_ ha
      unfold Node.removeFlow
      split_ifs <;> exact hf
    · exact (h.taken _).update hf ha
  | node ht hs =>
    exact (h.taken _).nodeCode hk hs (h.nodes _ (mem_of_getElem? ht)) (hg.2 _ ht)
  | close =>
    refine ⟨h.flows, fun j code ht => ?_, fun code ht => ?_, h.sent, h.table⟩
    · rcases mem_append.mp ht with ht | ht
      · exact h.tasks j code ht
      · obtain ⟨k, hk', heq⟩ := mem_map.mp ht
        cases heq
        have hlt := h.table j (Option.mem_toList.mp hk')
        exact ⟨_, getElem?_eq_getElem hlt, hk.shutdown _ (h.flows _ (getElem_mem hlt))⟩
    · rcases mem_append.mp ht with ht | ht
      · exact h.nodes code ht
      · obtain ⟨k, -, heq⟩ := mem_map.mp ht
        cases heq

theorem Holds.delivered (h : Holds A n) {frame : Frame} (hfr : A.node (.handleFrame frame)) :
    Holds A (World.delivered n frame) := by
  refine ⟨h.flows, fun j code ht => ?_, fun code ht => ?_, h.sent, h.table⟩
  · rcases mem_append.mp ht with ht | ht
    · exact h.tasks j code ht
    · cases mem_singleton.mp ht
  · rcases mem_append.mp ht with ht | ht
    · exact h.nodes code ht
    · cases mem_singleton.mp ht
      exact hfr

theorem Holds.start_initiator (h : A.flow (newTCPFlow true 0)) : Holds A World.start.initiator where
  flows f hf := by
    rw [mem_singleton.mp hf]
    exact h
  tasks _ _ ht := absurd ht not_mem_nil
  nodes _ ht := absurd ht not_mem_nil
  sent _ hg := absurd hg not_mem_nil
  table j hj := by
    cases hj
    exact Nat.one_pos

theorem Holds.start_responder : Holds A World.start.responder where
  flows _ hf := absurd hf not_mem_nil
  tasks _ _ ht := absurd ht not_mem_nil
  nodes _ ht := absurd ht not_mem_nil
  sent _ hg := absurd hg not_mem_nil
  table _ hj := nomatch hj

theorem Holds.mono {B : Assertions} (h : Holds A n) (hfl : ∀ f ∈ n.flows, A.flow f → B.flow f)
    (hta : ∀ f code, A.task f code → B.task f code) (hno : ∀ code, A.node code → B.node code)
    (hfr : ∀ f g, A.frame f g → B.frame f g) (hba : ∀ g, A.bare g → B.bare g) : Holds B n := by
  refine ⟨fun f hf => hfl f hf (h.flows f hf), fun j code ht => ?_,
    fun code ht => hno code (h.nodes code ht), fun g hg => ?_, h.table⟩
  · obtain ⟨f, hf, ha⟩ := h.tasks j code ht
    exact ⟨f, hf, hta f code ha⟩
  · rcases h.sent g hg with hg | ⟨f, hf, hg⟩
    · exact .inl (hba g hg)
    · exact .inr ⟨f, hf, hfr f g hg⟩

end Winkyou.Routed
