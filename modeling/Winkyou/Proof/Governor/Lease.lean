import Winkyou.Proof.Governor.Limits

/-!
# What an attempt lease can become

Every section changes a lease in one of a few ways. `Advances` says what all of them respect:
a lease keeps its identity, is never reopened or restarted, and once it is stopping no drain is
registered any more; and it keeps `LeaseOK`, the facts about the lease alone.
-/

namespace Winkyou

open List

/-- A text that `validateIdentifier` accepts. -/
structure Identifier (value : String) : Prop where
  nonempty : trimSpace value ≠ ""
  trimmed : trimSpace value = value
  length : value.utf8ByteSize ≤ 256
  noControl : value.toList.any isControl = false

theorem validateIdentifier_ok_iff {field value : String} {u : Unit} :
    validateIdentifier field value = .ok u ↔ Identifier value := by
  simp only [validateIdentifier, Except.bind_ok_iff, Except.failIf_ok_iff, exists_const, not_not,
    not_lt, ne_eq, Bool.not_eq_true]
  constructor
  · rintro ⟨h₁, h₂, h₃, h₄⟩
    exact ⟨h₁, h₂, h₃, h₄⟩
  · rintro ⟨h₁, h₂, h₃, h₄⟩
    exact ⟨h₁, h₂, h₃, h₄⟩

namespace Governor

/-- **What holds of every lease that was admitted.** -/
structure LeaseOK (l : AttemptLease) : Prop where
  identifier : Identifier l.request.id
  drained : l.drainedClosed = true → l.stoppingStarted = true ∧ l.drains = []
  closed : l.closed = true → l.stoppingStarted = true
  /-- A registered drain has completed or is in the map. -/
  pending : ∀ id, 1 ≤ id → id ≤ l.nextDrainID → id ∈ l.completed ∨ ∃ d ∈ l.drains, d.id = id
  names : ∀ d ∈ l.drains, Identifier d.name
  length : l.drains.length ≤ maxAttemptDrainRegistrations

namespace AttemptLease

variable {l l' l'' : AttemptLease}

/-- **The changes of a lease.** -/
structure Advances (l l' : AttemptLease) : Prop where
  peer : l'.peer = l.peer
  request : l'.request = l.request
  ordinary : l'.ordinary = l.ordinary
  closed : l.closed = true → l'.closed = true
  stopping : l.stoppingStarted = true → l'.stoppingStarted = true
  drains : l.stoppingStarted = true → l'.drains ⊆ l.drains
  registered : l.stoppingStarted = true → l'.nextDrainID = l.nextDrainID
  completed : l.completed ⊆ l'.completed
  ok : LeaseOK l → LeaseOK l'

theorem Advances.refl (l : AttemptLease) : l.Advances l where
  peer := rfl
  request := rfl
  ordinary := rfl
  closed := id
  stopping := id
  drains _ := List.Subset.refl _
  registered _ := rfl
  completed := List.Subset.refl _
  ok := id

theorem Advances.trans (h : l.Advances l') (h' : l'.Advances l'') : l.Advances l'' where
  peer := h'.peer.trans h.peer
  request := h'.request.trans h.request
  ordinary := h'.ordinary.trans h.ordinary
  closed hc := h'.closed (h.closed hc)
  stopping hs := h'.stopping (h.stopping hs)
  drains hs := List.Subset.trans (h'.drains (h.stopping hs)) (h.drains hs)
  registered hs := (h'.registered (h.stopping hs)).trans (h.registered hs)
  completed := List.Subset.trans h.completed h'.completed
  ok hok := h'.ok (h.ok hok)

theorem ordinary_map {f : LoopbackTerminal → LoopbackTerminal} :
    (l.modifyTerminal f).ordinary = l.ordinary := by
  cases h : l.terminal <;> simp [ordinary, modifyTerminal, h]

theorem advances_modifyTerminal (f : LoopbackTerminal → LoopbackTerminal) :
    l.Advances (l.modifyTerminal f) :=
  { Advances.refl l with ordinary := ordinary_map, ok := fun h => { h with } }

theorem advances_closeErr (e : JoinedErr) : l.Advances { l with closeErr := e } :=
  { Advances.refl l with ok := fun h => { h with } }

/-- Closing the loopback network is an advance. -/
theorem advances_maybeCloseLoopbackNetwork : l.Advances l.maybeCloseLoopbackNetwork := by
  unfold maybeCloseLoopbackNetwork
  split
  · exact advances_modifyTerminal (closeLoopbackChannels l.drains)
  · exact .refl l

theorem advances_stop :
    l.Advances { l with stoppingStarted := true, drainedClosed := l.drainedClosed || l.drains.isEmpty } := by
  refine { Advances.refl l with stopping := fun _ => rfl, ok := fun h => ?_ }
  refine { h with drained := ?_, closed := fun _ => rfl }
  intro hd
  refine ⟨rfl, ?_⟩
  rcases Bool.or_eq_true _ _ ▸ hd with hd | hd
  · exact (h.drained hd).2
  · exact List.isEmpty_iff.1 hd

theorem advances_beginStopping : l.Advances l.beginStopping := by
  unfold beginStopping
  split
  · exact .refl l
  · exact advances_stop.trans advances_maybeCloseLoopbackNetwork

theorem beginStopping_stopping (h : LeaseOK l) : l.beginStopping.stoppingStarted = true := by
  unfold beginStopping
  split
  · rename_i hop
    rcases Bool.or_eq_true _ _ ▸ hop with hc | hs
    · exact h.closed hc
    · exact hs
  · exact advances_maybeCloseLoopbackNetwork.stopping rfl

theorem beginStopping_closed : l.beginStopping.closed = l.closed := by
  unfold beginStopping
  split
  · rfl
  · unfold maybeCloseLoopbackNetwork
    split <;> rfl

/-- A lease that is stopping may be closed. -/
theorem advances_close (hs : l.stoppingStarted = true) : l.Advances { l with closed := true } :=
  { Advances.refl l with closed := fun _ => rfl, ok := fun h => { h with closed := fun _ => hs } }

theorem advances_addDrain {name : String} {accounting : Bool} (hs : l.stoppingStarted = false)
    (hna : Identifier name) (hlen : l.drains.length < maxAttemptDrainRegistrations) :
    l.Advances (l.addDrain name accounting) := by
  have hno : l.stoppingStarted ≠ true := Bool.eq_false_iff.1 hs
  refine { Advances.refl l with
    ordinary := ordinary_map, drains := fun h => absurd h hno, registered := fun h => absurd h hno,
      ok := fun h => ?_ }
  refine { h with
    drained := fun hd => absurd (h.drained hd).1 hno, pending := ?_, names := ?_, length := hlen }
  · intro id h₁ h₂
    rcases Nat.le_succ_iff.1 h₂ with h₂ | rfl
    · rcases h.pending id h₁ h₂ with hc | ⟨d, hd, hid⟩
      · exact .inl hc
      · exact .inr ⟨d, mem_cons_of_mem _ hd, hid⟩
    · exact .inr ⟨_, mem_cons_self, rfl⟩
  · exact forall_mem_cons.2 ⟨hna, h.names⟩

theorem advances_once (id : ℕ) : l.Advances { l with completed := id :: l.completed } := by
  refine { Advances.refl l with completed := subset_cons_self _ _, ok := fun h => ?_ }
  refine { h with pending := ?_ }
  intro id' h₁ h₂
  exact (h.pending id' h₁ h₂).imp_left (mem_cons_of_mem _)

theorem advances_filter {id : ℕ} (hid : id ∈ l.completed) :
    l.Advances { l with
      drains := l.drains.filter (fun d => d.id != id)
      drainedClosed := l.drainedClosed ||
        (l.stoppingStarted && (l.drains.filter (fun d => d.id != id)).isEmpty) } := by
  refine { Advances.refl l with drains := fun _ => filter_subset_self _, ok := fun h => ?_ }
  refine { h with drained := ?_, pending := ?_, names := ?_, length := ?_ }
  · intro hd
    rcases Bool.or_eq_true _ _ ▸ hd with hd | hd
    · obtain ⟨hs, hnil⟩ := h.drained hd
      refine ⟨hs, ?_⟩
      change l.drains.filter _ = []
      rw [hnil]
      rfl
    · obtain ⟨hs, hnil⟩ := Bool.and_eq_true _ _ ▸ hd
      exact ⟨hs, List.isEmpty_iff.1 hnil⟩
  · intro id' h₁ h₂
    rcases h.pending id' h₁ h₂ with hc | ⟨d, hd, rfl⟩
    · exact .inl hc
    · rcases eq_or_ne d.id id with heq | hne
      · exact .inl (heq ▸ hid)
      · exact .inr ⟨d, mem_filter.2 ⟨hd, by simpa using hne⟩, rfl⟩
  · intro d hd
    exact h.names d (mem_of_mem_filter hd)
  · exact (length_filter_le _ _).trans h.length

theorem advances_complete (id : ℕ) : l.Advances (l.complete id) := by
  unfold complete
  split
  · exact .refl l
  · dsimp only
    split
    · exact ((advances_once id).trans (advances_filter mem_cons_self)).trans
        advances_maybeCloseLoopbackNetwork
    · exact advances_once id

end AttemptLease

end Governor

end Winkyou
