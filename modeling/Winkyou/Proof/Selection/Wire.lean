import Mathlib.Data.List.Induction
import Mathlib.Tactic.IntervalCases
import Winkyou.Spec.Selection.Run

/-!
# What honest messages look like

* `normalizeCapability_idem`: normalising a capability twice is normalising it once, so both
  peers compute the same capability digest.
* `proposalOf_valid`: the binding of every proposal passes `validateSelectionBinding`.
* `jointSelection_mirror`: both peers compute the same joint selection.
-/

namespace Winkyou.Selection

open SelectionAgreement List

variable {H : Hasher} {values : List String} {c : Capability}
  {n : ℕ} {cfg : Config} {l r : Capability}

/-! ## Normalised capabilities -/

/-- The loop of `normalizeCapabilityValues` after a list of values. -/
def collectValues (acc values : List String) : List String :=
  values.foldl (fun normalized value =>
    if value = "" ∨ value ∈ normalized then normalized else normalized ++ [value]) acc

theorem collectValues_spec (values acc : List String) (hnd : acc.Nodup) (hne : "" ∉ acc) :
    (collectValues acc values).Nodup ∧ "" ∉ collectValues acc values := by
  refine foldlRecOn (motive := fun acc => acc.Nodup ∧ "" ∉ acc) values _ ⟨hnd, hne⟩ ?_
  rintro acc ⟨hnd, hne⟩ value -
  split
  · exact ⟨hnd, hne⟩
  rename_i hnew
  rw [not_or] at hnew
  refine ⟨?_, by simp [hne, Ne.symm hnew.1]⟩
  rw [← concat_eq_append]
  exact hnd.concat hnew.2

theorem collectValues_of_nodup {values : List String} (hnd : values.Nodup) (hne : "" ∉ values) :
    collectValues [] values = values := by
  unfold collectValues
  induction values using List.reverseRecOn with
  | nil => rfl
  | append_singleton values value ih =>
    rw [mem_append, mem_singleton, not_or] at hne
    obtain ⟨hnd, -, hdis⟩ := nodup_append.1 hnd
    rw [foldl_append, ih hnd hne.1, foldl_cons, foldl_nil, if_neg]
    rintro (h | h)
    · exact hne.2 h.symm
    · exact hdis value h value (mem_singleton_self _) rfl

theorem normalizeCapabilityValues_idem (values : List String) :
    normalizeCapabilityValues (normalizeCapabilityValues values) = normalizeCapabilityValues values := by
  obtain ⟨hnd, hne⟩ := collectValues_spec values [] nodup_nil (by simp)
  have hpe := perm_insertionSort (· ≤ ·) (collectValues [] values)
  have hsor := pairwise_insertionSort (· ≤ ·) (collectValues [] values)
  have hke := collectValues_of_nodup (hpe.nodup_iff.2 hnd) fun h => hne (hpe.mem_iff.1 h)
  calc normalizeCapabilityValues (normalizeCapabilityValues values)
      = (collectValues [] (normalizeCapabilityValues values)).insertionSort (· ≤ ·) := rfl
    _ = (normalizeCapabilityValues values).insertionSort (· ≤ ·) := congrArg _ hke
    _ = normalizeCapabilityValues values := hsor.insertionSort_eq

theorem normalizeCapability_eq (c : Capability) :
    normalizeCapability c = solverNormalizeCapability c := by
  rw [normalizeCapability, solverNormalizeCapability, solverNormalizeCapability,
    normalizeCapabilityValues_idem, normalizeCapabilityValues_idem]

/-- **Normalising is idempotent.** -/
@[simp] theorem normalizeCapability_idem (c : Capability) :
    normalizeCapability (normalizeCapability c) = normalizeCapability c := by
  rw [normalizeCapability_eq (normalizeCapability c), normalizeCapability_eq c]
  exact normalizeCapability_eq c

@[simp] theorem receivedCapability_epoch (c : SelectionCapability) :
    (receivedCapability c).epoch = c.epoch := rfl

/-! ## Digests and ordinals -/

theorem hexChar_digitChar (h : n < 16) : hexChar (Nat.digitChar n) = true := by
  interval_cases n <;> decide

/-- Encoded bytes are a valid hex text. -/
theorem selectionHex_hexEncode (bs : Bytes) :
    selectionHex (String.ofList (hexEncode bs)) bs.length = true := by
  have hlen : (hexEncode bs).length = bs.length * 2 := by
    rw [hexEncode, length_flatMap]
    simp
  have hall : (hexEncode bs).all hexChar = true := by
    rw [hexEncode, all_flatMap, all_eq_true]
    intro b _
    have hhi : b.toNat / 16 < 16 := by have := b.toNat_lt; omega
    have hlo : b.toNat % 16 < 16 := Nat.mod_lt _ (by decide)
    simp [hexChar_digitChar hhi, hexChar_digitChar hlo]
  simp [selectionHex, hlen, hall]

theorem selectionHex_selectionHash (v : Hashed) : selectionHex (selectionHash H v) 32 = true := by
  have h := selectionHex_hexEncode (H.sum v)
  rwa [H.length_sum] at h

theorem selectionOrdinal_formatUint (h : n < 2 ^ 64) : selectionOrdinal (formatUint n) = .ok n := by
  simp [selectionOrdinal, parseUint_formatUint h]

theorem formatUint_of_selectionOrdinal {s : String} (h : selectionOrdinal s = .ok n) :
    s = formatUint n := by
  unfold selectionOrdinal at h
  split at h
  · split at h <;> cases h
    exact Eq.symm ‹_›
  · cases h

/-! ## Bindings -/

theorem validateSelectionCapability_ok {c : SelectionCapability}
    (h : validateSelectionCapability c = .ok ()) :
    selectionHex c.epoch 16 = true := by
  simp only [validateSelectionCapability, Except.bind_ok_iff, Except.failIf_ok_iff] at h
  obtain ⟨_, -, hre⟩ := h
  simp only [Bool.not_eq_true, Bool.or_eq_false_iff, Bool.not_eq_false'] at hre
  exact hre.1.1

/-- **The binding of a proposal passes its check** when the two epochs are epochs and the previous
digest is a digest, or empty in the first round. -/
theorem proposalOf_valid {own remote : SelectionCapability} {names : List String}
    {previous : String} (hlo : selectionHex own.epoch 16 = true)
    (hrem : selectionHex remote.epoch 16 = true) (hn : n < 2 ^ 64)
    (hpr : n = 0 ∧ previous = "" ∨ 0 < n ∧ selectionHex previous 32 = true) :
    validateSelectionBinding (proposalOf H own remote names n previous).toSelectionBinding = .ok () := by
  have hsen := selectionHex_selectionHash (H := H) (.capability (normalizeCapability own.domainWire))
  have hrec := selectionHex_selectionHash (H := H) (.capability (normalizeCapability remote.domainWire))
  simp only [validateSelectionBinding, Except.bind_ok_iff, proposalOf]
  refine ⟨(), ?_, n, selectionOrdinal_formatUint hn, ?_⟩
  · simp [hlo, hrem, selectionCapabilityDigest, hsen, hrec]
  · rcases hpr with ⟨rfl, rfl⟩ | ⟨hpos, hhex⟩
    · simp
    · simp [hhex, Nat.ne_of_gt hpos]

/-! ## The joint selection -/

theorem jointSelection_order {p q : SelectionProposal} {joint : SelectionJoint}
    (h : jointSelection cfg l r p q = .ok joint) : joint.order.headD "" ∈ p.strategies := by
  have hhe : ∀ {xs ys : List String}, ¬ (xs.filter fun v => v ∈ ys).isEmpty = true →
      (xs.filter fun v => v ∈ ys).headD "" ∈ xs ∧ (xs.filter fun v => v ∈ ys).headD "" ∈ ys := by
    intro xs ys hne
    rw [List.isEmpty_iff] at hne
    obtain ⟨head, rest, hor⟩ := exists_cons_of_ne_nil hne
    have hmem : head ∈ xs.filter fun v => v ∈ ys := hor ▸ mem_cons_self
    rw [hor, headD_cons]
    simpa using hmem
  cases hin : cfg.initiator with
  | false =>
    simp only [jointSelection, hin, Bool.false_eq_true, if_false] at h
    split at h <;> cases h
    exact (hhe ‹_›).2
  | true =>
    simp only [jointSelection, hin, if_true] at h
    split at h <;> cases h
    exact (hhe ‹_›).1

theorem jointSelection_ok {p q : SelectionProposal} {name : String} (hp : name ∈ p.strategies)
    (hq : name ∈ q.strategies) : ∃ joint, jointSelection cfg l r p q = .ok joint := by
  have hne : ∀ {xs ys : List String}, name ∈ xs → name ∈ ys →
    ¬ (xs.filter fun v => v ∈ ys).isEmpty = true := by
    intro xs ys hx hy hem
    rw [List.isEmpty_iff] at hem
    have hmem : name ∈ xs.filter fun v => v ∈ ys := mem_filter.2 ⟨hx, by simpa using hy⟩
    simp [hem] at hmem
  cases hin : cfg.initiator with
  | false =>
    simp only [jointSelection, hin, Bool.false_eq_true, if_false, if_neg (hne hq hp)]
    exact ⟨_, rfl⟩
  | true =>
    simp only [jointSelection, hin, if_true, if_neg (hne hp hq)]
    exact ⟨_, rfl⟩

/-- **Both peers compute the same joint selection** from the same two proposals. -/
theorem jointSelection_mirror {cfg' : Config} {l' r' : Capability} (p q : SelectionProposal)
    (hm : cfg.Mirrored cfg') (hi : cfg'.initiator = !cfg.initiator)
    (hl : normalizeCapability l' = normalizeCapability r)
    (hr : normalizeCapability r' = normalizeCapability l) :
    jointSelection cfg' l' r' q p = jointSelection cfg l r p q := by
  obtain ⟨hses, hlo, hpe⟩ := hm
  simp only [jointSelection, hi, hl, hr, hses, hlo, hpe]
  cases cfg.initiator with
  | false => simp
  | true => simp

end Winkyou.Selection
