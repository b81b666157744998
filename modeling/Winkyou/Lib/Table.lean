import Mathlib.Algebra.BigOperators.Group.List.Basic
import Mathlib.Algebra.Order.BigOperators.Group.List
import Mathlib.Data.List.AList

/-!
# Finite maps: totals and indexes

* `AList.total f m` adds up `f` over the values of the map `m`. An insertion under a new key adds
  one term, the removal of a key takes its term away, and the order of the entries does not
  matter.
* `AList.fill f m keys` inserts what `f` has for each key; the order of the keys does not matter.
* `AList.Indexes m S key`: the map `m` finds exactly the elements of `S`, each under its key.
-/

/-- An update of one value leaves a projection alone when it does so at the value. -/
theorem Function.proj_update {ι β γ : Type*} [DecidableEq ι] (g : β → γ) {x : ι → β} {i : ι} {v : β}
    (h : g v = g (x i)) (j : ι) : g (update x i v j) = g (x j) := by
  rcases eq_or_ne j i with rfl | hj
  · rw [update_self, h]
  · rw [update_of_ne hj]

namespace AList

open List Function AList

variable {α β M : Type*} [AddCommMonoid M] {f g : β → M} {m m' : AList fun _ : α => β} {k : α} {v : β}

/-- The sum of `f` over the values of a map. -/
def total (f : β → M) (m : AList fun _ : α => β) : M := (m.entries.map fun e => f e.2).sum

/-- Only the values of the map matter. -/
theorem total_congr [DecidableEq α] (h : ∀ k v, m.lookup k = some v → f v = g v) :
    total f m = total g m := by
  unfold total
  congr 1
  apply map_congr_left
  intro e he
  exact h e.1 e.2 (mem_lookup_iff.2 he)

theorem total_perm (h : m.entries.Perm m'.entries) : total f m = total f m' :=
  (h.map fun e : (_ : α) × β => f e.2).sum_eq

variable [DecidableEq α]

theorem total_nonneg {f : β → ℤ} (h : ∀ k v, m.lookup k = some v → 0 ≤ f v) : 0 ≤ total f m := by
  apply sum_nonneg
  rw [forall_mem_map]
  exact fun e he => h e.1 e.2 (mem_lookup_iff.2 he)

theorem total_insert (h : k ∉ m) : total f (m.insert k v) = f v + total f m := by
  rw [total, entries_insert_of_notMem h, map_cons, sum_cons]
  rfl

/-- The entries of a map are those of the map without a key, and the entry of the key. -/
theorem perm_cons_erase (h : m.lookup k = some v) :
    m.entries.Perm (⟨k, v⟩ :: (m.erase k).entries) := by
  have hmem : k ∈ m.entries.keys := lookup_isSome.1 (by rw [h]; rfl)
  obtain ⟨b, l₁, l₂, -, heq, her⟩ := exists_of_kerase hmem
  have hb : b = v := by
    have : m.lookup k = some b := mem_lookup_iff.2 (by rw [heq]; simp)
    rw [this] at h
    exact Option.some.inj h
  subst hb
  have hent : (m.erase k).entries = l₁ ++ l₂ := her
  rw [hent, heq]
  exact perm_middle

theorem total_erase (h : m.lookup k = some v) : total f m = f v + total f (m.erase k) := by
  rw [total, ((perm_cons_erase h).map fun e : (_ : α) × β => f e.2).sum_eq, map_cons, sum_cons]
  rfl

theorem length_erase (h : m.lookup k = some v) :
    (m.erase k).entries.length + 1 = m.entries.length := by
  rw [(perm_cons_erase h).length_eq, length_cons]

theorem length_insert (h : k ∉ m) : (m.insert k v).entries.length = m.entries.length + 1 := by
  rw [entries_insert_of_notMem h, length_cons]

/-- A map without entries is one in which nothing is found. -/
theorem entries_eq_nil_iff : m.entries = [] ↔ ∀ k, m.lookup k = none := by
  constructor
  · intro h k
    have hm : m = ∅ := ext h
    rw [hm, lookup_empty]
  · intro h
    cases hm : m.entries with
    | nil => rfl
    | cons e l =>
      have hfo : m.lookup e.1 = some e.2 := mem_lookup_iff.2 (by rw [hm]; simp)
      rw [h e.1] at hfo
      cases hfo

/-! ## Maps that are filled key by key -/

/-- Insert the values that `f` has for the keys of a list. -/
def fill (f : α → Option β) (m : AList fun _ : α => β) (keys : List α) : AList fun _ : α => β :=
  keys.foldl (fun m k =>
    match f k with
    | none => m
    | some v => m.insert k v) m

theorem lookup_fill (f : α → Option β) (keys : List α) :
    ∀ m : AList fun _ : α => β, (fill f m keys).lookup k = if k ∈ keys then (f k).or (m.lookup k)
      else m.lookup k := by
  induction keys with
  | nil => exact fun m => rfl
  | cons a keys ih =>
    intro m
    rw [fill, foldl_cons]
    have hst := ih (match f a with | none => m | some v => m.insert a v)
    rw [fill] at hst
    rw [hst]
    rcases eq_or_ne k a with rfl | hka
    · cases hf : f k with
      | none => simp
      | some v => simp
    · cases hf : f a with
      | none => simp [hka]
      | some v => simp [hka]

/-! ## Indexes -/

section Indexes

variable {S S' : β → Prop} {key key' : β → α} {w : β}

/-- The map finds exactly the elements of `S`, each under its key. -/
def Indexes (m : AList fun _ : α => β) (S : β → Prop) (key : β → α) : Prop :=
  ∀ k v, m.lookup k = some v ↔ S v ∧ key v = k

section

variable (h : Indexes m S key)

include h

theorem Indexes.lookup (hv : S v) : m.lookup (key v) = some v := (h _ v).2 ⟨hv, rfl⟩

/-- A key is free when no element has it. -/
theorem Indexes.notMem_iff : k ∉ m ↔ ∀ v, S v → key v ≠ k := by
  rw [← lookup_eq_none]
  constructor
  · intro hno v hv hk
    rw [← hk, h.lookup hv] at hno
    cases hno
  · intro hfr
    cases hfo : m.lookup k with
    | none => rfl
    | some v =>
      obtain ⟨hv, hk⟩ := (h k v).1 hfo
      exact absurd hk (hfr v hv)

theorem Indexes.congr (hS : ∀ v, S' v ↔ S v) (hkey : ∀ v, S v → key' v = key v) :
    Indexes m S' key' := by
  intro k v
  rw [h k v, hS v]
  apply and_congr_right
  intro hv
  rw [hkey v hv]

theorem Indexes.insert (hk : k ∉ m) (hS : ∀ v, S' v ↔ S v ∨ v = w)
    (hkey : ∀ v, S v → key' v = key v) (hw : key' w = k) : Indexes (m.insert k w) S' key' := by
  intro k' v
  rw [hS v]
  rcases eq_or_ne k' k with rfl | hne
  · rw [lookup_insert]
    constructor
    · intro heq
      cases heq
      exact ⟨.inr rfl, hw⟩
    · rintro ⟨hv | rfl, hk'⟩
      · rw [hkey v hv] at hk'
        exact absurd hk' (h.notMem_iff.1 hk v hv)
      · rfl
  · rw [lookup_insert_ne hne, h k' v]
    constructor
    · rintro ⟨hv, hk'⟩
      exact ⟨.inl hv, by rw [hkey v hv, hk']⟩
    · rintro ⟨hv | rfl, hk'⟩
      · exact ⟨hv, by rw [← hkey v hv, hk']⟩
      · exact absurd (hk'.symm.trans hw) hne

theorem Indexes.erase (hw : S w) (hS : ∀ v, S' v ↔ S v ∧ v ≠ w)
    (hkey : ∀ v, S v → key' v = key v) : Indexes (m.erase (key w)) S' key' := by
  intro k v
  rw [hS v]
  rcases eq_or_ne k (key w) with rfl | hne
  · rw [lookup_erase]
    constructor
    · intro heq
      cases heq
    · rintro ⟨⟨hv, hvw⟩, hk⟩
      have hfo := (h _ v).2 ⟨hv, (hkey v hv).symm.trans hk⟩
      rw [h.lookup hw] at hfo
      exact absurd (Option.some.inj hfo).symm hvw
  · rw [lookup_erase_ne hne, h k v]
    constructor
    · rintro ⟨hv, hk⟩
      refine ⟨⟨hv, ?_⟩, by rw [hkey v hv, hk]⟩
      rintro rfl
      exact hne hk.symm
    · rintro ⟨⟨hv, -⟩, hk⟩
      exact ⟨hv, by rw [← hkey v hv, hk]⟩

end

end Indexes

end AList
