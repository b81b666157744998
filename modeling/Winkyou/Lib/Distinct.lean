import Mathlib.Data.Finset.Card
import Mathlib.Data.List.TakeWhile

/-!
# The first elements with different keys

* `keepFirst key n l` runs through a list and keeps an element when its key is new and fewer than
  `n` elements are kept.
* `mem_keepFirst_iff`: it keeps the elements that are the first with their key and have fewer than
  `n` different keys before them.
* `key_mem_keepFirst_iff`: the keys that are kept are those with fewer than `n` different keys
  before them.
-/

namespace Distinct

open List

variable {α κ : Type*} [DecidableEq κ] (key : α → κ) (n : ℕ)

/-- Keep an element when there is room and its key is new. -/
def keep (kept : List α) (a : α) : List α :=
  if n ≤ kept.length then kept else if key a ∈ kept.map key then kept else kept ++ [a]

/-- The elements that a run through a list keeps. -/
def keepFirst (l : List α) : List α := l.foldl (keep key n) []

/-- The number of different keys. -/
def size (l : List α) : ℕ := (l.map key).toFinset.card

/-- The number of different keys before the first element with a key. -/
def sizeBefore (k : κ) (l : List α) : ℕ := size key (l.takeWhile fun a => key a ≠ k)

variable {key n} {k : κ} {a b : α} {l l' : List α}

theorem sizeBefore_append_of_mem (h : k ∈ l.map key) :
    sizeBefore key k (l ++ l') = sizeBefore key k l := by
  obtain ⟨b, hb, hk⟩ := mem_map.1 h
  unfold sizeBefore
  congr 1
  rw [takeWhile_append, if_neg]
  intro hlen
  have hall := (List.takeWhile_prefix fun a => decide (key a ≠ k)).eq_of_length hlen
  have hne := (takeWhile_eq_self_iff.1 hall) b hb
  simp [hk] at hne

theorem sizeBefore_append_of_notMem (h : k ∉ l.map key) (ha : key a = k) :
    sizeBefore key k (l ++ [a]) = size key l := by
  have hall : ∀ b ∈ l, decide (key b ≠ k) = true := by
    intro b hb
    exact decide_eq_true fun hk => h (mem_map.2 ⟨b, hb, hk⟩)
  have hta : [a].takeWhile (fun b => decide (key b ≠ k)) = [] := by simp [ha]
  rw [sizeBefore, takeWhile_append_of_pos hall, hta, append_nil]

theorem sizeBefore_lt (h : k ∈ l.map key) : sizeBefore key k l < size key l := by
  unfold sizeBefore size
  refine Finset.card_lt_card ⟨?_, ?_⟩
  · intro x hx
    obtain ⟨b, hb, hk⟩ := mem_map.1 (mem_toFinset.1 hx)
    exact mem_toFinset.2 (mem_map.2 ⟨b, takeWhile_subset _ hb, hk⟩)
  · intro hsub
    obtain ⟨b, hb, hk⟩ := mem_map.1 (mem_toFinset.1 (hsub (mem_toFinset.2 h)))
    simpa [hk] using mem_takeWhile_imp hb

theorem size_concat (l : List α) (a : α) :
    size key (l ++ [a]) = if key a ∈ l.map key then size key l else size key l + 1 := by
  have hins : ((l ++ [a]).map key).toFinset = insert (key a) (l.map key).toFinset := by
    ext x
    simp
  rw [size, hins, Finset.card_insert_eq_ite]
  simp only [mem_toFinset, size]

/-- An element counts for its own key only, and only when the key is new. -/
theorem sizeBefore_concat (k : κ) (l : List α) (a : α) :
    k ∈ (l ++ [a]).map key ∧ sizeBefore key k (l ++ [a]) < n ↔
      (k ∈ l.map key ∧ sizeBefore key k l < n) ∨ k = key a ∧ key a ∉ l.map key ∧ size key l < n := by
  rw [map_append, mem_append, map_singleton, mem_singleton]
  by_cases hk : k ∈ l.map key
  · rw [sizeBefore_append_of_mem hk]
    exact ⟨fun h => .inl ⟨hk, h.2⟩, fun h => ⟨.inl hk, h.elim And.right fun h =>
      absurd hk (h.1 ▸ h.2.1)⟩⟩
  · constructor
    · rintro ⟨hold | rfl, hlt⟩
      · exact absurd hold hk
      · exact .inr ⟨rfl, hk, by rwa [sizeBefore_append_of_notMem hk rfl] at hlt⟩
    · rintro (⟨hold, -⟩ | ⟨rfl, -, hlt⟩)
      · exact absurd hold hk
      · exact ⟨.inr rfl, by rwa [sizeBefore_append_of_notMem hk rfl]⟩

/-- What holds after each element. -/
structure KeepOK (key : α → κ) (n : ℕ) (l kept : List α) : Prop where
  length : kept.length = min n (size key l)
  keys : ∀ k, k ∈ kept.map key ↔ k ∈ l.map key ∧ sizeBefore key k l < n
  first : ∀ b ∈ kept, l.find? (fun c => key c = key b) = some b

variable {kept : List α}

/-- An element is kept when its key is new and the different keys before it leave room. -/
theorem KeepOK.keep_eq (h : KeepOK key n l kept) (a : α) :
    Distinct.keep key n kept a = if key a ∉ l.map key ∧ size key l < n then kept ++ [a] else kept := by
  have hlen := h.length
  unfold Distinct.keep
  by_cases hro : n ≤ kept.length
  · rw [if_pos hro, if_neg fun hg => by have := hg.2; omega]
  rw [if_neg hro]
  by_cases hmem : key a ∈ l.map key
  · have hlt := sizeBefore_lt hmem
    rw [if_pos ((h.keys _).2 ⟨hmem, by omega⟩), if_neg fun hg => hg.1 hmem]
  · rw [if_neg fun hk => hmem ((h.keys _).1 hk).1, if_pos ⟨hmem, by omega⟩]

theorem KeepOK.keep (h : KeepOK key n l kept) (a : α) :
    KeepOK key n (l ++ [a]) (Distinct.keep key n kept a) := by
  have hold : ∀ b ∈ kept, (l ++ [a]).find? (fun c => key c = key b) = some b := by
    intro b hb
    rw [find?_append, h.first b hb]
    rfl
  have hlen := h.length
  rw [h.keep_eq]
  split
  · rename_i hg
    refine ⟨?_, fun k => ?_, forall_mem_append.2 ⟨hold, forall_mem_singleton.2 ?_⟩⟩
    · rw [length_append, length_singleton, size_concat, if_neg hg.1]
      omega
    · rw [sizeBefore_concat, map_append, mem_append, map_singleton, mem_singleton, h.keys,
        and_iff_left hg]
    · rw [find?_append, find?_eq_none.2]
      · simp
      · intro c hc hkey
        exact hg.1 (mem_map.2 ⟨c, hc, of_decide_eq_true hkey⟩)
  · rename_i hg
    refine ⟨?_, fun k => ?_, hold⟩
    · rw [size_concat]
      split
      · exact hlen
      · rename_i hnew
        have hfull := not_lt.1 fun hlt => hg ⟨hnew, hlt⟩
        omega
    · rw [sizeBefore_concat, h.keys, or_iff_left fun hk => hg hk.2]

theorem keepFirst_ok (key : α → κ) (n : ℕ) (l : List α) : KeepOK key n l (keepFirst key n l) := by
  induction l using reverseRecOn with
  | nil => exact ⟨by simp [keepFirst, size], by simp [keepFirst], by simp [keepFirst]⟩
  | append_singleton l a ih =>
    rw [keepFirst, foldl_append]
    exact ih.keep a

/-- **The keys that are kept.** -/
theorem key_mem_keepFirst_iff (ha : a ∈ l) :
    key a ∈ (keepFirst key n l).map key ↔ sizeBefore key (key a) l < n := by
  rw [(keepFirst_ok key n l).keys]
  exact and_iff_right (mem_map.2 ⟨a, ha, rfl⟩)

/-- **The elements that are kept.** -/
theorem mem_keepFirst_iff (ha : a ∈ l) :
    a ∈ keepFirst key n l ↔ l.find? (fun c => key c = key a) = some a ∧ sizeBefore key (key a) l <
      n := by
  have hok := keepFirst_ok key n l
  constructor
  · intro hke
    exact ⟨hok.first a hke, (key_mem_keepFirst_iff ha).1 (mem_map.2 ⟨a, hke, rfl⟩)⟩
  · rintro ⟨hfi, hlt⟩
    obtain ⟨b, hb, hkey⟩ := mem_map.1 ((key_mem_keepFirst_iff ha).2 hlt)
    have hbfi := hok.first b hb
    rw [hkey, hfi] at hbfi
    rw [Option.some.inj hbfi]
    exact hb

theorem keepFirst_subset : keepFirst key n l ⊆ l := fun b hb =>
  mem_of_find?_eq_some ((keepFirst_ok key n l).first b hb)

end Distinct
