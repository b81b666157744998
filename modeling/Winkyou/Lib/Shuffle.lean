import Mathlib.Data.List.Perm.Basic
import Mathlib.Tactic.SplitIfs
import Mathlib.Data.Nat.Notation

/-!
# The Fisher-Yates shuffle

`shuffle [j_m, ..., j_1] values` swaps the values at `m` and `j_m`, then those at `m - 1` and
`j_(m-1)`, down to one.

* `shuffle_perm`: whatever the draws, the result is a permutation of the values.
* `existsUnique_shuffle_eq`: each ordering of distinct values is the result of exactly one list of
  draws with `j_i ≤ i`.
-/

namespace FisherYates

open List

variable {α : Type*} {values target : Array α} {j j' : ℕ} {draws draws' : List ℕ}

def shuffle : List ℕ → Array α → Array α
  | [], values => values
  | j :: draws, values => shuffle draws (values.swapIfInBounds (draws.length + 1) j)

/-- The draw for a position is at most the position. -/
def Bounded : List ℕ → Prop
  | [] => True
  | j :: draws => j ≤ draws.length + 1 ∧ Bounded draws

theorem swap_perm (values : Array α) (i j : ℕ) : (values.swapIfInBounds i j).Perm values := by
  rw [Array.swapIfInBounds_def]
  split_ifs
  · exact Array.swap_perm _ _
  all_goals exact .refl _

theorem shuffle_perm : ∀ (draws : List ℕ) (values : Array α), (shuffle draws values).Perm values
  | [], _ => .refl _
  | _ :: draws, _ => (shuffle_perm draws _).trans (swap_perm _ _ _)

theorem getElem?_swap {i : ℕ} (hi : i < values.size) (hj : j < values.size) (k : ℕ) :
    (values.swapIfInBounds i j)[k]? = if j = k then values[i]? else if i = k then values[j]?
      else values[k]? := by
  simp only [Array.swapIfInBounds_def, hi, hj, dite_true, Array.getElem?_swap,
    Array.getElem?_eq_getElem]

/-- The positions above those of the draws are left as they are. -/
theorem getElem?_shuffle :
    ∀ {draws : List ℕ} {values : Array α}, Bounded draws → draws.length < values.size →
    ∀ {k}, draws.length < k → (shuffle draws values)[k]? = values[k]?
  | [], _, _, _, _, _ => rfl
  | j :: draws, values, hb, hlt, k, hk => by
    rw [length_cons] at hlt hk
    have hj : j ≤ draws.length + 1 := hb.1
    rw [shuffle, getElem?_shuffle hb.2 (by rw [Array.size_swapIfInBounds]; omega) (by omega),
      getElem?_swap hlt (by omega), if_neg (by omega), if_neg (by omega)]

/-- The first draw is the position from which the last value of the result comes. -/
theorem getElem?_shuffle_last (values : Array α) (hb : Bounded (j :: draws))
    (hlt : draws.length + 1 < values.size) :
    (shuffle (j :: draws) values)[draws.length + 1]? = values[j]? := by
  have hj : j ≤ draws.length + 1 := hb.1
  rw [shuffle, getElem?_shuffle hb.2 (by rw [Array.size_swapIfInBounds]; omega) (by omega),
    getElem?_swap hlt (by omega), if_pos rfl]
  split_ifs with h
  · rw [h]
  · rfl

/-- Distinct values stand at distinct positions. -/
theorem eq_of_getElem?_eq (hnd : values.toList.Nodup) (hj : j < values.size)
    (h : values[j]? = values[j']?) : j = j' := by
  rw [← Array.getElem?_toList, ← Array.getElem?_toList] at h
  exact (getElem?_inj (by simpa using hj) hnd).1 h

theorem shuffle_injective :
    ∀ {draws draws' : List ℕ} {values : Array α}, values.toList.Nodup → Bounded draws →
    Bounded draws' → draws.length = draws'.length → draws.length ≤ values.size - 1 →
    shuffle draws values = shuffle draws' values → draws = draws'
  | [], [], _, _, _, _, _, _, _ => rfl
  | j :: draws, j' :: draws', values, hnd, hb, hb', hlen, hlt, heq => by
    have hlen' : draws.length = draws'.length := by simpa using hlen
    rw [length_cons] at hlt
    have hlast := getElem?_shuffle_last values hb (by omega)
    rw [heq, hlen', getElem?_shuffle_last values hb' (by omega)] at hlast
    obtain rfl : j' = j := eq_of_getElem?_eq hnd (by have := hb'.1; omega) hlast
    have hnd' := (Array.perm_iff_toList_perm.1 (swap_perm values (draws.length + 1) j')).nodup_iff.2 hnd
    rw [shuffle, shuffle, ← hlen'] at heq
    rw [shuffle_injective hnd' hb.2 hb'.2 hlen' (by rw [Array.size_swapIfInBounds]; omega) heq]

/-- Two orderings that agree above the first position are equal. -/
theorem eq_of_agree (hp : target.Perm values) (h : ∀ k, 0 < k → target[k]? = values[k]?) :
    target = values := by
  obtain ⟨values⟩ := values
  obtain ⟨target⟩ := target
  rw [Array.perm_iff_toList_perm] at hp
  rcases values with _ | ⟨a, rest⟩
  · exact congrArg _ (perm_nil.1 hp)
  cases target with
  | nil => exact absurd hp.length_eq (by simp)
  | cons b rest' =>
    obtain rfl : rest' = rest := ext_getElem? fun k => by simpa using h (k + 1) (by omega)
    have hhead : ([b] ++ rest').Perm ([a] ++ rest') := hp
    rw [singleton_perm_singleton.1 ((perm_append_right_iff rest').1 hhead)]

theorem exists_shuffle_eq :
    ∀ (m : ℕ) {values : Array α}, values.toList.Nodup → m ≤ values.size - 1 → target.Perm values →
    (∀ k, m < k → target[k]? = values[k]?) → ∃ draws, Bounded draws ∧ draws.length = m ∧
      shuffle draws values = target
  | 0, _, _, _, hp, hagree => ⟨[], trivial, rfl, (eq_of_agree hp hagree).symm⟩
  | m + 1, values, hnd, hlt, hp, hagree => by
    have hlt' : m + 1 < values.size := by omega
    have hm : m + 1 < target.size := hp.size_eq ▸ hlt'
    -- the draw is where the value of the last open position stands
    obtain ⟨j, hj, hvalue⟩ := Array.mem_iff_getElem.1 (hp.mem_iff.1 (Array.getElem_mem hm))
    have hvalue' : values[j]? = target[m + 1]? := by simp [hvalue, hj, hm]
    have hle : j ≤ m + 1 := by
      by_contra hgt
      rw [← hagree j (by omega)] at hvalue'
      have hnd' := (Array.perm_iff_toList_perm.1 hp).nodup_iff.2 hnd
      have := eq_of_getElem?_eq hnd' (hp.size_eq ▸ hj) hvalue'
      omega
    have hswap := swap_perm values (m + 1) j
    obtain ⟨draws, hb, rfl, rfl⟩ := exists_shuffle_eq m
      ((Array.perm_iff_toList_perm.1 hswap).nodup_iff.2 hnd)
      (by rw [Array.size_swapIfInBounds]; omega) (hp.trans hswap.symm) fun k hk => by
        rw [getElem?_swap hlt' hj]
        split_ifs with h h'
        · obtain rfl : m + 1 = k := by omega
          rw [← hvalue', h]
        · rw [← h', hvalue']
        · exact hagree k (by omega)
    exact ⟨j :: draws, ⟨hle, hb⟩, rfl, rfl⟩

/-- **Each ordering of distinct values is the result of exactly one list of draws.** -/
theorem existsUnique_shuffle_eq (hnd : values.toList.Nodup) (hp : target.Perm values) :
    ∃! draws, (Bounded draws ∧ draws.length = values.size - 1) ∧ shuffle draws values = target := by
  obtain ⟨draws, hb, hlen, heq⟩ := exists_shuffle_eq (values.size - 1) hnd (Nat.le_refl _) hp fun k
    hk => by
    have hsize := hp.size_eq
    rw [Array.getElem?_eq_none (by omega), Array.getElem?_eq_none (by omega)]
  refine ⟨draws, ⟨⟨hb, hlen⟩, heq⟩, fun draws' h => ?_⟩
  exact shuffle_injective hnd h.1.1 hb (h.1.2.trans hlen.symm) (Nat.le_of_eq h.1.2) (h.2.trans heq.symm)

end FisherYates
