import Mathlib.Data.Fintype.BigOperators
import Mathlib.Data.Int.CardIntervalMod
import Mathlib.Data.Nat.Periodic
import Mathlib.Data.Set.Card
import Winkyou.Lib.Shuffle
import Winkyou.Proof.HardNat.Remote

/-!
# The keyed shuffle is exact

`shuffleUint16` is the Fisher-Yates shuffle of the draws of `prfIndex`, the residues of the words
that it accepts. The accepted words hit each residue equally often (`card_accepted`), and each
ordering has one list of draws, so that all orderings come from the same number of accepted words
(`shuffle_exact`).
-/

namespace Winkyou.HardNat

open FisherYates Finset List

variable (P : Primitives) (key : Digest) (domain : Bytes) {bound : ℕ}

/-- The words that the loop of `prfIndex` accepts. -/
def accepted (bound : ℕ) : Finset ℕ := Ico (prpThreshold bound) (2 ^ 64)

/-- The word of a draw with a counter. -/
def prfWord (ordinal counter : ℕ) : ℕ :=
  uint64 ((P.hmac key (prpInput domain ordinal counter)).toList.take 8)

/-- The word with this counter is accepted, and none with a lower one. -/
def FirstAccepted (ordinal bound counter : ℕ) : Prop :=
  prfWord P key domain ordinal counter ∈ accepted bound ∧
    ∀ earlier < counter, prfWord P key domain ordinal earlier ∉ accepted bound

theorem uint64_lt {n : ℕ} :
    ∀ {bytes : Bytes} {acc : ℕ}, acc < n →
    bytes.foldl (fun n b => n * 256 + b.toNat) acc < n * 256 ^ bytes.length
  | [], _, h => by simpa using h
  | b :: bytes, acc, h => by
    have hb := b.toNat_lt
    rw [foldl_cons, length_cons, Nat.pow_succ', ← Nat.mul_assoc]
    exact uint64_lt (by omega)

theorem prfWord_lt (ordinal counter : ℕ) : prfWord P key domain ordinal counter < 2 ^ 64 := by
  refine (uint64_lt Nat.zero_lt_one).trans_le ?_
  rw [Nat.one_mul]
  exact Nat.pow_le_pow_right (by omega) (length_take_le 8 _)

/-- **A draw is the residue of the first accepted word.** -/
theorem prfIndex_eq (ordinal : ℕ) (hbound : 0 < bound) : ∃ counter < 2 ^ 32,
    FirstAccepted P key domain ordinal bound counter ∧
      prfIndex P key domain ordinal bound hbound = prfWord P key domain ordinal counter % bound := by
  obtain ⟨limit, hlimit, haccepted⟩ := P.draws key domain ordinal bound hbound
  have hdraw : ∃ counter, prpThreshold bound ≤ prfWord P key domain ordinal counter :=
    ⟨limit, haccepted⟩
  refine ⟨Nat.find hdraw, (Nat.find_min' hdraw haccepted).trans_lt hlimit,
    ⟨?_, fun earlier hlt hmem => ?_⟩, rfl⟩
  · exact mem_Ico.2 ⟨Nat.find_spec hdraw, prfWord_lt P key domain _ _⟩
  · exact Nat.find_min hdraw hlt (mem_Ico.1 hmem).1

theorem prfIndex_lt (ordinal : ℕ) (hbound : 0 < bound) :
    prfIndex P key domain ordinal bound hbound < bound :=
  Nat.mod_lt _ hbound

theorem prpThreshold_eq (hle : bound ≤ 2 ^ 64) : prpThreshold bound = 2 ^ 64 % bound := by
  rw [prpThreshold, ← Nat.add_mod_right, Nat.sub_add_cancel hle]

theorem card_accepted (hbound : 0 < bound) (hle : bound ≤ 2 ^ 64) (r : ℕ) (hr : r < bound) :
    #{w ∈ accepted bound | w % bound = r} = 2 ^ 64 / bound := by
  -- the accepted words are as many whole periods of the residue
  have hdiv : prpThreshold bound + 2 ^ 64 / bound * bound = 2 ^ 64 := by
    rw [prpThreshold_eq hle, Nat.mul_comm]
    exact Nat.mod_add_div _ _
  have hperiodic : Function.Periodic (fun w => w % bound = r) (2 ^ 64 / bound * bound) := by
    intro w
    simp only [Nat.add_mul_mod_self_right]
  have hcount := Nat.count_modEq_card (2 ^ 64 / bound * bound) hbound r
  simp only [Nat.ModEq, Nat.mod_eq_of_lt hr, Nat.mul_div_cancel _ hbound, Nat.mul_mod_left,
    Nat.not_lt_zero, if_false, add_zero] at hcount
  rw [accepted, ← hdiv, Nat.filter_Ico_card_eq_of_periodic _ _ _ hperiodic, hcount, hdiv]

/-- The draws of the shuffle from a position down. -/
def prfDraws (index : ℕ) : List ℕ :=
  ofFn fun i : Fin index => prfIndex P key domain (index - i) (index - i + 1) (Nat.succ_pos _)

theorem shuffleFrom_eq : ∀ index values,
    shuffleFrom P key domain index values = shuffle (prfDraws P key domain index) values
  | 0, _ => rfl
  | index + 1, values => by
    simp only [shuffleFrom, shuffleFrom_eq index, prfDraws, ofFn_succ, shuffle, length_ofFn,
      Fin.val_zero, Nat.sub_zero, Fin.val_succ, Nat.add_sub_add_right]

/-- The draws that a vector of words gives, in the order in which they are made: the word at `i` for
the bound `n - i`. -/
def wordDraws {n : ℕ} (words : Fin (n - 1) → ℕ) : List ℕ := ofFn fun i => words i % (n - i)

theorem bounded_ofFn : ∀ {m : ℕ} {f : Fin m → ℕ}, Bounded (ofFn f) ↔ ∀ i, f i ≤ m - i
  | 0, _ => by simp [Bounded]
  | m + 1, f => by simp [ofFn_succ, Bounded, bounded_ofFn, Fin.forall_fin_succ]

theorem wordDraws_bounded {n : ℕ} (words : Fin (n - 1) → ℕ) : Bounded (wordDraws words) := by
  refine bounded_ofFn.2 fun i => ?_
  have := Nat.mod_lt (words i) (show 0 < n - i by omega)
  omega

/-- The draws of the shuffle are those of its first accepted words. -/
theorem prfDraws_eq (n : ℕ) : ∃ counters : Fin (n - 1) → ℕ,
    (∀ i : Fin (n - 1), FirstAccepted P key domain (n - 1 - i) (n - i) (counters i)) ∧
      prfDraws P key domain (n - 1) = wordDraws fun i => prfWord P key domain (n - 1 - i)
        (counters i) := by
  choose counters _ hfirst heq using fun i : Fin (n - 1) =>
    prfIndex_eq P key domain (n - 1 - i) (Nat.succ_pos (n - 1 - i))
  have hsucc (i : Fin (n - 1)) : n - 1 - i + 1 = n - i := by omega
  refine ⟨counters, fun i => hsucc i ▸ hfirst i, ?_⟩
  refine congrArg ofFn (funext fun i => (heq i).trans ?_)
  rw [Nat.succ_eq_add_one, hsucc]

/-- **The keyed shuffle is exact.** -/
theorem shuffle_exact :
    (∀ values, (shuffleUint16 P key domain values).Perm values) ∧
    (∀ ordinal bound (hbound : 0 < bound), prfIndex P key domain ordinal bound hbound < bound ∧
      ∃ counter < 2 ^ 32, FirstAccepted P key domain ordinal bound counter ∧
        prfIndex P key domain ordinal bound hbound = prfWord P key domain ordinal counter % bound) ∧
    (∀ bound, 0 < bound → bound < 2 ^ 64 → #(accepted bound) = bound * (2 ^ 64 / bound) ∧
      ∀ r < bound, #{w ∈ accepted bound | w % bound = r} = 2 ^ 64 / bound) ∧
    (∀ values, shuffleUint16 P key domain values = shuffle (prfDraws P key domain (values.size - 1))
      values ∧ ∃ counters : Fin (values.size - 1) → ℕ,
        (∀ i : Fin _, FirstAccepted P key domain (values.size - 1 - i) (values.size - i) (counters i)) ∧
        prfDraws P key domain (values.size - 1) =
          wordDraws fun i => prfWord P key domain (values.size - 1 - i) (counters i)) ∧
    ∀ (α : Type) (values ordering : Array α), values.toList.Nodup → ordering.Perm values →
      (∃! draws, (Bounded draws ∧ draws.length = values.size - 1) ∧ shuffle draws values = ordering) ∧
      (values.size < 2 ^ 64 → Set.ncard {words : Fin (values.size - 1) →
        ℕ | (∀ i : Fin _, words i ∈ accepted (values.size - i)) ∧
        shuffle (wordDraws words) values = ordering} = ∏ i :
        Fin (values.size - 1), 2 ^ 64 / (values.size - i)) := by
  refine ⟨fun values => ?_, fun _ _ _ => ⟨prfIndex_lt P key domain _ _, prfIndex_eq P key domain _ _⟩,
    fun bound hbound hlt => ⟨?_, card_accepted hbound hlt.le⟩,
    fun values => ⟨shuffleFrom_eq P key domain _ _, prfDraws_eq P key domain _⟩,
    fun α values ordering hnd hp => ?_⟩
  · rw [shuffleUint16, shuffleFrom_eq]
    exact shuffle_perm _ _
  · rw [accepted, Nat.card_Ico, prpThreshold_eq hlt.le]
    have := Nat.mod_add_div (2 ^ 64) bound
    omega
  · have hunique := existsUnique_shuffle_eq hnd hp
    refine ⟨hunique, fun hsize => ?_⟩
    obtain ⟨draws, ⟨⟨hb, hlen⟩, heq⟩, huniq⟩ := hunique
    obtain ⟨j, rfl⟩ : ∃ j : Fin (values.size - 1) → ℕ, ofFn j = draws :=
      ⟨fun i => draws[i], ext_getElem (by simp [hlen]) (by simp)⟩
    have hwords : {words : Fin (values.size - 1) →
      ℕ | (∀ i : Fin _, words i ∈ accepted (values.size - i)) ∧
        shuffle (wordDraws words) values = ordering} =
        Fintype.piFinset fun i : Fin (values.size - 1) =>
          {w ∈ accepted (values.size - i) | w % (values.size - i) = j i} := by
      ext words
      have hdraws : shuffle (wordDraws words) values = ordering ↔
        ∀ i, words i % (values.size - i) = j i := by
        constructor
        · intro h
          have := huniq _ ⟨⟨wordDraws_bounded words, by simp [wordDraws]⟩, h⟩
          exact congrFun (ofFn_injective this)
        · intro h
          rw [wordDraws, funext h, heq]
      simp [hdraws, forall_and]
    rw [hwords, Set.ncard_coe_finset, Fintype.card_piFinset]
    refine prod_congr rfl fun i _ => card_accepted (by omega) (by omega) _ ?_
    have := bounded_ofFn.1 hb i
    omega

/-- Three values: the orderings by one primitive, and the accepted words of one of them. -/
theorem shuffle_exact_three :
    (shuffleUint16 samplePrimitives default [] #[1, 2, 3]).Perm #[1, 2, 3] ∧
    Set.ncard {words : Fin 2 → ℕ | (∀ i : Fin 2, words i ∈ accepted (3 - i)) ∧
      shuffle (wordDraws (n := 3) words) #[1, 2, 3] = #[3, 1, 2]} = 2 ^ 64 / 3 * 2 ^ 63 := by
  obtain ⟨hperm, -, -, -, hcount⟩ := shuffle_exact samplePrimitives default []
  have hordering : (#[3, 1, 2] : Array ℕ).Perm #[1, 2, 3] := Array.perm_iff_toList_perm.2 (by decide)
  exact ⟨hperm _, ((hcount ℕ _ _ (by decide) hordering).2 (by decide)).trans (by decide)⟩

end Winkyou.HardNat
