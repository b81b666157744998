import Mathlib.Tactic
import Mathlib.Data.List.Infix

/-!
# Latching failure streaks

A counter of consecutive bad elements that latches when it reaches a limit: the stamp of
the element that completed the first full streak is kept for good. A good element ends
the streak, and changes nothing once the latch is set.

* `run_latched_iff`: the latch is set iff `limit` consecutive elements are bad.
* `full_insert_good`, `full_insert_bad`: inserting a good or a bad element before an all-bad
  tail.
* `run_filter_le`: with more bad elements in the tail the latch is set no later.
-/

namespace Streak

open List

variable {α : Type*} {bad : α → Prop} {limit : ℕ} {l m : List α} {a : α}

/-! ## Full streaks -/

/-- `limit` consecutive elements are bad. -/
def Full (bad : α → Prop) (limit : ℕ) (l : List α) : Prop :=
  ∃ s, s <:+: l ∧ limit ≤ s.length ∧ ∀ a ∈ s, bad a

/-- A good element before an all-bad tail separates it from what came before. -/
theorem full_insert_good (h0 : 0 < limit) (ha : ¬ bad a) (hm : ∀ x ∈ m, bad x) :
    Full bad limit (l ++ a :: m) ↔ Full bad limit l ∨ limit ≤ m.length := by
  have hpre : ∀ s, s <+: a :: m → (∀ x ∈ s, bad x) → s = [] := by
    intro s hs hb
    rcases prefix_cons_iff.1 hs with rfl | ⟨t, rfl, -⟩
    · rfl
    · exact absurd (hb a (by simp)) ha
  constructor
  · rintro ⟨s, hs, hl, hb⟩
    rcases infix_append_iff.1 hs with h | h | ⟨s₁, s₂, rfl, h₁, h₂⟩
    · exact .inl ⟨s, h, hl, hb⟩
    · rcases infix_cons_iff.1 h with h | h
      · rw [hpre s h hb] at hl
        simp at hl; omega
      · exact .inr (le_trans hl h.length_le)
    · have h2 := hpre s₂ h₂ fun x hx => hb x (by simp [hx])
      subst h2
      rw [append_nil] at hl hb
      exact .inl ⟨s₁, h₁.isInfix, hl, hb⟩
  · rintro (⟨s, hs, hl, hb⟩ | hl)
    · exact ⟨s, hs.trans (infix_append' [] l _), hl, hb⟩
    · exact ⟨m, ⟨l ++ [a], [], by simp⟩, hl, hm⟩

/-- A bad element before a tail breaks no streak that reaches into the tail. -/
theorem full_insert_bad (ha : bad a) (h : Full bad limit (l ++ m)) :
    Full bad limit (l ++ a :: m) := by
  obtain ⟨s, hs, hl, hb⟩ := h
  rcases infix_append_iff.1 hs with h | ⟨u, v, h⟩ | ⟨s₁, s₂, rfl, ⟨u, h₁⟩, v, h₂⟩
  · exact ⟨s, h.trans (infix_append' [] l _), hl, hb⟩
  · exact ⟨s, ⟨l ++ a :: u, v, by simp [← h]⟩, hl, hb⟩
  · refine ⟨s₁ ++ a :: s₂, ⟨u, v, by simp [← h₁, ← h₂]⟩, ?_, ?_⟩
    · simp only [length_append, length_cons] at hl ⊢; omega
    · rw [forall_mem_append] at hb
      exact forall_mem_append.2 ⟨hb.1, forall_mem_cons.2 ⟨ha, hb.2⟩⟩

/-! ## The counter -/

section Counter

variable [DecidablePred bad] {stamp : α → ℤ} {st : ℕ × ℤ}

/-- One element: the streak, and the stamp of the latch (zero while it is not set). -/
def step (bad : α → Prop) [DecidablePred bad] (stamp : α → ℤ) (limit : ℕ) (st : ℕ × ℤ) (a : α) :
    ℕ × ℤ :=
  if ¬ bad a ∧ st.2 = 0 then (0, 0)
  else
    let k := if bad a then st.1 + 1 else st.1
    (k, if limit ≤ k ∧ st.2 = 0 then stamp a else st.2)

/-- A list of elements, from a cleared counter. -/
def run (bad : α → Prop) [DecidablePred bad] (stamp : α → ℤ) (limit : ℕ) (l : List α) : ℕ × ℤ :=
  l.foldl (step bad stamp limit) (0, 0)

theorem foldl_latched (h : st.2 ≠ 0) : (l.foldl (step bad stamp limit) st).2 = st.2 := by
  induction l generalizing st with
  | nil => rfl
  | cons a l ih =>
    have hs : (step bad stamp limit st a).2 = st.2 := by simp [step, h]
    rw [foldl_cons, ih (by rw [hs]; exact h), hs]

theorem run_append :
    run bad stamp limit (l ++ m) = m.foldl (step bad stamp limit) (run bad stamp limit l) :=
  foldl_append

theorem run_concat :
    run bad stamp limit (l ++ [a]) = step bad stamp limit (run bad stamp limit l) a := by
  rw [run_append]; rfl

/-- What the counter says while the latch is not set: the length of the bad suffix. -/
structure Counts (bad : α → Prop) (limit : ℕ) (l : List α) (k : ℕ) : Prop where
  lt : k < limit
  suff : ∃ s, s <:+ l ∧ s.length = k ∧ ∀ a ∈ s, bad a
  le : ∀ s, s <:+ l → (∀ a ∈ s, bad a) → s.length ≤ k
  notFull : ¬ Full bad limit l

/-- **The counter and the latch**: a set latch has seen a full streak, otherwise the counter
is the length of the bad suffix. -/
theorem run_cases (h0 : 0 < limit) (hs : ∀ a ∈ l, stamp a ≠ 0) :
    ((run bad stamp limit l).2 ≠ 0 ∧ Full bad limit l) ∨
      ((run bad stamp limit l).2 = 0 ∧ Counts bad limit l (run bad stamp limit l).1) := by
  induction l using List.reverseRecOn with
  | nil =>
    refine .inr ⟨rfl, h0, ⟨[], by simp, rfl, by simp⟩, ?_, ?_⟩
    · intro s hs _
      simp [suffix_nil.1 hs]
    · rintro ⟨s, hs, hl, -⟩
      rw [infix_nil.1 hs] at hl
      simp at hl; omega
  | append_singleton l a ih =>
    rw [run_concat]
    rcases ih fun b hb => hs b (by simp [hb]) with ⟨hz, s, hsl, hlen, hbad⟩ | ⟨hz, hc⟩
    · refine .inl ⟨?_, s, hsl.trans (infix_append' [] l [a]), hlen, hbad⟩
      simp [step, hz]
    by_cases hb : bad a
    · have hst : step bad stamp limit (run bad stamp limit l) a =
          ((run bad stamp limit l).1 + 1, if limit ≤ (run bad stamp limit l).1 + 1 then stamp a
            else 0) := by
        simp [step, hb, hz]
      obtain ⟨s, hsl, hlen, hbad⟩ := hc.suff
      have hsa : s ++ [a] <:+ l ++ [a] := by
        obtain ⟨p, hp⟩ := hsl
        exact ⟨p, by rw [← hp, append_assoc]⟩
      have hba : ∀ x ∈ s ++ [a], bad x := forall_mem_append.2 ⟨hbad, forall_mem_singleton.2 hb⟩
      rw [hst]
      by_cases hlim : limit ≤ (run bad stamp limit l).1 + 1
      · refine .inl ⟨?_, s ++ [a], hsa.isInfix, by simp [hlen, hlim], hba⟩
        simpa [hlim] using hs a (by simp)
      refine .inr ⟨by simp [hlim], by omega, ⟨s ++ [a], hsa, by simp [hlen], hba⟩, ?_, ?_⟩
      · intro u hu hub
        rcases suffix_concat_iff.1 hu with rfl | ⟨v, rfl, hv⟩
        · simp
        · have := hc.le v hv fun x hx => hub x (by simp [hx])
          simp; omega
      · rintro ⟨u, hu, hul, hub⟩
        rcases infix_concat_iff.1 hu with hu | hu
        · rcases suffix_concat_iff.1 hu with rfl | ⟨v, rfl, hv⟩
          · simp at hul; omega
          · have := hc.le v hv fun x hx => hub x (by simp [hx])
            simp at hul; omega
        · exact hc.notFull ⟨u, hu, hul, hub⟩
    · have hst : step bad stamp limit (run bad stamp limit l) a = (0, 0) := by simp [step, hb, hz]
      rw [hst]
      -- a good element ends every bad suffix
      have hend : ∀ u, u <:+ l ++ [a] → (∀ x ∈ u, bad x) → u = [] := by
        intro u hu hub
        rcases suffix_concat_iff.1 hu with rfl | ⟨v, rfl, -⟩
        · rfl
        · exact absurd (hub a (by simp)) hb
      refine .inr ⟨rfl, h0, ⟨[], by simp, rfl, by simp⟩, ?_, ?_⟩
      · intro u hu hub
        simp [hend u hu hub]
      · rintro ⟨u, hu, hul, hub⟩
        rcases infix_concat_iff.1 hu with hu | hu
        · rw [hend u hu hub] at hul
          simp at hul; omega
        · exact hc.notFull ⟨u, hu, hul, hub⟩

/-- **The latch is set iff some `limit` consecutive elements are bad.** -/
theorem run_latched_iff (h0 : 0 < limit) (hs : ∀ a ∈ l, stamp a ≠ 0) :
    (run bad stamp limit l).2 ≠ 0 ↔ Full bad limit l := by
  have hc : (_ ∧ Full bad limit l) ∨ _ := run_cases h0 hs
  rcases hc with ⟨h1, h2⟩ | ⟨h1, h2⟩
  · exact ⟨fun _ => h2, fun _ => h1⟩
  · exact ⟨fun h => absurd h1 h, fun h => absurd h h2.notFull⟩

/-! ## Later and earlier latches -/

theorem step_stamp (h : st.2 = 0) :
    (step bad stamp limit st a).2 = 0 ∨ (step bad stamp limit st a).2 = stamp a := by
  by_cases hb : bad a
  · by_cases hk : limit ≤ st.1 + 1
    · exact .inr (by simp [step, hb, hk, h])
    · exact .inl (by simp [step, hb, hk, h])
  · exact .inl (by simp [step, hb, h])

/-- The stamp of a latch is one of the elements'. -/
theorem foldl_stamp_mem (h : st.2 = 0) (hl : (l.foldl (step bad stamp limit) st).2 ≠ 0) :
    ∃ a ∈ l, (l.foldl (step bad stamp limit) st).2 = stamp a := by
  induction l generalizing st with
  | nil => exact absurd h hl
  | cons a l ih =>
    rw [foldl_cons] at hl ⊢
    by_cases hs : (step bad stamp limit st a).2 = 0
    · obtain ⟨b, hb, he⟩ := ih hs hl
      exact ⟨b, by simp [hb], he⟩
    · refine ⟨a, by simp, ?_⟩
      rw [foldl_latched hs]
      exact (step_stamp h).resolve_left hs

/-- **More bad elements latch no later.** Over an all-bad list with increasing stamps, the
latch of a part of it comes no earlier than that of the whole. -/
theorem foldl_filter_le (p : α → Bool) (hb : ∀ a ∈ l, bad a) (hz : ∀ a ∈ l, stamp a ≠ 0)
    (hm : l.Pairwise fun a b => stamp a ≤ stamp b) {k k' : ℕ} {t : ℤ} (hk : k ≤ k')
    (h : ((l.filter p).foldl (step bad stamp limit) (k, t)).2 ≠ 0) :
    (l.foldl (step bad stamp limit) (k', t)).2 ≠ 0 ∧
      (l.foldl (step bad stamp limit) (k', t)).2 ≤
        ((l.filter p).foldl (step bad stamp limit) (k, t)).2 := by
  by_cases ht : t = 0
  swap
  · rw [foldl_latched ht, foldl_latched ht]
    exact ⟨ht, le_rfl⟩
  subst ht
  induction l generalizing k k' with
  | nil => exact absurd rfl h
  | cons a l ih =>
    have hba := hb a (by simp)
    obtain ⟨hle, hm'⟩ := pairwise_cons.1 hm
    have hst : ∀ j : ℕ, step bad stamp limit (j, 0) a = (j + 1, if limit ≤ j + 1 then stamp a
      else 0) := by
      intro j; simp [step, hba]
    rw [foldl_cons, hst]
    by_cases hlim : limit ≤ k' + 1
    · -- the whole list latches here, and every later stamp is at least this one
      rw [if_pos hlim, foldl_latched (by simpa using hz a (by simp))]
      refine ⟨by simpa using hz a (by simp), ?_⟩
      obtain ⟨b, hbm, he⟩ := foldl_stamp_mem rfl h
      rw [he]
      rcases mem_cons.1 (mem_of_mem_filter hbm) with rfl | hb'
      · exact le_rfl
      · exact hle b hb'
    · rw [if_neg hlim]
      have hb' : ∀ x ∈ l, bad x := fun x hx => hb x (by simp [hx])
      have hz' : ∀ x ∈ l, stamp x ≠ 0 := fun x hx => hz x (by simp [hx])
      by_cases hp : p a = true
      · rw [filter_cons_of_pos hp, foldl_cons, hst, if_neg (by omega)] at h ⊢
        exact ih hb' hz' hm' (by omega) h
      · rw [filter_cons_of_neg hp] at h ⊢
        exact ih hb' hz' hm' (by omega) h

/-- The same after any beginning. -/
theorem run_filter_le (p : α → Bool) (hb : ∀ a ∈ m, bad a) (hz : ∀ a ∈ m, stamp a ≠ 0)
    (hm : m.Pairwise fun a b => stamp a ≤ stamp b)
    (h : (run bad stamp limit (l ++ m.filter p)).2 ≠ 0) :
    (run bad stamp limit (l ++ m)).2 ≠ 0 ∧
      (run bad stamp limit (l ++ m)).2 ≤ (run bad stamp limit (l ++ m.filter p)).2 := by
  rw [run_append] at h ⊢
  rw [run_append]
  exact foldl_filter_le p hb hz hm le_rfl h

end Counter

end Streak
