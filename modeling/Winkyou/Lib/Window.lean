import Mathlib.Tactic
import Mathlib.Algebra.Order.BigOperators.Group.List

/-!
# Sliding windows

Weighted events are admitted one after another, each only if the window that ends at it
has room. Then every window has room, wherever it ends (`total_concat_le`): the last event
of a window was admitted with all the others of the window in view.
-/

namespace Window

open List

variable {α : Type*} {time weight : α → ℤ} {l : List α} {a : α} {p q : α → Bool}

/-- The events of the window `(t - width, t]`. -/
def window (time : α → ℤ) (width t : ℤ) (l : List α) : List α :=
  l.filter fun a => t - width < time a ∧ time a ≤ t

/-- The total weight of some events. -/
def total (weight : α → ℤ) (l : List α) : ℤ := (l.map weight).sum

@[simp] theorem total_nil : total weight [] = 0 := rfl

@[simp] theorem total_append (l m : List α) :
    total weight (l ++ m) = total weight l + total weight m := by
  simp [total]

@[simp] theorem total_singleton : total weight [a] = weight a := by simp [total]

@[simp] theorem total_one (l : List α) : total (fun _ => 1) l = l.length := by
  simp [total]

theorem total_filter_le (h0 : ∀ a ∈ l, 0 ≤ weight a) (hpq : ∀ a, p a = true → q a = true) :
    total weight (l.filter p) ≤ total weight (l.filter q) := by
  refine ((monotone_filter_right l hpq).map weight).sum_le_sum ?_
  exact forall_mem_map.2 fun b hb => h0 b (mem_of_mem_filter hb)

/-- **One more event.** If every window of `l` is within the budget, and so is the window
that ends at the new event `a`, then so is every window of both. -/
theorem total_concat_le {width budget : ℤ} (h0 : ∀ b ∈ l, 0 ≤ weight b)
    (hl : ∀ t, total weight (window time width t l) ≤ budget)
    (ha : total weight (l.filter fun b => time a - width < time b) + weight a ≤ budget) (t : ℤ) :
    total weight (window time width t (l ++ [a])) ≤ budget := by
  unfold window at hl ⊢
  rw [filter_append, total_append]
  by_cases hin : t - width < time a ∧ time a ≤ t
  · -- the rest of the window is in view of the new event
    have hsub : total weight (l.filter fun b => t - width < time b ∧ time b ≤ t) ≤
        total weight (l.filter fun b => time a - width < time b) := by
      refine total_filter_le h0 fun b hb => ?_
      simp only [decide_eq_true_eq] at hb ⊢
      omega
    have hone : total weight ([a].filter fun b => t - width < time b ∧ time b ≤ t) = weight a := by
      simp [hin]
    rw [hone]
    omega
  · have hone : total weight ([a].filter fun b => t - width < time b ∧ time b ≤ t) = 0 := by
      rw [filter_cons_of_neg (by simpa using hin)]
      rfl
    rw [hone, add_zero]
    exact hl t

theorem length_concat_le {width budget : ℤ}
    (hl : ∀ t, ((window time width t l).length : ℤ) ≤ budget)
    (ha : ((l.filter fun b => time a - width < time b).length : ℤ) + 1 ≤ budget) (t : ℤ) :
    ((window time width t (l ++ [a])).length : ℤ) ≤ budget := by
  rw [← total_one] at ha ⊢
  exact total_concat_le (fun _ _ => zero_le_one) (fun t => (total_one _).trans_le (hl t)) ha t

end Window
