import Mathlib.Tactic.Attr.Core

/-!
# Fallible computations

`failIf` is the guard `if c then return an error`. A computation that succeeds is taken
apart by `bind_ok_iff`: each of its steps succeeded.
-/

namespace Except

open Except (error ok)

universe u v

variable {ε ε' : Type u} {α β : Type v}

/-- Fail with `e` when `c` holds. -/
def failIf (c : Prop) [Decidable c] (e : ε) : Except ε Unit := if c then .error e else .ok ()

@[simp] theorem failIf_ok_iff {c : Prop} [Decidable c] {e : ε} {u : Unit} :
    failIf c e = .ok u ↔ ¬ c := by
  unfold failIf
  split <;> simp [*]

variable {x : Except ε α}

@[simp] theorem bind_ok_iff {f : α → Except ε β} {b : β} :
    (x >>= f) = .ok b ↔ ∃ a, x = .ok a ∧ f a = .ok b := by
  cases x with
  | error e => simp [bind, Except.bind]
  | ok a => simp [bind, Except.bind]

@[simp] theorem mapError_ok_iff (x : Except ε α) (g : ε → ε') (a : α) :
    x.mapError g = .ok a ↔ x = .ok a := by
  cases x with
  | error e =>
    change error (g e) = ok a ↔ _
    simp
  | ok b =>
    change ok b = ok a ↔ _
    simp

theorem failIf_error_iff {c : Prop} [Decidable c] {e e' : ε} :
    failIf c e = .error e' ↔ c ∧ e = e' := by
  unfold failIf
  split <;> simp [*]

/-- A sequence fails in its first part, or in its second. -/
theorem bind_error_iff {f : α → Except ε β} {e : ε} :
    (x >>= f) = .error e ↔ x = .error e ∨ ∃ a, x = .ok a ∧ f a = .error e := by
  cases x with
  | error e' => simp [bind, Except.bind]
  | ok a => simp [bind, Except.bind]

theorem mapError_error_iff {g : ε → ε'} {e : ε'} :
    x.mapError g = .error e ↔ ∃ e', x = .error e' ∧ g e' = e := by
  cases x with
  | error e' =>
    change error (g e') = error e ↔ _
    simp
  | ok b =>
    change ok b = error e ↔ _
    simp

theorem exists_ok_of_isOk (h : x.isOk = true) : ∃ a, x = .ok a := by
  cases x with
  | error e => cases h
  | ok a => exact ⟨a, rfl⟩

theorem foldlM_concat_ok_iff {f : β → α → Except ε β} {b c : β} {l : List α} {a : α} :
    (l ++ [a]).foldlM f b = .ok c ↔ ∃ m, l.foldlM f b = .ok m ∧ f m a = .ok c := by
  rw [List.foldlM_append, bind_ok_iff]
  simp

end Except
