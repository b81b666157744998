import Mathlib.Data.List.Induction
import Mathlib.Data.List.Nodup
import Winkyou.Lib.Except

/-!
# Loops that keep the first of repeated inputs

Every input of the loop brings keyed records. The loop skips some inputs. It keeps one whose keys
are all new, with its records, and drops one whose records it has accepted before.

* `Rule`, `Round`: what a loop does with one input.
* `accepted_of_foldlM`: what a loop that succeeds has done (`Accepted`).
* `Accepted.mem_keys_iff`: its keys do not depend on the order.
-/

namespace Winkyou.Dedup

open List Except

variable {α β κ ν ε σ : Type}

/-- The keys of some records. -/
def keys (seen : List (κ × ν)) : List κ := seen.map Prod.fst

@[simp] theorem keys_nil : keys ([] : List (κ × ν)) = [] := rfl

@[simp] theorem keys_append (seen seen' : List (κ × ν)) :
    keys (seen ++ seen') = keys seen ++ keys seen' :=
  map_append

theorem mem_keys {p : κ × ν} {seen : List (κ × ν)} (h : p ∈ seen) : p.1 ∈ keys seen :=
  mem_map.2 ⟨p, h, rfl⟩

/-- The inputs that a loop takes, what it checks of them, the records that they bring and the output
that each is kept as. -/
structure Rule (α β κ ν : Type) where
  takes : α → Prop
  checked : α → Prop
  items : α → List (κ × ν)
  keeps : α → β → Prop
  source : β → α
  items_ne_nil : ∀ a, items a ≠ []
  items_nodup : ∀ {a}, checked a → (keys (items a)).Nodup
  source_eq : ∀ {a b}, keeps a b → source b = a

/-- The rule of a loop that keeps its inputs, each with one record. -/
def Rule.single (takes checked : α → Prop) (item : α → κ × ν) : Rule α α κ ν where
  takes := takes
  checked := checked
  items a := [item a]
  keeps a b := b = a
  source := id
  items_ne_nil _ := cons_ne_nil _ _
  items_nodup _ := nodup_singleton _
  source_eq h := h

/-- One round of a loop, with the output that it adds. -/
inductive Round (r : Rule α β κ ν) (seen : List (κ × ν)) (a : α) : Option β → List (κ × ν) → Prop
  | skipped (htakes : ¬ r.takes a) : Round r seen a none seen
  | repeated (htakes : r.takes a) (hchecked : r.checked a) (hsub : r.items a ⊆ seen) :
      Round r seen a none seen
  | kept {b : β} (htakes : r.takes a) (hchecked : r.checked a) (hnew : ∀ k ∈ keys (r.items a),
      k ∉ keys seen) (hkeeps : r.keeps a b) : Round r seen a (some b) (seen ++ r.items a)

/-- What a loop has done. -/
structure Accepted (r : Rule α β κ ν) (seen : List (κ × ν)) (inputs : List α) (outs : List β)
    (seen' : List (κ × ν)) : Prop where
  seen_eq : seen' = seen ++ outs.flatMap fun b => r.items (r.source b)
  sublist : (outs.map r.source).Sublist inputs
  kept : ∀ b ∈ outs, r.takes (r.source b) ∧ r.keeps (r.source b) b
  nodup : (keys seen').Nodup
  ok : ∀ a ∈ inputs, r.takes a → r.checked a ∧ r.items a ⊆ seen'

variable {r : Rule α β κ ν} {seen seen' : List (κ × ν)} {inputs : List α} {outs : List β}

theorem Accepted.concat {a : α} {out : Option β} {next : List (κ × ν)}
    (h : Accepted r seen inputs outs seen') (hro : Round r seen' a out next) :
    Accepted r seen (inputs ++ [a]) (outs ++ out.toList) next := by
  have hok : ∀ {next}, seen' ⊆ next → (r.takes a → r.checked a ∧ r.items a ⊆ next) →
      ∀ x ∈ inputs ++ [a], r.takes x → r.checked x ∧ r.items x ⊆ next := by
    intro next hsub hla
    rw [forall_mem_append, forall_mem_singleton]
    exact ⟨fun x hx hta => ⟨(h.ok x hx hta).1, List.Subset.trans (h.ok x hx hta).2 hsub⟩, hla⟩
  cases hro with
  | skipped hta =>
    rw [Option.toList_none, append_nil]
    exact ⟨h.seen_eq, h.sublist.trans (sublist_append_left _ _), h.kept, h.nodup,
      hok (List.Subset.refl _) fun h => absurd h hta⟩
  | repeated hta hche hsub =>
    rw [Option.toList_none, append_nil]
    exact ⟨h.seen_eq, h.sublist.trans (sublist_append_left _ _), h.kept, h.nodup,
      hok (List.Subset.refl _) fun _ => ⟨hche, hsub⟩⟩
  | @kept b hta hche hnew hke =>
    have hsou := r.source_eq hke
    rw [Option.toList_some]
    refine ⟨?_, ?_, ?_, ?_, hok (subset_append_left _ _) fun _ => ⟨hche, subset_append_right _ _⟩⟩
    · rw [flatMap_append, flatMap_singleton, hsou, ← append_assoc, ← h.seen_eq]
    · rw [map_append, map_singleton, hsou]
      exact h.sublist.append (List.Sublist.refl _)
    · rw [forall_mem_append, forall_mem_singleton, hsou]
      exact ⟨h.kept, hta, hke⟩
    · rw [keys_append]
      exact nodup_append.2 ⟨h.nodup, r.items_nodup hche, fun k hk k' hk' heq => hnew k' hk' (heq ▸ hk)⟩

/-- **What a loop has done when it succeeds.** The invariant relates the rest of the loop's state to
the inputs it has read and the outputs it has kept. -/
theorem accepted_of_foldlM {step : σ × List (κ × ν) → α → Except ε (σ × List (κ × ν))}
    {I : List α → List β → σ → Prop} {s s' : σ}
    (hst : ∀ {ins : List α} {outs : List β} {acc acc' : σ × List (κ × ν)} {a : α}, I ins outs acc.1 →
      (keys acc.2).Nodup → step acc a = .ok acc' →
        ∃ out, Round r acc.2 a out acc'.2 ∧ I (ins ++ [a]) (outs ++ out.toList) acc'.1)
    (hin : I [] [] s) (hno : (keys seen).Nodup) (h : inputs.foldlM step (s, seen) = .ok (s', seen')) :
    ∃ outs, I inputs outs s' ∧ Accepted r seen inputs outs seen' := by
  -- the loop runs from left to right, so the induction takes off the last input
  induction inputs using reverseRecOn generalizing s' seen' with
  | nil =>
    cases h
    exact ⟨[], hin, by simp, by simp, by simp, hno, by simp⟩
  | append_singleton inputs a ih =>
    obtain ⟨⟨s₀, seen₀⟩, hbef, hla⟩ := foldlM_concat_ok_iff.1 h
    obtain ⟨outs, hI, hacc⟩ := ih hbef
    obtain ⟨out, hro, hI'⟩ := hst hI hacc.nodup hla
    exact ⟨outs ++ out.toList, hI', hacc.concat hro⟩

/-- A loop that appends the elements with new keys that pass a check. -/
theorem foldlM_append_ok_iff {step : List α → α → Except ε (List α)} {k : α → κ} {P : α → Prop}
    {l out : List α}
    (hst : ∀ {acc a acc'}, step acc a = .ok acc' ↔ (k a ∉ acc.map k ∧ P a) ∧ acc ++ [a] = acc') :
    l.foldlM step [] = .ok out ↔ out = l ∧ (l.map k).Nodup ∧ ∀ a ∈ l, P a := by
  induction l using reverseRecOn generalizing out with
  | nil => simp [pure, Except.pure, eq_comm]
  | append_singleton l a ih =>
    rw [foldlM_concat_ok_iff, map_append, map_singleton, nodup_middle, append_nil, nodup_cons]
    simp only [ih, hst, forall_mem_append, forall_mem_singleton]
    constructor
    · rintro ⟨_, ⟨rfl, hno, hl⟩, ⟨hnew, ha⟩, rfl⟩
      exact ⟨rfl, ⟨hnew, hno⟩, hl, ha⟩
    · rintro ⟨rfl, ⟨hnew, hno⟩, hl, ha⟩
      exact ⟨l, ⟨rfl, hno, hl⟩, ⟨hnew, ha⟩, rfl⟩

namespace Accepted

variable (h : Accepted r seen inputs outs seen')

include h

theorem subset : seen ⊆ seen' := by
  rw [h.seen_eq]
  exact subset_append_left _ _

variable {b : β}

theorem mem_inputs (hb : b ∈ outs) : r.source b ∈ inputs :=
  h.sublist.subset (mem_map.2 ⟨b, hb, rfl⟩)

theorem out_ok (hb : b ∈ outs) : r.checked (r.source b) :=
  (h.ok _ (h.mem_inputs hb) (h.kept b hb).1).1

/-- An accepted record was there before or comes from an output. -/
theorem mem_cases {p : κ × ν} (hp : p ∈ seen') :
    p ∈ seen ∨ ∃ b ∈ outs, p ∈ r.items (r.source b) := by
  rw [h.seen_eq, mem_append, mem_flatMap] at hp
  exact hp

theorem mem_keys_iff {k : κ} :
    k ∈ keys seen' ↔ k ∈ keys seen ∨ ∃ a ∈ inputs, r.takes a ∧ k ∈ keys (r.items a) := by
  constructor
  · intro hk
    obtain ⟨p, hp, rfl⟩ := mem_map.1 hk
    rcases h.mem_cases hp with hp | ⟨b, hb, hp⟩
    · exact .inl (mem_keys hp)
    · exact .inr ⟨r.source b, h.mem_inputs hb, (h.kept b hb).1, mem_keys hp⟩
  · rintro (hk | ⟨a, ha, hta, hk⟩)
    · exact map_subset _ h.subset hk
    · exact map_subset _ (h.ok a ha hta).2 hk

end Accepted

end Winkyou.Dedup
