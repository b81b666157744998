import Winkyou.Lib.Transition
import Winkyou.Spec.Solver.Observations

/-!
# Reloading observations

* `observations_reloaded`: the file holds whole lines as long as a failed append writes nothing.
* `reload_loses_and_reorders`: otherwise an append that succeeds is lost, and concurrent appends
  overtake each other.
-/

namespace Winkyou.ObservationStore

open List
open Transition (Reachable)

variable {α : Type} {codec : JsonCodec α} {s s' : Store α}

/-! ## Lines -/

theorem splitLinesFrom_append {text : Bytes} (h : newline ∉ text) (line rest : Bytes) :
    splitLinesFrom line (text ++ rest) = splitLinesFrom (line ++ text) rest := by
  induction text generalizing line with
  | nil => rw [nil_append, append_nil]
  | cons b text ih =>
    rw [mem_cons, not_or] at h
    rw [cons_append, splitLinesFrom, if_neg (Ne.symm h.1), ih h.2, append_assoc]
    rfl

theorem splitLines_lines (observations : List α) :
    splitLines (observations.flatMap codec.line) = observations.map codec.marshal := by
  induction observations with
  | nil => rfl
  | cons obs observations ih =>
    rw [splitLines, flatMap_cons, JsonCodec.line, append_assoc,
      splitLinesFrom_append (codec.no_newline obs)]
    exact congrArg (codec.marshal obs :: ·) ih

theorem JsonCodec.marshal_ne (codec : JsonCodec α) (obs : α) : codec.marshal obs ≠ [] := by
  intro hnil
  have hrt := codec.round_trip obs
  rw [hnil, codec.unmarshal_nil] at hrt
  cases hrt

theorem load_lines (observations : List α) :
    loadFromFile codec (observations.flatMap codec.line) =
      trimObservationHistory observations observationMemoryLimit := by
  rw [loadFromFile, splitLines_lines, filterMap_map]
  congr 1
  simp [codec.marshal_ne, codec.round_trip]

theorem trim_eq_drop (l : List α) :
    trimObservationHistory l observationMemoryLimit = l.drop (l.length - observationMemoryLimit) := by
  unfold trimObservationHistory
  split
  · rename_i h
    have hle := h.resolve_left (by decide)
    rw [Nat.sub_eq_zero_of_le hle, drop_zero]
  · rfl

theorem trim_concat (l : List α) (obs : α) :
    trimObservationHistory (trimObservationHistory l observationMemoryLimit ++ [obs])
      observationMemoryLimit =
      trimObservationHistory (l ++ [obs]) observationMemoryLimit := by
  simp only [trim_eq_drop]
  generalize observationMemoryLimit = limit
  rw [← drop_append_of_le_length (Nat.sub_le _ _), drop_drop]
  congr 1
  simp only [length_drop, length_append, length_singleton]
  omega

/-! ## Runs -/

/-- An append that fails writes nothing. -/
def FailsCleanly (codec : JsonCodec α) (s : Store α) (a : Action α) : Prop :=
  ∀ i o, a = .append i o → ∀ obs ∈ s.pending[i]?, o.ok (codec.line obs) = true ∨ o.written = 0

/-- The calls append in the order of their locked parts. -/
def InOrder (a : Action α) : Prop := ∀ i o, a = .append i o → i = 0

structure StoreOK (codec : JsonCodec α) (s : Store α) : Prop where
  file : s.file = s.appended.flatMap codec.line
  observations : s.observations = trimObservationHistory s.recorded observationMemoryLimit

theorem StoreOK.step {a : Action α} (h : StoreOK codec s) (hcl : FailsCleanly codec s a)
    (hs : s.step codec a = some s') :
    StoreOK codec s' ∧ (InOrder a → s.appended ++ s.pending <+ s.recorded →
      s'.appended ++ s'.pending <+ s'.recorded) := by
  cases a with
  | record obs =>
    cases hs
    refine ⟨⟨h.file, ?_⟩, fun _ hord => ?_⟩
    · simp only [h.observations, trim_concat]
    · rw [← append_assoc]
      exact hord.append_right _
  | append i o =>
    simp only [Store.step, Option.bind_eq_bind, Option.bind_eq_some_iff] at hs
    obtain ⟨obs, hobs, ⟨⟩⟩ := hs
    refine ⟨⟨?_, h.observations⟩, fun hin hord => ?_⟩
    · rcases hcl i o rfl obs hobs with hok | hnone
      · have hall : (codec.line obs).length ≤ o.written :=
          of_decide_eq_true (Bool.and_eq_true_iff.1 hok).2
        rw [appendJSONLine, take_of_length_le hall, if_pos hok, h.file, flatMap_append,
          flatMap_singleton]
      · have hfail : ¬ o.ok (codec.line obs) = true := by simp [Outcome.ok, hnone, JsonCodec.line]
        rw [appendJSONLine, hnone, take_zero, append_nil, if_neg hfail, h.file]
    · obtain rfl := hin i o rfl
      obtain ⟨rest, hrest⟩ : ∃ rest, s.pending = obs :: rest := by
        cases hp : s.pending with
        | nil => simp [hp] at hobs
        | cons first rest => exact ⟨rest, by simpa [hp] using hobs⟩
      rw [hrest] at hord ⊢
      refine .trans ?_ hord
      split
      · rw [append_assoc]
        rfl
      · exact (sublist_cons_self obs rest).append_left _

/-- **What is reloaded**, if a failed append writes nothing: the observations whose append
succeeded, in the order of `List` if the calls append in that order. -/
theorem observations_reloaded (codec : JsonCodec α) (s : Store α) :
    (Reachable (Store.step codec) (· = {}) (FailsCleanly codec) s →
      loadFromFile codec s.file = trimObservationHistory s.appended observationMemoryLimit) ∧
    (Reachable (Store.step codec) (· = {}) (fun s a => FailsCleanly codec s a ∧ InOrder a) s →
      s.appended <+ s.recorded ∧ s.observations =
        trimObservationHistory s.recorded observationMemoryLimit) := by
  refine ⟨fun h => ?_, fun h => ?_⟩
  · have hok : StoreOK codec s := by
      refine h.invariant ?_ fun s a s' _ hs hcl hst => (hs.step hcl hst).1
      rintro _ rfl
      exact ⟨rfl, rfl⟩
    rw [hok.file, load_lines]
  · obtain ⟨hok, hord⟩ : StoreOK codec s ∧ s.appended ++ s.pending <+ s.recorded := by
      refine h.invariant (P := fun s => StoreOK codec s ∧ s.appended ++ s.pending <+ s.recorded) ?_ ?_
      · rintro _ rfl
        exact ⟨⟨rfl, rfl⟩, .slnil⟩
      · intro s a s' _ hs ha hst
        exact ⟨(hs.1.step ha.1 hst).1, (hs.1.step ha.1 hst).2 ha.2 hs.2⟩
    exact ⟨(sublist_append_left _ _).trans hord, hok.observations⟩

/-- Observations of one digit. -/
def digitCodec : JsonCodec Bool where
  marshal obs := [if obs then 49 else 48]
  unmarshal
    | [49] => some true
    | [48] => some false
    | _ => none
  round_trip := by decide
  no_newline := by decide
  unmarshal_nil := rfl

/-- Two observations, of which the first did not reach the file. -/
def partStored : Store Bool where
  observations := [false, true]
  file := digitCodec.line true
  recorded := [false, true]
  appended := [true]

theorem observations_reloaded_part : loadFromFile digitCodec partStored.file = [true] ∧
    partStored.appended <+ partStored.recorded ∧ partStored.observations = [false, true] := by
  have hrun : Reachable (Store.step digitCodec) (· = {}) (fun s a => FailsCleanly digitCodec s a ∧
    InOrder a)
      partStored := by
    have h : Reachable (Store.step digitCodec) (· = {}) (fun s a => FailsCleanly digitCodec s a ∧
      InOrder a)
        { partStored with file := [], pending := [false, true], appended := [] } :=
      .step (a := .record true) (.step (a := .record false) (.start rfl) ⟨nofun, nofun⟩ rfl) ⟨nofun,
        nofun⟩ rfl
    refine .step (a := .append 0 ⟨2, false⟩) (.step (a := .append 0 ⟨0, true⟩) h ⟨?_, ?_⟩ rfl) ⟨?_,
      ?_⟩ rfl
    · rintro _ _ ⟨⟩ _ _
      exact .inr rfl
    · rintro _ _ ⟨⟩
      rfl
    · rintro _ _ ⟨⟩ _ _
      exact .inl rfl
    · rintro _ _ ⟨⟩
      rfl
  obtain ⟨hsub, hobs⟩ := (observations_reloaded digitCodec partStored).2 hrun
  exact ⟨(observations_reloaded digitCodec partStored).1 (hrun.mono fun _ _ h => h.1), hsub, hobs⟩

/-- **The rest of a failed append takes the next line with it, and appends overtake each other.** -/
theorem reload_loses_and_reorders :
    (Transition.runFrom (Store.step digitCodec) (fun _ _ => True) {}
        [.record true, .append 0 ⟨1, true⟩, .record false, .append 0 ⟨2, false⟩]).map
      (fun s => (s.appended, loadFromFile digitCodec s.file)) = some ([false], []) ∧
    (Transition.runFrom (Store.step digitCodec) (fun _ _ => True) {}
        [.record true, .record false, .append 1 ⟨2, false⟩, .append 0 ⟨2, false⟩]).map
      (fun s => (s.observations, loadFromFile digitCodec s.file)) = some ([true, false],
        [false, true]) :=
  ⟨rfl, rfl⟩

end Winkyou.ObservationStore
