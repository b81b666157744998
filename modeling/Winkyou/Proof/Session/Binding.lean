import Winkyou.Lib.Distinct
import Winkyou.Spec.Session.Binding

/-!
# Where the transports go

`bindOutcomeSet_accounts_iff`: after a successful `bindOutcomeSet`, every transport of a successful
outcome is bound, a child, retained or closed once exactly when no outcome is shadowed: when none
has the key of another outcome that got a retained slot.

* `retainSuccessfulOutcomes_eq`: the retained outcomes are the first of the contenders with
  different keys.
* `closeUnused_count`: an outcome that is not selected is closed exactly when its key has no slot.
-/

namespace Winkyou.Session

open List
open Option (any_some bind_some isSome_iff_exists map_some some some_ne_none)
open CandidateOutcome (transport)

variable {policy : PathPolicy} {outcomes : List CandidateOutcome} {selected : Selected} {i : ℕ}
  {outcome : CandidateOutcome} {t : Transport}

/-! ## Contenders -/

/-- Whether an outcome may be retained: it succeeded, and it is not the selected one. -/
def contends (outcomes : List CandidateOutcome) (selected : Selected) (i : ℕ) : Bool :=
  !selected.isAt i && (outcomes[i]?).any isSuccessfulOutcome

/-- The outcomes that may be retained, in the order in which they are tried: the protected direct
one first. -/
def contenders (policy : PathPolicy) (outcomes : List CandidateOutcome) (selected : Selected) :
    List ℕ :=
  ((selectProtectedDirectOutcome outcomes policy).toList ++ range outcomes.length).filter
    (contends outcomes selected)

def keyAt (outcomes : List CandidateOutcome) (i : ℕ) : String := (outcomes[i]?).elim "" outcomeKey

/-- The number of outcomes that can be retained. -/
def slots (policy : PathPolicy) : ℕ :=
  if policy.multipathEnabled then (policy.maxPaths - 1).toNat else 0

/-- The indices that get a slot. -/
def slotted (policy : PathPolicy) (outcomes : List CandidateOutcome) (selected : Selected) :
    List ℕ :=
  Distinct.keepFirst (keyAt outcomes) (slots policy) (contenders policy outcomes selected)

theorem addRetained_of_not_contends (retained : List CandidateOutcome)
    (h : contends outcomes selected i = false) :
    addRetained outcomes selected retained i = retained := by
  unfold contends at h
  unfold addRetained
  rcases hi : outcomes[i]? with _ | outcome
  · rfl
  rw [hi, any_some, Bool.and_eq_false_iff] at h
  refine if_pos ?_
  rw [Bool.or_eq_true]
  refine h.imp ?_ ?_
  · intro h
    rwa [Bool.not_eq_false'] at h
  · intro h
    rw [h]
    rfl

def outcomesAt (outcomes : List CandidateOutcome) (indices : List ℕ) : List CandidateOutcome :=
  indices.filterMap fun i => outcomes[i]?

theorem outcomesAt_length {indices : List ℕ} (h : ∀ j ∈ indices, (outcomes[j]?).isSome = true) :
    (outcomesAt outcomes indices).length = indices.length := by
  rw [outcomesAt, length_filterMap_eq_countP, countP_eq_length]
  exact h

theorem outcomesAt_keys {indices : List ℕ} (h : ∀ j ∈ indices, (outcomes[j]?).isSome = true)
    (k : String) :
    k ∈ (outcomesAt outcomes indices).map outcomeKey ↔ k ∈ indices.map (keyAt outcomes) := by
  simp only [outcomesAt, mem_map, mem_filterMap]
  constructor
  · rintro ⟨other, ⟨j, hj, hot⟩, rfl⟩
    exact ⟨j, hj, by rw [keyAt, hot]; rfl⟩
  · rintro ⟨j, hj, rfl⟩
    obtain ⟨other, hot⟩ := isSome_iff_exists.1 (h j hj)
    exact ⟨other, ⟨j, hj, hot⟩, by rw [keyAt, hot]; rfl⟩

theorem contends_iff : contends outcomes selected i = true ↔
    selected.isAt i = false ∧ ∃ outcome, outcomes[i]? = some outcome ∧
      isSuccessfulOutcome outcome = true := by
  rw [contends, Bool.and_eq_true, Bool.not_eq_true', Option.any_eq_true]

/-- One step of the loop, on indices. -/
theorem addRetained_eq {kept : List ℕ} (hke : ∀ j ∈ kept, (outcomes[j]?).isSome = true)
    (hi : contends outcomes selected i = true) {room : ℤ} {n : ℕ}
    (hro : ∀ m : ℕ, (m : ℤ) ≥ room ↔ n ≤ m) :
    (if ((outcomesAt outcomes kept).length : ℤ) ≥ room then outcomesAt outcomes kept
      else addRetained outcomes selected (outcomesAt outcomes kept) i) =
      outcomesAt outcomes (Distinct.keep (keyAt outcomes) n kept i) := by
  obtain ⟨hsel, outcome, ho, hsu⟩ := contends_iff.1 hi
  have hkey : keyAt outcomes i = outcomeKey outcome := by
    rw [keyAt, ho]
    rfl
  have hany : ((outcomesAt outcomes kept).any fun other => outcomeKey other = outcomeKey outcome) =
    true ↔
      keyAt outcomes i ∈ kept.map (keyAt outcomes) := by
    rw [← outcomesAt_keys hke, hkey, any_eq_true, mem_map]
    simp only [decide_eq_true_eq]
  rw [outcomesAt_length hke, Distinct.keep]
  by_cases hfu : n ≤ kept.length
  · rw [if_pos ((hro _).2 hfu), if_pos hfu]
  rw [if_neg fun h => hfu ((hro _).1 h), if_neg hfu, addRetained, ho]
  dsimp only
  rw [hsel, hsu, if_neg (by decide)]
  by_cases hin : keyAt outcomes i ∈ kept.map (keyAt outcomes)
  · rw [if_pos (hany.2 hin), if_pos hin]
  · rw [if_neg fun h => hin (hany.1 h), if_neg hin, outcomesAt, outcomesAt, filterMap_append]
    simp [ho]

theorem keep_valid {kept : List ℕ} {n : ℕ} (hke : ∀ j ∈ kept, (outcomes[j]?).isSome = true)
    (hi : contends outcomes selected i = true) :
    ∀ j ∈ Distinct.keep (keyAt outcomes) n kept i, (outcomes[j]?).isSome = true := by
  unfold Distinct.keep
  split
  · exact hke
  split
  · exact hke
  rw [forall_mem_append, forall_mem_singleton]
  obtain ⟨-, outcome, ho, -⟩ := contends_iff.1 hi
  exact ⟨hke, congrArg Option.isSome ho⟩

theorem foldl_addRetained {room : ℤ} {n : ℕ} (hro : ∀ m : ℕ, (m : ℤ) ≥ room ↔ n ≤ m)
    (indices : List ℕ) :
    ∀ kept : List ℕ, (∀ j ∈ kept, (outcomes[j]?).isSome = true) →
      indices.foldl (fun retained i =>
        if (retained.length : ℤ) ≥ room then retained else addRetained outcomes selected retained i)
        (outcomesAt outcomes kept) =
      outcomesAt outcomes ((indices.filter (contends outcomes selected)).foldl
        (Distinct.keep (keyAt outcomes) n) kept) := by
  induction indices with
  | nil => exact fun kept _ => rfl
  | cons i indices ih =>
    intro kept hke
    rw [foldl_cons]
    by_cases hi : contends outcomes selected i = true
    · rw [addRetained_eq hke hi hro, filter_cons_of_pos hi, foldl_cons]
      exact ih _ (keep_valid hke hi)
    · rw [addRetained_of_not_contends _ (Bool.not_eq_true _ ▸ hi), ite_self, filter_cons_of_neg hi]
      exact ih kept hke

/-- **The retained outcomes** are the first contenders with different keys. -/
theorem retainSuccessfulOutcomes_eq : retainSuccessfulOutcomes outcomes selected policy =
    outcomesAt outcomes (slotted policy outcomes selected) := by
  unfold retainSuccessfulOutcomes
  split
  · -- no slot
    rename_i hoff
    have hsl : slots policy = 0 := by
      unfold slots
      rw [Bool.or_eq_true, Bool.not_eq_true', decide_eq_true_eq] at hoff
      rcases hoff with hoff | hoff
      · rw [hoff]
        rfl
      · split
        · omega
        · rfl
    have hlen := (Distinct.keepFirst_ok (keyAt outcomes) (slots policy) (contenders policy outcomes
      selected)).length
    rw [hsl, Nat.zero_min, length_eq_zero_iff] at hlen
    rw [slotted, hsl, hlen]
    rfl
  · rename_i hon
    rw [Bool.or_eq_true, not_or, Bool.not_eq_true', decide_eq_true_eq, Bool.not_eq_false] at hon
    have hro : ∀ m : ℕ, (m : ℤ) ≥ policy.maxPaths - 1 ↔ slots policy ≤ m := by
      intro m
      unfold slots
      rw [if_pos hon.1]
      omega
    -- the protected direct outcome is the first one that is tried
    have hfi : (selectProtectedDirectOutcome outcomes policy).elim [] (addRetained outcomes selected
      []) =
        (selectProtectedDirectOutcome outcomes policy).toList.foldl (fun retained i =>
          if (retained.length : ℤ) ≥ policy.maxPaths - 1 then retained
            else addRetained outcomes selected retained i)
          [] := by
      cases selectProtectedDirectOutcome outcomes policy with
      | none => rfl
      | some j =>
        refine (if_neg ?_).symm
        simp only [length_nil]
        omega
    dsimp only
    rw [hfi, ← foldl_append]
    exact foldl_addRetained hro _ [] nofun

theorem slotted_contends {j : ℕ} (hj : j ∈ slotted policy outcomes selected) :
    contends outcomes selected j = true := (mem_filter.1 (Distinct.keepFirst_subset hj)).2

theorem slotted_isSome {j : ℕ} (hj : j ∈ slotted policy outcomes selected) :
    (outcomes[j]?).isSome = true := by
  obtain ⟨-, outcome, ho, -⟩ := contends_iff.1 (slotted_contends hj)
  rw [ho]
  rfl

theorem contender_of_contends (h : contends outcomes selected i = true) :
    i ∈ contenders policy outcomes selected := by
  obtain ⟨-, outcome, ho, -⟩ := contends_iff.1 h
  refine mem_filter.2 ⟨mem_append_right _ (mem_range.2 ?_), h⟩
  by_contra hlen
  rw [getElem?_eq_none (Nat.le_of_not_lt hlen)] at ho
  exact absurd ho (some_ne_none outcome).symm

theorem retained_successful (h : outcome ∈ retainSuccessfulOutcomes outcomes selected policy) :
    isSuccessfulOutcome outcome = true := by
  rw [retainSuccessfulOutcomes_eq] at h
  obtain ⟨j, hj, ho⟩ := mem_filterMap.1 h
  obtain ⟨-, other, hot, hsu⟩ := contends_iff.1 (slotted_contends hj)
  rw [hot] at ho
  rwa [← some.inj ho]

/-! ## The annotated outcome -/

/-- What the choice of the protected direct outcome reads. -/
def protectedView (outcome : CandidateOutcome) : Bool × ℤ :=
  (isProtectedDirectOutcome outcome, outcome.score)

theorem betterProtected_congr {outcomes' : List CandidateOutcome}
    (h : ∀ i : ℕ, (outcomes'[i]?).map protectedView = (outcomes[i]?).map protectedView) :
    betterProtected outcomes' = betterProtected outcomes := by
  -- the passes of the loop, by the view
  have hvi : ∀ (l : List CandidateOutcome) (known : Option ℕ) (i : ℕ), betterProtected l known i =
      ((l[i]?).map protectedView).elim known fun v =>
        if v.1 && (known.bind fun j => (l[j]?).map protectedView).all fun w => v.2 > w.2 then some i
          else known := by
    intro l known i
    unfold betterProtected
    cases l[i]? with
    | none => rfl
    | some outcome =>
      cases known with
      | none => rfl
      | some j =>
        simp only [map_some, Option.elim_some, bind_some, Option.all_map]
        rfl
  funext known i
  rw [hvi, hvi, h]
  simp only [h]

/-- The outcomes with the selected one in another form: all that is not read through the pointer
stays. -/
structure SameButSelected (outcomes outcomes' : List CandidateOutcome) (selected : Selected) :
    Prop where
  length : outcomes'.length = outcomes.length
  view : ∀ i : ℕ, (outcomes'[i]?).map protectedView = (outcomes[i]?).map protectedView
  others : ∀ i : ℕ, selected.isAt i = false → outcomes'[i]? = outcomes[i]?

variable {outcomes' : List CandidateOutcome}

theorem SameButSelected.retain (h : SameButSelected outcomes outcomes' selected) :
    retainSuccessfulOutcomes outcomes' selected policy =
      retainSuccessfulOutcomes outcomes selected policy := by
  have hadd : addRetained outcomes' selected = addRetained outcomes selected := by
    funext retained i
    by_cases hi : selected.isAt i = true
    · have hsk : ∀ l : List CandidateOutcome, contends l selected i = false := by
        intro l
        rw [contends, hi]
        rfl
      rw [addRetained_of_not_contends _ (hsk _), addRetained_of_not_contends _ (hsk _)]
    · rw [addRetained, addRetained, h.others i (Bool.not_eq_true _ ▸ hi)]
  have hpro : selectProtectedDirectOutcome outcomes' policy =
    selectProtectedDirectOutcome outcomes policy := by
    rw [selectProtectedDirectOutcome, selectProtectedDirectOutcome, betterProtected_congr h.view,
      h.length]
  rw [retainSuccessfulOutcomes, retainSuccessfulOutcomes, hadd, hpro, h.length]

theorem SameButSelected.closeUnused (h : SameButSelected outcomes outcomes' selected)
    (retained : List CandidateOutcome) :
    closeUnusedOutcomes outcomes' selected retained =
      closeUnusedOutcomes outcomes selected retained := by
  unfold closeUnusedOutcomes
  rw [h.length]
  refine filterMap_congr fun i _ => ?_
  by_cases hi : selected.isAt i = true
  · -- the selected outcome is passed over
    have hsk : ∀ l : List CandidateOutcome, ((l[i]?).bind fun outcome =>
        if (selected.isAt i || decide (outcomeKey outcome ∈ retained.map outcomeKey) ||
          outcome.borrowedTransport) = true
        then none else outcome.transport) = none := by
      intro l
      rw [hi]
      cases l[i]? <;> rfl
    exact (hsk outcomes').trans (hsk outcomes).symm
  · rw [h.others i (Bool.not_eq_true _ ▸ hi)]

theorem annotated_same (hbe : selected.outcome outcomes = some outcome) {result : Result}
    (hres : outcome.result = some result) :
    SameButSelected outcomes
      (annotated outcomes selected { outcome with result := some (annotateResultPath result
        outcome.plan) }) selected := by
  cases selected with
  | apart other => exact ⟨rfl, fun _ => rfl, fun _ _ => rfl⟩
  | element index =>
    have hin : outcomes[index]? = some outcome := hbe
    refine ⟨length_set, ?_, ?_⟩
    · intro i
      rcases eq_or_ne index i with rfl | hne
      · rw [annotated, getElem?_set_self', hin]
        simp only [map_some, protectedView, isProtectedDirectOutcome, isSuccessfulOutcome,
          transport, hres]
        rfl
      · rw [annotated, getElem?_set_ne hne]
    · intro i hi
      rw [annotated, getElem?_set_ne]
      simpa [Selected.isAt] using hi

/-! ## The bound result -/

/-- A child path of a successful outcome has its transport. -/
theorem childPath_successful (key : String) (j : ℕ) (hsu : isSuccessfulOutcome outcome = true)
    (ht : outcome.transport = some t) :
    ∃ path, childPath key outcome j = some path ∧ path.transport = t := by
  simp only [isSuccessfulOutcome, Bool.and_eq_true, Option.isNone_iff_eq_none] at hsu
  obtain ⟨result, hres, htra⟩ := Option.bind_eq_some_iff.1 ht
  simp only [childPath, hres, htra, hsu.1, Option.bind_eq_bind, bind_some, Option.isSome_none,
    Bool.false_eq_true, if_false]
  exact ⟨_, rfl, rfl⟩

theorem childPaths_transports (key : String) (children : List CandidateOutcome) :
    ∀ n, (∀ c ∈ children, isSuccessfulOutcome c = true) →
      (((children.zipIdx n).filterMap fun (outcome, i) => childPath key outcome i).map Path.transport) =
        children.filterMap CandidateOutcome.transport := by
  induction children with
  | nil => exact fun _ _ => rfl
  | cons c children ih =>
    intro n hall
    have hc := hall c mem_cons_self
    obtain ⟨t, ht⟩ := isSome_iff_exists.1 (Bool.and_eq_true_iff.1 hc).2
    obtain ⟨path, hpa, htra⟩ := childPath_successful key n hc ht
    have hre := ih (n + 1) fun c hc => hall c (mem_cons_of_mem _ hc)
    simp only [zipIdx_cons, filterMap_cons, hpa, ht, map_cons, htra, hre]

theorem newMultipath_transports (paths : List Path) (hne : paths ≠ []) :
    ∃ children, newMultipath paths = some children ∧
      children.map Path.transport = paths.map Path.transport := by
  refine ⟨_, if_neg (by simpa using hne), ?_⟩
  rw [map_map]
  conv_rhs => rw [← zipIdx_map_fst 0 paths, map_map]
  rfl

theorem foldl_noteProtected (paths : List Path) (details : GoMap String) :
    (paths.foldl noteProtected details).lookup "multipath" = details.lookup "multipath" := by
  induction paths generalizing details with
  | nil => rfl
  | cons path paths ih =>
    rw [foldl_cons, ih]
    unfold noteProtected
    dsimp only
    rw [apply_ite (AList.lookup "multipath"), AList.lookup_insert_ne (by decide), ite_self]

theorem multipathSummary_multipath (primary : PathSummary) (paths : List Path) :
    (multipathSummary primary paths).details.lookup "multipath" = some "true" := by
  unfold multipathSummary
  dsimp only
  split <;> split <;>
    simp only [ne_eq, not_false_eq_true, String.reduceEq, AList.lookup_insert_ne,
      foldl_noteProtected, AList.lookup_insert]

/-- **What is bound**: the selected transport, alone or before those that are retained. -/
theorem buildResult_spec {best : CandidateOutcome} {result : Result} {bound : BoundResult}
    {retained : List CandidateOutcome} (hbe : best.result = some result)
    (hsu : isSuccessfulOutcome best = true)
    (hretained : retainSuccessfulOutcomes outcomes selected policy = retained)
    (hbound : buildResultTransportFromOutcomes best selected result outcomes policy = bound)
    (ht : result.transport = some t) :
    (retained = [] ∧ bound.transport = some (.single t)) ∨
    (retained ≠ [] ∧ isMultipathResult bound = true ∧
      ∃ children, bound.transport = some (.multipath children) ∧
      children.map Path.transport = t :: retained.filterMap CandidateOutcome.transport) := by
  subst hretained hbound
  unfold buildResultTransportFromOutcomes
  dsimp only
  split
  · rename_i hoff
    refine .inl ⟨?_, by rw [ht]; rfl⟩
    unfold retainSuccessfulOutcomes
    rw [hoff]
    rfl
  split
  · rename_i hem
    exact .inl ⟨isEmpty_iff.1 hem, by rw [ht]; rfl⟩
  rename_i hne
  have hall : ∀ c ∈ best :: retainSuccessfulOutcomes outcomes selected policy,
    isSuccessfulOutcome c = true :=
    forall_mem_cons.2 ⟨hsu, fun _ => retained_successful⟩
  have hpa := childPaths_transports (outcomeKey best) _ 0 hall
  have hfi : best.transport = some t := by rw [transport, hbe]; exact ht
  rw [filterMap_cons_some hfi] at hpa
  set paths := ((best :: retainSuccessfulOutcomes outcomes selected policy).zipIdx).filterMap
    fun (outcome, i) => childPath (outcomeKey best) outcome i
  -- each retained outcome is one more path
  have hret : ((retainSuccessfulOutcomes outcomes selected policy).filterMap
      transport).length = (retainSuccessfulOutcomes outcomes selected policy).length := by
    rw [length_filterMap_eq_countP, countP_eq_length]
    exact fun c hc => (Bool.and_eq_true_iff.1 (retained_successful hc)).2
  have hlen : paths.length = (retainSuccessfulOutcomes outcomes selected policy).length + 1 := by
    rw [← length_map Path.transport, hpa, length_cons, hret]
  have hpos : 0 < (retainSuccessfulOutcomes outcomes selected policy).length := by
    rw [length_pos_iff]
    exact fun h => hne (isEmpty_iff.2 h)
  rw [if_neg (by omega)]
  obtain ⟨children, hchi, htra⟩ := newMultipath_transports paths (by
    rw [← length_pos_iff]
    omega)
  rw [hchi]
  refine .inr ⟨fun h => hne (isEmpty_iff.2 h), ?_⟩
  exact ⟨decide_eq_true (multipathSummary_multipath _ _), children, rfl, htra.trans hpa⟩

/-! ## After a successful call -/

/-- The children of the bound multipath transport. -/
def Binding.children (b : Binding) : List Transport :=
  match b.session.lastRes.transport with
  | some (.multipath paths) => paths.map Path.transport
  | _ => []

def Binding.binds (b : Binding) (t : Transport) : Bool :=
  match b.session.lastRes.transport with
  | some (.single transport) => transport = t
  | _ => false

/-- The number of places that have a transport: it is bound, it is a child, it is retained, or one
for each time it was closed. -/
def Binding.places (b : Binding) (t : Transport) : ℕ :=
  (if b.binds t then 1 else 0) + (if t ∈ b.children then 1 else 0) +
    (if t ∈ b.session.retained.filterMap CandidateOutcome.transport then 1 else 0) + b.closed.count t

/-- Every successful outcome that owns its transport has one of its own, which the session does not
hold from before; those of the other outcomes may be shared among these. -/
structure Fresh (s : PathState) (outcomes : List CandidateOutcome) (selected : Selected) : Prop where
  own : ∀ (i j : ℕ) o o' t, outcomes[i]? = some o → outcomes[j]? = some o' →
    isSuccessfulOutcome o = true → o.borrowedTransport = false → o.transport = some t →
      o'.transport = some t → i = j
  apart : ∀ o, selected = .apart o → ∀ o' ∈ outcomes, isSuccessfulOutcome o' = true →
    o'.borrowedTransport = false → ∀ t, o'.transport = some t → o.transport ≠ some t
  retained : ∀ o ∈ outcomes, isSuccessfulOutcome o = true → o.borrowedTransport = false →
    ∀ t, o.transport = some t → t ∉ closeRetainedOutcomes s.retained

/-- An outcome is shadowed: it succeeded and owns its transport, but another contender with its key
is tried before it and gets a slot, because fewer than `MaxPaths - 1` keys are tried before that
one. -/
def Shadowed (policy : PathPolicy) (outcomes : List CandidateOutcome) (selected : Selected)
    (i : ℕ) : Prop :=
  contends outcomes selected i = true ∧ (outcomes[i]?).any (fun o => !o.borrowedTransport) = true ∧
    (contenders policy outcomes selected).find? (fun j => keyAt outcomes j = keyAt outcomes i) ≠
      some i ∧
    Distinct.sizeBefore (keyAt outcomes) (keyAt outcomes i) (contenders policy outcomes selected) <
      slots policy

variable {env : BindEnv} {s : PathState} {best : Option Selected}

/-- What a successful call leaves. -/
structure BindsAll (s : PathState) (outcomes : List CandidateOutcome) (selected : Selected)
    (t : Transport) (b : Binding) : Prop where
  retained : b.session.retained = []
  closed : b.closed = closeRetainedOutcomes s.retained ++
    closeUnusedOutcomes outcomes selected (retainSuccessfulOutcomes outcomes selected s.pathPolicy)
  bound : (∀ t', b.binds t' = true ↔ retainSuccessfulOutcomes outcomes selected s.pathPolicy = [] ∧
    t' = t)
  children : ∀ t', t' ∈ b.children ↔ retainSuccessfulOutcomes outcomes selected s.pathPolicy ≠ [] ∧
    (t' = t ∨ t' ∈ (retainSuccessfulOutcomes outcomes selected s.pathPolicy).filterMap
      CandidateOutcome.transport)

theorem bindAndCommit_ok {transport : BoundTransport} {closed : List Transport}
    (h : (bindAndCommit env s transport closed).err = none) :
    bindAndCommit env s transport closed = ⟨s, closed, none⟩ := by
  unfold bindAndCommit at h ⊢
  split at h
  · exact absurd h (some_ne_none _)
  · exact absurd h (some_ne_none _)
  · rfl

theorem bindOutcomeSet_spec (hcho : chosen s.pathPolicy outcomes best = some selected)
    (hbe : selected.outcome outcomes = some outcome) (hsu : isSuccessfulOutcome outcome = true)
    (hok : (bindOutcomeSet env s outcomes best).err = none) :
    ∃ t, outcome.transport = some t ∧ BindsAll s outcomes selected t
      (bindOutcomeSet env s outcomes best) := by
  obtain ⟨t, ht⟩ := isSome_iff_exists.1 (Bool.and_eq_true_iff.1 hsu).2
  obtain ⟨result, hres, htran⟩ := Option.bind_eq_some_iff.1 ht
  refine ⟨t, ht, ?_⟩
  have hsa := annotated_same hbe hres
  have hbi : bindOutcomeSet env s outcomes best = bindSelected env s outcomes selected outcome
    result := by
    simp only [bindOutcomeSet, hcho, hbe, hres]
  rw [hbi] at hok ⊢
  unfold bindSelected at hok ⊢
  dsimp only at hok ⊢
  rw [hsa.retain, hsa.closeUnused] at hok ⊢
  set best' : CandidateOutcome := { outcome with result := some (annotateResultPath result
    outcome.plan) }
  set outcomes' := annotated outcomes selected best'
  have hsu' : isSuccessfulOutcome best' = true := by
    rw [isSuccessfulOutcome, transport, hres] at hsu
    exact hsu
  generalize hbo : buildResultTransportFromOutcomes best' selected (annotateResultPath result
    outcome.plan) outcomes'
    s.pathPolicy = bound at hok ⊢
  set retained := retainSuccessfulOutcomes outcomes selected s.pathPolicy with hret
  rcases buildResult_spec rfl hsu' (hsa.retain.trans hret.symm) hbo htran with ⟨hem, hsin⟩ |
    ⟨hne, hmu, children, hchi, htra⟩
  · rw [hsin] at hok ⊢
    dsimp only at hok ⊢
    rw [bindAndCommit_ok hok]
    have hla : (s.install outcome.plan bound retained).lastRes.transport = some (.single t) := hsin
    refine ⟨?_, rfl, ?_, ?_⟩
    · show (if isMultipathResult bound then [] else retained) = []
      rw [hem, ite_self]
    · intro t'
      rw [Binding.binds, hla]
      exact decide_eq_true_iff.trans (eq_comm.trans (and_iff_right hem).symm)
    · intro t'
      rw [Binding.children, hla]
      exact ⟨fun h => absurd h not_mem_nil, fun h => absurd hem h.1⟩
  · rw [hchi] at hok ⊢
    dsimp only at hok ⊢
    rw [bindAndCommit_ok hok]
    have hla : (s.install outcome.plan bound retained).lastRes.transport =
      some (.multipath children) := hchi
    refine ⟨?_, rfl, ?_, ?_⟩
    · show (if isMultipathResult bound then [] else retained) = []
      rw [if_pos hmu]
    · intro t'
      rw [Binding.binds, hla]
      exact ⟨nofun, fun h => absurd h.1 hne⟩
    · intro t'
      rw [Binding.children, hla]
      show t' ∈ children.map Path.transport ↔ _
      rw [htra, mem_cons]
      exact (and_iff_right hne).symm

/-! ## Counting the places -/

/-- A key is among those of the retained outcomes exactly when it has a slot. -/
theorem retained_key_iff (hi : contends outcomes selected i = true)
    (ho : outcomes[i]? = some outcome) :
    outcomeKey outcome ∈ (retainSuccessfulOutcomes outcomes selected policy).map outcomeKey ↔
      Distinct.sizeBefore (keyAt outcomes) (keyAt outcomes i)
        (contenders policy outcomes selected) < slots policy := by
  have hkey : keyAt outcomes i = outcomeKey outcome := by
    rw [keyAt, ho]
    rfl
  rw [retainSuccessfulOutcomes_eq, ← hkey, outcomesAt_keys fun j hj => slotted_isSome hj]
  exact Distinct.key_mem_keepFirst_iff (contender_of_contends hi)

section

variable (hfr : Fresh s outcomes selected) (ho : outcomes[i]? = some outcome)
  (hgood : isSuccessfulOutcome outcome = true) (hown : outcome.borrowedTransport = false)
  (ht : outcome.transport = some t)

include hfr ho hgood hown ht

/-- **Closing what is not used**: an outcome that is not selected is closed exactly when its key has
no slot. -/
theorem closeUnused_count (retained : List CandidateOutcome) :
    (closeUnusedOutcomes outcomes selected retained).count t =
      if selected.isAt i || outcomeKey outcome ∈ retained.map outcomeKey then 0 else 1 := by
  unfold closeUnusedOutcomes
  dsimp only
  rw [count_filterMap]
  set closes : ℕ → Option Transport := fun j => do
    let other ← outcomes[j]?
    if selected.isAt j || outcomeKey other ∈ retained.map outcomeKey ||
      other.borrowedTransport then none
    else other.transport with hclo
  have hat : closes i = if selected.isAt i || outcomeKey outcome ∈ retained.map outcomeKey then none
    else some t := by
    simp only [hclo, ho, hown, ht, Option.bind_eq_bind, bind_some, Bool.or_false]
  -- no other outcome has this transport
  have hon : ∀ j, closes j = some t → j = i := by
    intro j hj
    obtain ⟨other, hot, hj⟩ := Option.bind_eq_some_iff.1 hj
    split at hj
    · exact absurd hj (some_ne_none _).symm
    · exact (hfr.own i j outcome other t ho hot hgood hown ht hj).symm
  split
  · rename_i hsk
    rw [if_pos hsk] at hat
    refine countP_eq_zero.2 fun j _ hj => ?_
    have hj : closes j = some t := beq_iff_eq.1 hj
    rw [hon j hj, hat] at hj
    exact absurd hj (some_ne_none _).symm
  · rename_i hcl
    rw [if_neg hcl] at hat
    have hpr : ∀ j ∈ range outcomes.length, (closes j == some t) = true ↔ (j == i) = true := by
      intro j _
      rw [beq_iff_eq, beq_iff_eq]
      exact ⟨hon j, fun hj => hj ▸ hat⟩
    rw [countP_congr hpr]
    refine count_eq_one_of_mem nodup_range (mem_range.2 ?_)
    exact (List.getElem?_eq_some_iff.1 ho).1

/-- The transport of a successful outcome that gets a slot is among those that are retained, and no
other is. -/
theorem retained_transport_iff :
    t ∈ (retainSuccessfulOutcomes outcomes selected policy).filterMap CandidateOutcome.transport ↔
      i ∈ slotted policy outcomes selected := by
  rw [retainSuccessfulOutcomes_eq, outcomesAt, mem_filterMap]
  constructor
  · rintro ⟨other, hot, hsa⟩
    obtain ⟨j, hj, hot⟩ := mem_filterMap.1 hot
    rwa [hfr.own i j outcome other t ho hot hgood hown ht hsa]
  · intro hi
    exact ⟨outcome, mem_filterMap.2 ⟨i, hi, ho⟩, ht⟩

theorem selected_transport_ne {best : CandidateOutcome} {t' : Transport}
    (hbe : selected.outcome outcomes = some best) (ht' : best.transport = some t')
    (hi : selected.isAt i = false) : t ≠ t' := by
  rintro rfl
  cases hsel : selected with
  | element index =>
    subst hsel
    have heq := hfr.own i index outcome best t ho hbe hgood hown ht ht'
    exact absurd heq.symm (of_decide_eq_false hi)
  | apart other =>
    subst hsel
    obtain rfl := some.inj hbe
    exact hfr.apart other rfl outcome (mem_of_getElem? ho) hgood hown t ht ht'

variable {b : Binding} {t' : Transport} {best' : CandidateOutcome}

theorem BindsAll.selected_places (h : BindsAll s outcomes selected t b)
    (hi : selected.isAt i = true) :
    b.places t = 1 := by
  have hrel := count_eq_zero.2 (hfr.retained outcome (mem_of_getElem? ho) hgood hown t ht)
  have hclo := closeUnused_count hfr ho hgood hown ht (retainSuccessfulOutcomes outcomes selected
    s.pathPolicy)
  rw [hi, Bool.true_or, if_pos rfl] at hclo
  unfold Binding.places
  rw [h.closed, count_append, hrel, hclo, h.retained]
  -- bound alone, or a child
  by_cases hem : retainSuccessfulOutcomes outcomes selected s.pathPolicy = []
  · rw [if_pos ((h.bound t).2 ⟨hem, rfl⟩), if_neg fun hch => ((h.children t).1 hch).1 hem]
    rfl
  · rw [if_neg fun hbo => hem ((h.bound t).1 hbo).1, if_pos ((h.children t).2 ⟨hem, .inl rfl⟩)]
    rfl

/-- The transport of a contender has one place exactly when the contender is not shadowed. -/
theorem BindsAll.contender_places (h : BindsAll s outcomes selected t' b)
    (hbe : selected.outcome outcomes = some best') (ht' : best'.transport = some t')
    (hi : contends outcomes selected i = true) :
    b.places t = 1 ↔ ¬ Shadowed s.pathPolicy outcomes selected i := by
  have hsel := (contends_iff.1 hi).1
  have hne := selected_transport_ne hfr ho hgood hown ht hbe ht' hsel
  have hrel := count_eq_zero.2 (hfr.retained outcome (mem_of_getElem? ho) hgood hown t ht)
  have hclo := closeUnused_count hfr ho hgood hown ht (retainSuccessfulOutcomes outcomes selected
    s.pathPolicy)
  have hsl : i ∈ slotted s.pathPolicy outcomes selected ↔ _ :=
    Distinct.mem_keepFirst_iff (contender_of_contends hi)
  have hsha : Shadowed s.pathPolicy outcomes selected i ↔
      i ∉ slotted s.pathPolicy outcomes selected ∧
        outcomeKey outcome ∈ (retainSuccessfulOutcomes outcomes selected s.pathPolicy).map
          outcomeKey := by
    rw [retained_key_iff hi ho, hsl, Shadowed, ho, any_some, hown]
    tauto
  -- a child exactly when it has a slot
  have hch : t ∈ b.children ↔ i ∈ slotted s.pathPolicy outcomes selected := by
    rw [h.children, ← @retained_transport_iff s.pathPolicy _ _ _ _ _ _ hfr ho hgood hown ht]
    constructor
    · rintro ⟨-, heq | hin⟩
      · exact absurd heq hne
      · exact hin
    · intro hin
      refine ⟨?_, .inr hin⟩
      intro hem
      rw [hem] at hin
      exact absurd hin not_mem_nil
  have hke : i ∈ slotted s.pathPolicy outcomes selected →
      outcomeKey outcome ∈ (retainSuccessfulOutcomes outcomes selected s.pathPolicy).map
        outcomeKey := fun hin =>
    (retained_key_iff hi ho).2 (hsl.1 hin).2
  rw [hsha]
  unfold Binding.places
  rw [h.closed, count_append, hrel, hclo, h.retained, hsel, Bool.false_or,
    if_neg fun hbo => hne ((h.bound t).1 hbo).2]
  simp only [hch, decide_eq_true_eq, filterMap_nil, not_mem_nil, if_false]
  by_cases hin : i ∈ slotted s.pathPolicy outcomes selected
  · simp only [hin, hke hin, if_true, not_true, false_and, not_false_eq_true]
  · by_cases hkey : outcomeKey outcome ∈ (retainSuccessfulOutcomes outcomes selected
      s.pathPolicy).map outcomeKey
    · simp only [hin, hkey, if_true, if_false, not_false_eq_true, and_self, not_true]
      decide
    · simp only [hin, hkey, if_false, and_false, not_false_eq_true]

end

/-- **Where the transports go.** After a successful call, every transport of a successful outcome
that owns it has exactly one place, exactly when no such outcome is shadowed. -/
theorem bindOutcomeSet_accounts_iff (hchosen : chosen s.pathPolicy outcomes best = some selected)
    (hbest : selected.outcome outcomes = some outcome) (hsucc : isSuccessfulOutcome outcome = true)
    (hfresh : Fresh s outcomes selected) (hok : (bindOutcomeSet env s outcomes best).err = none) :
    (∀ o ∈ outcomes, isSuccessfulOutcome o = true → o.borrowedTransport = false →
      ∀ t, o.transport = some t →
      (bindOutcomeSet env s outcomes best).places t = 1) ↔
        ∀ i, ¬ Shadowed s.pathPolicy outcomes selected i := by
  obtain ⟨t', ht', hall⟩ := bindOutcomeSet_spec hchosen hbest hsucc hok
  constructor
  · intro hplaces i hshadow
    obtain ⟨-, o, ho, hgood⟩ := contends_iff.1 hshadow.1
    have hown : o.borrowedTransport = false := by
      have hown := hshadow.2.1
      rwa [ho, any_some, Bool.not_eq_true'] at hown
    obtain ⟨t, ht⟩ := isSome_iff_exists.1 (Bool.and_eq_true_iff.1 hgood).2
    have hone := hplaces o (mem_of_getElem? ho) hgood hown t ht
    exact (hall.contender_places hfresh ho hgood hown ht hbest ht' hshadow.1).1 hone hshadow
  · intro hclear o ho hgood hown t ht
    obtain ⟨i, hi⟩ := mem_iff_getElem?.1 ho
    by_cases hsel : selected.isAt i = true
    · -- the selected outcome itself
      have heq : t = t' := by
        cases selected with
        | apart other => exact absurd hsel Bool.false_ne_true
        | element index =>
          obtain rfl : index = i := of_decide_eq_true hsel
          have hsame : some outcome = some o := hbest.symm.trans hi
          rw [some.inj hsame] at ht'
          exact some.inj (ht.symm.trans ht')
      subst heq
      exact hall.selected_places hfresh hi hgood hown ht hsel
    · have hcontends := contends_iff.2 ⟨Bool.not_eq_true _ ▸ hsel, o, hi, hgood⟩
      exact (hall.contender_places hfresh hi hgood hown ht hbest ht' hcontends).2 (hclear i)

/-! ## Plans that share a path id -/

/-- A successful outcome of the ICE strategy. -/
def iceOutcome (planID : String) (mode : ExecutionMode) (transport : Transport) :
    CandidateOutcome where
  plan := ⟨planID, "legacy_ice_udp"⟩
  planID := planID
  result := some ⟨some transport, ⟨mode.pathID "direct" "s1", "direct", "192.0.2.1:4000", ∅, .unset,
    [], ∅⟩⟩
  pathID := mode.pathID "direct" "s1"
  borrowedTransport := false
  err := none
  score := 160

/-- A session that binds up to `maxPaths` paths, and holds none yet. -/
def newPathState (maxPaths : ℤ) : PathState :=
  ⟨⟨true, true, maxPaths, 0, 0⟩, [], ⟨"", ""⟩, ⟨none, ⟨"", "", "", ∅, .unset, [], ∅⟩⟩⟩

theorem fresh_of_nodup {index : ℕ} (hno : (outcomes.map CandidateOutcome.transport).Nodup)
    (hret : s.retained = []) :
    Fresh s outcomes (.element index) := by
  refine ⟨?_, nofun, ?_⟩
  · intro i j o o' t hi hj _ _ ht ht'
    have hlen : i < (outcomes.map transport).length := by
      rw [length_map]
      exact (List.getElem?_eq_some_iff.1 hi).1
    refine (List.getElem?_inj hlen hno).1 ?_
    rw [getElem?_map, getElem?_map, hi, hj, map_some, map_some, ht, ht']
  · intro o _ _ _ t _
    rw [hret]
    exact not_mem_nil

def pairOutcomes : List CandidateOutcome :=
  [iceOutcome "legacyice/direct_prefer" .directPrefer 1,
    iceOutcome "legacyice/public_direct" .publicDirect 2]

theorem bindOutcomeSet_accounts_pair :
    (bindOutcomeSet ⟨some none, none⟩ (newPathState 3) pairOutcomes none).places 1 = 1 ∧
      (bindOutcomeSet ⟨some none, none⟩ (newPathState 3) pairOutcomes none).places 2 = 1 := by
  have haccounts := (@bindOutcomeSet_accounts_iff pairOutcomes (.element 0)
    (iceOutcome "legacyice/direct_prefer" .directPrefer 1) ⟨some none,
      none⟩ (newPathState 3) none ?_ rfl rfl
    (fresh_of_nodup (by decide) rfl) (by decide +kernel)).2 ?_
  · exact ⟨haccounts (iceOutcome "legacyice/direct_prefer" .directPrefer 1) mem_cons_self
      (by decide) rfl 1
      rfl, haccounts (iceOutcome "legacyice/public_direct" .publicDirect 2)
        (mem_cons_of_mem _ mem_cons_self)
        (by decide) rfl 2 rfl⟩
  · have hprimary : selectPrimaryOutcome pairOutcomes (newPathState 3).pathPolicy =
      some 0 := by decide +kernel
    rw [chosen, hprimary]
    rfl
  · rintro (_ | _ | i) hshadow
    · exact absurd hshadow.1 (by decide +kernel)
    · exact hshadow.2.2.1 (by decide +kernel)
    · exact absurd hshadow.1 Bool.false_ne_true

/-- The hint plans of one mode share their path id. -/
def hintOutcomes : List CandidateOutcome :=
  [iceOutcome "legacyice/direct_prefer" .directPrefer 1,
    iceOutcome "legacyice/public_direct_hint_1" .publicDirect 2,
    iceOutcome "legacyice/public_direct_hint_2" .publicDirect 3]

/-- The second hint plan's transport: not bound, not a child, not retained and not closed. -/
theorem hint_transport_leaked :
    (bindOutcomeSet ⟨some none, none⟩ (newPathState 3) hintOutcomes none).err = none ∧
      (hintOutcomes.all fun o => isSuccessfulOutcome o && !o.borrowedTransport) = true ∧
      hintOutcomes.map CandidateOutcome.transport = [some 1, some 2, some 3] ∧
      [1, 2, 3].map (bindOutcomeSet ⟨some none, none⟩ (newPathState 3) hintOutcomes none).places =
        [1, 1, 0] := by
  decide +kernel

end Winkyou.Session
