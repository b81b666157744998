import Winkyou.Proof.Governor.Accounting

/-!
# Forced releases and the safety trip

An ordinary attempt is released by the last section of `drainOrdinaryAttempts`. The call waits
for all its attempts with one timer; when the timer fires it names the first attempt that is
not drained, looks at that attempt alone again, trips if it still has a pending drain, and then
releases all of them.

* `forced_release_untripped`: when the named attempt drains between the verdict and the second
  look, the other attempts of the call are released with pending drains and without a trip.
* `release_drained_or_tripped`: in every run whose second looks are conclusive, an ordinary
  attempt is released only when its drains have completed or the trip blocks.
-/

namespace Winkyou.Governor

open State Transition

/-- Every drain registered on the attempt has completed. -/
def AttemptLease.DrainsCompleted (l : AttemptLease) : Prop :=
  ∀ id, 1 ≤ id → id ≤ l.nextDrainID → id ∈ l.completed

/-- **The condition on second looks**: the attempt named by the timer still has a pending drain,
or the trip blocks already, or no attempt of the call has a pending drain. -/
def conclusiveRecheck (s : State) : Action → Bool
  | .run t _ =>
    match s.thread t with
    | .drain call =>
      match call.point with
      | .recheck a =>
        (!(s.attempt a).closed && !(s.attempt a).drains.isEmpty) || s.trip.blocksActiveWork ||
          call.ordinary.all fun b => (s.attempt b).closed || (s.attempt b).drains.isEmpty
      | _ => true
    | _ => true
  | _ => true

/-- The runs whose second looks are all conclusive. -/
abbrev ConclusiveRecheck (s : State) (act : Action) : Prop := conclusiveRecheck s act = true

variable {s s₁ s' : State} {act : Action} {a : AttemptRef} {t : ℕ} {call : DrainCall}

/-! ## Conclusive second looks -/

/-- A call about to release finds the trip blocking or its attempts without pending drains. -/
def State.ReleaseOK (s : State) : Prop :=
  ∀ t call, (s.thread t).AtRelease call →
    s.trip.blocksActiveWork = true ∨ ∀ a ∈ call.ordinary, s.NoPending a

theorem State.ReleaseOK.mono (h : s.ReleaseOK) (hok : s.StateOK) (hadv : s.Advances s') :
    s'.ReleaseOK := by
  intro t call hrel
  rcases hadv.thread t with heq | ⟨-, hst⟩
  · rw [heq] at hrel
    refine (h t call hrel).imp hadv.trip fun hqu a ha => ?_
    exact (hqu a ha).mono ((hok.callOK hrel.1).ordinary a ha).1 hadv.toHeapAdvances
  · obtain ⟨hth, result, hpo⟩ := hrel
    rw [hth] at hst
    cases hst.2.symm.trans hpo

theorem State.ReleaseOK.setThread (h : s.ReleaseOK) {th : Thread}
    (hth : ∀ call, th.AtRelease call → s.trip.blocksActiveWork = true ∨
      ∀ a ∈ call.ordinary, s.NoPending a) :
    (s.setThread t th).ReleaseOK := by
  intro u call hrel
  rw [setThread_thread] at hrel
  rcases eq_or_ne u t with rfl | hne
  · rw [Function.update_self] at hrel
    exact hth call hrel
  · rw [Function.update_of_ne hne] at hrel
    exact h u call hrel

/-- **A conclusive second look** leaves the trip blocking or nothing pending. -/
theorem recheck_conclusive {reply : StoreReply} (hok : s.StateOK) (hth : s.thread t = .drain call)
    (hpo : call.point = .recheck a) (hco : ConclusiveRecheck s (.run t reply)) :
    (s.recheck a reply).1.trip.blocksActiveWork = true ∨
      ∀ b ∈ call.ordinary, (s.recheck a reply).1.NoPending b := by
  have hca := hok.callOK hth
  have hke : s.Keeps (s.recheck a reply).1 := keeps_recheck hok.heap
  obtain ⟨hal, -, -⟩ := hca.ordinary a (hca.candidate a hpo)
  unfold ConclusiveRecheck conclusiveRecheck at hco
  simp only [hth, hpo] at hco
  simp [or_assoc] at hco
  rcases hco with ⟨hop, hpen⟩ | htr | hqu
  · -- the governor is open, and the event it builds is valid: it trips
    left
    have hgov : s.closed = false := by
      cases hc : s.closed with
      | false => rfl
      | true => rw [hok.closed hc a hal] at hop; cases hop
    have hpe : Identifier (s.peer (s.attempt a).peer).peerID :=
      hok.peers _ (hok.heap.exact.attempt_peer a ⟨hal, hop⟩).1
    have hva := drainTimeoutEvent_valid hok.heap.exact.limitsOK (hok.heap.leases a hal) hpe
    have hch : (!(s.attempt a).closed && !(s.attempt a).drains.isEmpty) = true := by
      simp [hop, hpen]
    unfold State.recheck
    rw [if_pos hch, hva]
    exact tripLocked_blocks hok.heap hgov
  · exact .inl (hke.trip htr)
  · right
    intro b hb
    obtain ⟨hlt, -, hst⟩ := hca.ordinary b hb
    refine NoPending.mono ?_ hlt hke.toHeapAdvances
    exact (hqu b hb).imp_right fun hd => ⟨hst, hd⟩

theorem releaseOK_step (h : s.ReleaseOK) (hok : s.StateOK) (hco : ConclusiveRecheck s act)
    (hst : step s act = some s') : s'.ReleaseOK := by
  cases (step_sound hok hst).effect with
  | caller hadv _ => exact h.mono hok hadv
  | moved t s₁ th hadv _ hs' hpo =>
    rw [hs']
    exact (h.mono hok hadv).setThread fun call hrel => absurd hrel (hpo call)
  | waited t call hth hqu hs' =>
    rw [hs']
    refine h.setThread fun call' hrel => .inr ?_
    obtain ⟨hca, -⟩ := hrel
    cases hca
    exact hqu
  | rechecked t reply call a hth hpo hs' =>
    rw [hs']
    have hcon := recheck_conclusive hok hth hpo hco
    refine (h.mono hok (keeps_recheck hok.heap).toAdvances).setThread fun call' hrel => ?_
    obtain ⟨hca, -⟩ := hrel
    cases hca
    exact hcon
  | released t call result hth hs' =>
    rw [hs']
    obtain ⟨hset, -⟩ := @releases_releaseLoop call.ordinary (s, result) hok.heap
      fun a ha => ((hok.callOK hth.1).ordinary a ha).1
    refine (h.mono hok hset.toAdvances).setThread fun call' hrel => ?_
    obtain ⟨⟨⟩, result, ⟨⟩⟩ := hrel

theorem releaseOK_reachable (h : Reachable step Initial ConclusiveRecheck s) : s.ReleaseOK := by
  refine h.invariant (fun s hs => ?_) fun s act s' hr hrel hco hst =>
    releaseOK_step hrel (reachable_ok hr) hco hst
  obtain ⟨owner, profile, requested, trip, hnew⟩ := hs
  obtain ⟨scope, limits, rfl, -⟩ := newGovernor_ok hnew
  rintro t call ⟨⟨⟩, -⟩

/-- An open attempt without a pending drain has completed all its drains. -/
theorem drainsCompleted_of_noPending (h : LeaseOK (s.attempt a))
    (hop : (s.attempt a).closed = false) (hqu : s.NoPending a) : (s.attempt a).DrainsCompleted := by
  intro id h₁ h₂
  rcases hqu with hc | ⟨-, hnil⟩
  · cases hop.symm.trans hc
  · rcases h.pending id h₁ h₂ with hcom | ⟨d, hd, -⟩
    · exact hcom
    · rw [hnil] at hd
      cases hd

/-- **No forced release without a trip.** In every run whose second looks are all conclusive,
a step that closes the `done` channel of an ordinary attempt finds every drain of the attempt
completed, or the safety trip blocking. -/
theorem release_drained_or_tripped (h : Reachable step Initial ConclusiveRecheck s)
    (hcond : ConclusiveRecheck s act) (hstep : step s act = some s') (ha : a < s.attemptCount)
    (hord : (s.attempt a).ordinary = true) (hopen : (s.attempt a).closed = false)
    (hdone : (s'.attempt a).closed = true) :
    (s.attempt a).DrainsCompleted ∨ s.trip.blocksActiveWork = true := by
  have hok := reachable_ok h
  -- only the release section closes an ordinary attempt
  have hspared : ∀ s₁ : State, s₁.attempt = s'.attempt → s.SparesOrdinary s₁ → False := by
    intro s₁ heap hspares
    have heq := hspares a ha hord
    rw [heap, hdone, hopen] at heq
    cases heq
  cases (step_sound hok hstep).effect with
  | caller _ hspares => exact (hspared s' rfl hspares).elim
  | moved t s₁ th _ hspares hs' _ => exact (hspared s₁ (by rw [hs']; rfl) hspares).elim
  | waited t call _ _ hs' => exact (hspared s (by rw [hs']; rfl) (Keeps.refl s).spares).elim
  | rechecked t reply call c _ _ hs' =>
    exact (hspared (s.recheck c reply).1 (by rw [hs']; rfl) (keeps_recheck hok.heap).spares).elim
  | released t call result hth hs' =>
    obtain ⟨-, -, hkept⟩ := @releases_releaseLoop call.ordinary (s, result) hok.heap
      fun a ha => ((hok.callOK hth.1).ordinary a ha).1
    have hin : a ∈ call.ordinary := by
      by_contra hnot
      rw [hs'] at hdone
      exact absurd (hdone.symm.trans ((hkept a hnot).trans hopen)) Bool.noConfusion
    rcases releaseOK_reachable h t call hth with htrip | hquiet
    · exact .inr htrip
    · exact .inl (drainsCompleted_of_noPending (hok.heap.leases a ha) hopen (hquiet a hin))

/-! ## Runs with a timer that fires -/

/-- Two peers with one attempt each, and a drain on each attempt. -/
def sampleDrains : List Action :=
  [.acquirePeer "peer-a", .acquirePeer "peer-b",
    .acquireAttempt 0 (sampleRequest "a" false) false {},
    .acquireAttempt 1 (sampleRequest "b" false) false {},
    .registerDrain 0 "carrier" false, .registerDrain 1 "carrier" false]

/-- `Governor.Close` stops both attempts, its timer fires, and it names attempt `0`. -/
def sampleTimeout : List Action :=
  sampleDrains ++ [.governorClose, .run 0 {}, .run 0 {}, .timeout 0, .run 0 {}]

/-- What one step does to attempt `a`: its state before, whether it is done after, and the trip. -/
structure Observation where
  allocated : Bool
  ordinary : Bool
  closed : Bool
  registered : ℕ
  completed : List ℕ
  tripped : Bool
  done : Bool
  deriving DecidableEq

def observe (a : AttemptRef) (s s' : State) : Observation where
  allocated := decide (a < s.attemptCount)
  ordinary := (s.attempt a).ordinary
  closed := (s.attempt a).closed
  registered := (s.attempt a).nextDrainID
  completed := (s.attempt a).completed
  tripped := s.trip.blocksActiveWork
  done := (s'.attempt a).closed

/-- The observation of one more step after a run of the sample governor. -/
def observeRun (ok : State → Action → Prop) [∀ s a, Decidable (ok s a)] (acts : List Action)
    (act : Action) (a : AttemptRef) : Option Observation :=
  (runFrom step ok sampleGovernor acts).bind fun s =>
    if ok s act then (step s act).map (observe a s) else none

theorem observeRun_eq_some {ok : State → Action → Prop} [∀ s a, Decidable (ok s a)]
    {acts : List Action} {o : Observation} (h : observeRun ok acts act a = some o) :
    ∃ s s', Reachable step Initial ok s ∧ ok s act ∧ step s act = some s' ∧ observe a s s' = o := by
  obtain ⟨s, hrun, hst⟩ := Option.bind_eq_some_iff.1 h
  split at hst
  · rename_i hok
    obtain ⟨s', hs', ho⟩ := Option.map_eq_some_iff.1 hst
    exact ⟨s, s', sample_reachable hrun, hok, hs', ho⟩
  · cases hst

/-- Attempt `0` drains after the timer has named it: the second look finds nothing to trip for, and
attempt `1` is released with its drain pending. -/
theorem observe_late_drain :
    observeRun (fun _ _ => True) (sampleTimeout ++ [.complete 0 1, .run 0 {}]) (.run 0 {}) 1 =
    some ⟨true, true, false, 1, [], false, true⟩ := by decide +kernel

/-- **A forced release without a trip.** -/
theorem forced_release_untripped : ∃ s act s' a, Reachable step Initial (fun _ _ => True) s ∧
    step s act = some s' ∧ a < s.attemptCount ∧ (s.attempt a).ordinary = true ∧
      (s.attempt a).closed = false ∧
    (s'.attempt a).closed = true ∧ ¬ (s.attempt a).DrainsCompleted ∧
      s.trip.blocksActiveWork = false := by
  obtain ⟨s, s', hreach, -, hstep, ho⟩ := observeRun_eq_some observe_late_drain
  simp only [observe, Observation.mk.injEq, decide_eq_true_eq] at ho
  obtain ⟨halloc, hord, hopen, hregistered, hcompleted, htrip, hdone⟩ := ho
  refine ⟨s, _, s', 1, hreach, hstep, halloc, hord, hopen, hdone, ?_, htrip⟩
  intro hall
  have hone := hall 1 le_rfl hregistered.ge
  rw [hcompleted] at hone
  cases hone

/-- Attempt `0` is still pending at the second look: the governor trips before it releases attempt
`1`. -/
theorem observe_trip : observeRun ConclusiveRecheck (sampleTimeout ++ [.run 0 {}]) (.run 0 {}) 1 =
    some ⟨true, true, false, 1, [], true, true⟩ := by decide +kernel

/-- A conclusive run in which the timer fires and both attempts are released under a trip. -/
theorem release_drained_or_tripped_sample :
    ∃ s act s' a, Reachable step Initial ConclusiveRecheck s ∧
    step s act = some s' ∧ (s.attempt a).closed = false ∧ (s'.attempt a).closed = true ∧
    ((s.attempt a).DrainsCompleted ∨ s.trip.blocksActiveWork = true) := by
  obtain ⟨s, s', hreach, hcond, hstep, ho⟩ := observeRun_eq_some observe_trip
  simp only [observe, Observation.mk.injEq, decide_eq_true_eq] at ho
  obtain ⟨halloc, hord, hopen, -, -, -, hdone⟩ := ho
  exact ⟨s, _, s', 1, hreach, hstep, hopen, hdone,
    release_drained_or_tripped hreach hcond hstep halloc hord hopen hdone⟩

end Winkyou.Governor
