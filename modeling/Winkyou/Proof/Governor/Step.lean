import Winkyou.Proof.Governor.Release

/-!
# Every step keeps the governor in order

`StateOK` holds in every state a governor can reach: the leases and the books are in order, the
goroutines stand at points their attempts allow, there is at most one `Governor.Close` at work,
and it knows every ordinary attempt that is still open.

* `Effect`: what a step does to the ordinary attempts; only one section releases them.
* `step_sound`: one step keeps the governor in order and has one of these effects, whichever
  section, select or timer it is.
* `reachable_ok`: so it holds along every run.
-/

namespace Winkyou.Governor

open Function (proj_update update_of_ne update_self)

variable {reply : StoreReply}

/-- The release section of `drainOrdinaryAttempts` is behind the call. -/
def DrainPoint.released : DrainPoint → Prop
  | .phased .. | .verdict .. | .after .. | .ownerClosed .. => True
  | _ => False

namespace State

variable {s s₁ s' : State} {th : Thread} {a : AttemptRef} {p : PeerRef} {t : ℕ} {call : DrainCall}
  {point : DrainPoint}

/-- `Governor.Close` knows the ordinary attempts that are still open: they are the ones it is
about to release. -/
def CloserOK (s : State) (call : DrainCall) : Prop :=
  ∀ a, a < s.attemptCount → (s.attempt a).ordinary = true →
    (s.attempt a).closed = true ∨ ¬ call.point.released ∧ a ∈ call.ordinary

/-- **What holds in every state a governor can reach.** -/
structure StateOK (s : State) : Prop where
  heap : s.HeapOK
  peers : ∀ p, p < s.peerCount → Identifier (s.peer p).peerID
  threads : ∀ t, s.ThreadOK (s.thread t)
  closing : ∀ t call, s.thread t = .drain call → call.closer → s.closing = true
  closer : ∀ t call, s.thread t = .drain call → call.closer → s.CloserOK call
  oneCloser : ∀ t t' call call', s.thread t = .drain call → call.closer →
    s.thread t' = .drain call' → call'.closer → t = t'
  closed : s.closed = true → ∀ a, a < s.attemptCount → (s.attempt a).closed = true

theorem StateOK.callOK (h : s.StateOK) (hth : s.thread t = .drain call) : s.CallOK call := by
  have hok := h.threads t
  rwa [hth] at hok

theorem StateOK.loopbackOK {point : LoopbackPoint} (h : s.StateOK)
    (hth : s.thread t = .loopback a point) :
    a < s.attemptCount ∧ (s.attempt a).ordinary = false := by
  have hok := h.threads t
  rwa [hth] at hok

theorem CloserOK.mono (h : s.CloserOK call) (hset : s.Settles s') : s'.CloserOK call := by
  intro a ha hord
  rw [hset.attemptCount_eq] at ha
  have hl := hset.lease a ha
  exact (h a ha (hl.ordinary.symm.trans hord)).imp_left hl.closed

theorem CallOK.goto (h : s.CallOK call)
    (hpas : ∀ i, point = .wait i ∨ point = .scan i → ∀ a ∈ call.ordinary.take i, s.NoPending a)
    (hcan : ∀ a, point = .recheck a → a ∈ call.ordinary) : s.CallOK { call with point := point } :=
  { h with passed := hpas, candidate := hcan }

theorem Advances.old_closer (h : s.Advances s') (hth : s'.thread t = .drain call)
    (hclo : call.closer) :
    s.thread t = .drain call := by
  rcases h.thread t with heq | ⟨-, hst⟩
  · rw [← heq, hth]
  · rw [hth] at hst
    exact absurd hclo.1 hst.1

/-- **A section that admits no attempt.** -/
theorem StateOK.settles (h : s.StateOK) (hset : s.Settles s') : s'.StateOK := by
  constructor
  · exact hset.heapOK h.heap
  · intro p hp
    rcases lt_or_ge p s.peerCount with hlt | hge
    · exact (hset.peerID p hlt).symm ▸ h.peers p hlt
    · exact hset.freshPeer p hge hp
  · intro u
    rcases hset.thread u with heq | hnew
    · rw [heq]
      exact (h.threads u).mono hset.toHeapAdvances
    · exact hnew.1
  · intro u call hu hc
    exact hset.closing.trans (h.closing u call (hset.old_closer hu hc) hc)
  · intro u call hu hc
    exact (h.closer u call (hset.old_closer hu hc) hc).mono hset
  · intro u u' call call' hu hc hu' hc'
    exact h.oneCloser u u' call call' (hset.old_closer hu hc) hc (hset.old_closer hu' hc') hc'
  · intro hclo a ha
    have hlt : a < s.attemptCount := hset.attemptCount_eq ▸ ha
    exact (hset.lease a hlt).closed (h.closed (hset.notClosed.symm.trans hclo) a hlt)

/-- A goroutine of the next state is the one that moved, or stands where it stood. -/
theorem setThread_cases {th x : Thread} {u : ℕ} (hu : (s.setThread t th).thread u = x) :
    u = t ∧ th = x ∨ u ≠ t ∧ s.thread u = x := by
  rw [setThread_thread] at hu
  rcases eq_or_ne u t with rfl | hne
  · rw [update_self] at hu
    exact .inl ⟨rfl, hu⟩
  · rw [update_of_ne hne] at hu
    exact .inr ⟨hne, hu⟩

/-- The next point of a goroutine. A call of `Governor.Close` stays the only one. -/
theorem StateOK.setThread (h : s.StateOK) (hth : s.ThreadOK th)
    (hclo : ∀ call, th = .drain call → call.closer → s.closing = true ∧ s.CloserOK call ∧
      ∀ u call', u ≠ t → s.thread u = .drain call' → ¬ call'.closer) : (s.setThread t th).StateOK := by
  have hset : s.HeapAdvances (s.setThread t th) := { HeapAdvances.refl s with }
  refine ⟨⟨h.heap.exact, h.heap.leases⟩, h.peers, ?_, ?_, ?_, ?_, h.closed⟩
  · intro u
    rcases setThread_cases rfl with ⟨-, hu⟩ | ⟨-, hu⟩ <;> rw [← hu]
    · exact hth.mono hset
    · exact (h.threads u).mono hset
  · intro u call hu hc
    rcases setThread_cases hu with ⟨-, hu⟩ | ⟨-, hu⟩
    · exact (hclo call hu hc).1
    · exact h.closing u call hu hc
  · intro u call hu hc
    rcases setThread_cases hu with ⟨-, hu⟩ | ⟨-, hu⟩
    · exact (hclo call hu hc).2.1
    · exact h.closer u call hu hc
  · intro u u' call call' hu hc hu' hc'
    rcases setThread_cases hu with ⟨ht, hu⟩ | ⟨hne, hu⟩ <;> rcases setThread_cases hu' with
      ⟨ht', hu'⟩ | ⟨hne', hu'⟩
    · exact ht.trans ht'.symm
    · exact absurd hc' ((hclo call hu hc).2.2 u' call' hne' hu')
    · exact absurd hc ((hclo call' hu' hc').2.2 u call hne hu)
    · exact h.oneCloser u u' call call' hu hc hu' hc'

theorem StateOK.spawn (h : s.StateOK) (hth : s.ThreadOK th)
    (hclo : ∀ call, th = .drain call → call.closer → s.closing = true ∧ s.CloserOK call ∧
      ∀ u call', u ≠ s.threadCount → s.thread u = .drain call' → ¬ call'.closer) :
      (s.spawn th).StateOK := by
  have hset := h.setThread hth hclo
  exact ⟨⟨h.heap.exact, h.heap.leases⟩, h.peers,
    fun u => (hset.threads u).mono { HeapAdvances.refl _ with },
    hset.closing, hset.closer, hset.oneCloser, h.closed⟩

theorem StateOK.leave (h : s.StateOK) (hth : s.ThreadOK th)
    (hclo : ∀ call, th = .drain call → ¬ call.closer) : (s.setThread t th).StateOK :=
  h.setThread hth fun call hca hc => absurd hc (hclo call hca)

/-- **The next point of a `drainAttempts` call** after a section that admits nothing. The release
section may be behind the call only when its ordinary attempts are released. -/
theorem StateOK.goto (h : s.StateOK) (hth : s.thread t = .drain call)
    (hold : ∀ result, call.point ≠ .ownerClosed result) (hset : s.Settles s₁)
    (hpas : ∀ i, point = .wait i ∨ point = .scan i → ∀ a ∈ call.ordinary.take i, s₁.NoPending a)
    (hcan : ∀ a, point = .recheck a → a ∈ call.ordinary)
    (hrele : point.released → call.point.released ∨ ∀ a ∈ call.ordinary, (s₁.attempt a).closed = true) :
    (s₁.setThread t (.drain { call with point := point })).StateOK := by
  have hca := h.callOK hth
  refine (h.settles hset).setThread ((hca.mono hset.toHeapAdvances).goto hpas hcan) ?_
  intro call' hca' hc
  cases hca'
  have hc₀ : call.closer := ⟨hc.1, hold⟩
  refine ⟨hset.closing.trans (h.closing t call hth hc₀), ?_, ?_⟩
  · intro a ha hord
    rcases (h.closer t call hth hc₀).mono hset a ha hord with hclo | ⟨hnot, hin⟩
    · exact .inl hclo
    · by_cases hrel : point.released
      · exact (hrele hrel).elim (fun hr => absurd hr hnot) fun hall => .inl (hall a hin)
      · exact .inr ⟨hrel, hin⟩
  · intro u call' hne hu hc'
    exact hne (h.oneCloser u t call' call (hset.old_closer hu hc') hc' hth hc₀)

/-- **The last section of `Governor.Close`**: afterwards no goroutine is a closer, whatever became
of the flags. -/
theorem StateOK.endClose (h : s.StateOK) (hadv : s.Advances s₁) (hok : s₁.HeapOK)
    (hclo : s₁.closed = true → ∀ a, a < s₁.attemptCount → (s₁.attempt a).closed = true)
    (hot : ∀ u call', u ≠ t → s.thread u = .drain call' → ¬ call'.closer) (hth : s₁.ThreadOK th)
    (hnot : ∀ call, th = .drain call → ¬ call.closer) : (s₁.setThread t th).StateOK := by
  have hset : s₁.HeapAdvances (s₁.setThread t th) := { HeapAdvances.refl s₁ with }
  have hno : ∀ u call, (s₁.setThread t th).thread u = .drain call → ¬ call.closer := by
    intro u call hu hc
    rcases setThread_cases hu with ⟨-, hu⟩ | ⟨hne, hu⟩
    · exact hnot call hu hc
    · exact hot u call hne (hadv.old_closer hu hc) hc
  refine ⟨⟨hok.exact, hok.leases⟩, ?_, ?_, ?_, ?_, ?_, hclo⟩
  · intro p hp
    rcases lt_or_ge p s.peerCount with hlt | hge
    · exact (hadv.peerID p hlt).symm ▸ h.peers p hlt
    · exact hadv.freshPeer p hge hp
  · intro u
    rcases setThread_cases rfl with ⟨-, hu⟩ | ⟨-, hu⟩ <;> rw [← hu]
    · exact hth.mono hset
    · rcases hadv.thread u with heq | hnew
      · rw [heq]
        exact ((h.threads u).mono hadv.toHeapAdvances).mono hset
      · exact hnew.1.mono hset
  · exact fun u call hu hc => absurd hc (hno u call hu)
  · exact fun u call hu hc => absurd hc (hno u call hu)
  · exact fun u _ call _ hu hc => absurd hc (hno u call hu)

/-! ## What a step does to ordinary attempts -/

end State

open State List

section Effect

variable {s s₁ s' : State} {act : Action} {a : AttemptRef} {p : PeerRef} {t : ℕ} {call : DrainCall}
  {point : DrainPoint}

/-- A goroutine is about to release the ordinary attempts of its call. -/
def Thread.AtRelease (th : Thread) (call : DrainCall) : Prop :=
  th = .drain call ∧ ∃ result, call.point = .release result

/-- No ordinary attempt is released. -/
def State.SparesOrdinary (s s' : State) : Prop :=
  ∀ a, a < s.attemptCount → (s.attempt a).ordinary = true → (s'.attempt a).closed = (s.attempt a).closed

/-- **What one step can do**, as far as ordinary attempts are concerned. -/
inductive Effect (s s' : State) : Action → Prop
  /-- A caller's section. -/
  | caller {act : Action} (hadv : s.Advances s') (hspares : s.SparesOrdinary s') : Effect s s' act
  /-- A goroutine moves on, not to the release section. -/
  | moved {act : Action} (t : ℕ) (s₁ : State) (th : Thread) (hadv : s.Advances s₁)
      (hspares : s.SparesOrdinary s₁)
      (hs' : s' = s₁.setThread t th) (hpoint : ∀ call, ¬ th.AtRelease call) : Effect s s' act
  /-- `waitForAttemptDrains` returns no attempt. -/
  | waited {act : Action} (t : ℕ) (call : DrainCall) (hth : s.thread t = .drain call)
      (hquiet : ∀ a ∈ call.ordinary, s.NoPending a)
      (hs' : s' = s.setThread t (.drain { call with point := .release [] })) : Effect s s' act
  /-- The second look at the attempt that timed out. -/
  | rechecked (t : ℕ) (reply : StoreReply) (call : DrainCall) (a : AttemptRef)
      (hth : s.thread t = .drain call) (hpoint : call.point = .recheck a)
      (hs' : s' = (s.recheck a reply).1.setThread t
        (.drain { call with point := .release (s.recheck a reply).2 })) : Effect s s' (.run t reply)
  /-- The release section. -/
  | released {act : Action} (t : ℕ) (call : DrainCall) (result : JoinedErr)
      (hth : (s.thread t).AtRelease call)
      (hs' : s' = (call.ordinary.foldl releaseOne (s, result)).1.setThread t
        (.drain { call with point := .phased 0 (call.ordinary.foldl releaseOne (s, result)).2 })) :
          Effect s s' act

theorem State.Keeps.spares (h : s.Keeps s') : s.SparesOrdinary s' := fun a _ _ => h.closed_eq a

/-- One section: the governor stays in order, with one of these effects. -/
structure Sound (s s' : State) (act : Action) : Prop where
  ok : s'.StateOK
  effect : Effect s s' act

theorem Sound.caller (h : s.StateOK) (hset : s.Settles s') (hspa : s.SparesOrdinary s') :
    Sound s s' act :=
  ⟨h.settles hset, .caller hset.toAdvances hspa⟩

theorem Sound.of_keeps (h : s.StateOK) (hke : s.Keeps s') : Sound s s' act :=
  .caller h hke.releases.toSettles hke.spares

theorem not_atRelease {th : Thread}
    (h : ∀ call, th = .drain call → ∀ result, call.point ≠ .release result) :
    ¬ th.AtRelease call :=
  fun hrel => hrel.2.elim (h call hrel.1)

theorem Sound.leave {th : Thread} (h : s.StateOK) (hset : s.Settles s₁) (hspa : s.SparesOrdinary s₁)
    (hth : s₁.ThreadOK th) (hdr : ∀ call, th ≠ .drain call) : Sound s (s₁.setThread t th) act where
  ok := (h.settles hset).leave hth fun call hca => absurd hca (hdr call)
  effect := .moved t s₁ th hset.toAdvances hspa rfl fun _ => not_atRelease fun call hca =>
    absurd hca (hdr call)

/-- A `drainAttempts` call moves on, not to the release section. -/
theorem Sound.goto (h : s.StateOK) (hth : s.thread t = .drain call)
    (hold : ∀ result, call.point ≠ .ownerClosed result) (hke : s.Keeps s₁)
    (hpas : ∀ i, point = .wait i ∨ point = .scan i → ∀ a ∈ call.ordinary.take i, s₁.NoPending a)
    (hcan : ∀ a, point = .recheck a → a ∈ call.ordinary)
    (hrel : point.released → call.point.released ∨ ∀ a ∈ call.ordinary, (s₁.attempt a).closed = true)
    (hpo : ∀ result, point ≠ .release result) :
    Sound s (s₁.setThread t (.drain { call with point := point })) act where
  ok := h.goto hth hold hke.releases.toSettles hpas hcan hrel
  effect := by
    refine .moved t s₁ _ hke.toAdvances hke.spares rfl fun _ => not_atRelease fun _ hca => ?_
    cases hca
    exact hpo

end Effect

namespace State

variable {s s₁ s' : State} {act : Action} {a : AttemptRef} {p : PeerRef} {t : ℕ} {call : DrainCall}
  {point : DrainPoint}

/-! ## `drainAttempts` -/


theorem keeps_recheck (h : s.HeapOK) : s.Keeps (s.recheck a reply).1 := by
  unfold recheck
  split
  · split
    · exact .refl s
    · exact keeps_tripLocked h
  · exact .refl s

/-- A closed channel `drained` or `done` means that no drain is pending. -/
theorem noPending_of_quiet (h : LeaseOK (s.attempt a)) (hqu : s.quiet a = true) :
    s.NoPending a := by
  rcases Bool.or_eq_true _ _ ▸ hqu with hd | hc
  · exact .inr (h.drained hd)
  · exact .inl hc

/-- The loop of `waitForAttemptDrains` has passed one attempt more. -/
theorem noPending_take_succ {i : ℕ} {attempts : List AttemptRef}
    (h : ∀ a ∈ attempts.take i, s.NoPending a) (hi : attempts[i]? = some a) (ha : s.NoPending a) :
    ∀ a' ∈ attempts.take (i + 1), s.NoPending a' := by
  rw [take_add_one, hi, Option.toList_some, forall_mem_append, forall_mem_singleton]
  exact ⟨h, ha⟩

/-- The loop of `finishSafetyTripDrain` leaves the attempts alone. -/
theorem dropIdlePeers_attempt (entries : List ((_ : String) × PeerRef)) (s : State) :
    (entries.foldl dropIdlePeer s).attempt = s.attempt := by
  induction entries generalizing s with
  | nil => rfl
  | cons e rest ih =>
    rw [foldl_cons, ih]
    unfold dropIdlePeer
    split <;> rfl

section

variable (h : s.StateOK) (hth : s.thread t = .drain call)

include h hth

theorem StateOK.afterDrain {result : JoinedErr}
    (hpo : call.point = .after result) : Sound s (s.afterDrain t call result) act := by
  have hca := h.callOK hth
  have hid : Sound s (s.setThread t .idle) act := .leave h (.refl s) (fun _ _ _ => rfl) trivial nofun
  unfold State.afterDrain
  cases hcal : call.caller with
  | attemptClose => exact hid
  | peerClose p =>
    dsimp only
    split
    · rename_i hdr
      have hset := settles_dropPeer hdr.1 (hca.peer p hcal).2 hdr.2
      exact .leave h hset (fun _ _ _ => rfl) trivial nofun
    · exact hid
  | tripDrain =>
    have hdr := settles_dropIdlePeers h.heap s.peers.nodupKeys fun e he => AList.mem_lookup_iff.2 he
    have hfl : s.Settles { s.peers.entries.foldl dropIdlePeer s with tripDrainStarted := false } :=
      hdr.trans (keeps_flags _ _ _ _ _).releases.toSettles
    refine .leave h hfl (fun a _ _ => ?_) trivial nofun
    exact congrArg (fun heap : AttemptRef → AttemptLease => (heap a).closed) (dropIdlePeers_attempt _ s)
  | governorClose =>
    have hclo : call.closer := ⟨hcal, by simp [hpo]⟩
    -- no other goroutine is a closer, so the flag may be taken back
    have hot : ∀ u call', u ≠ t → s.thread u = .drain call' → ¬ call'.closer :=
      fun u call' hne hu hc => hne (h.oneCloser u t call' call hu hc hth hclo)
    dsimp only
    split
    · have hhe : s.HeapAdvances { s with
          closeErr := result ++ s.finalizationFault ++ [GovernorErr.terminalFinalizing]
          closing := false } := { HeapAdvances.refl s with }
      refine ⟨h.endClose { hhe with thread := fun _ => .inl rfl } ⟨h.heap.exact,
        h.heap.leases⟩ h.closed hot
        trivial nofun, ?_⟩
      exact .moved t _ _ { hhe with thread := fun _ => .inl rfl } (fun _ _ _ => rfl) rfl
        fun _ => not_atRelease nofun
    obtain ⟨hst, hclos⟩ := stopActive_spec h.heap
    have hhe : s.stopActive.HeapAdvances { s.stopActive with closed := true } :=
      { HeapAdvances.refl s.stopActive with closed := fun _ => rfl }
    have hadv : s.Advances { s.stopActive with closed := true } :=
      hst.toAdvances.trans { hhe with thread := fun _ => .inl rfl }
    have hok := hst.heapOK h.heap
    constructor
    · refine h.endClose hadv ⟨hok.exact, hok.leases⟩ ?_ hot ?_ ?_
      · intro _ a ha
        exact hclos a (hst.attemptCount_eq ▸ ha)
      · rw [← hcal]
        refine CallOK.goto (hca.mono hadv.toHeapAdvances) ?_ ?_
        · rintro i (hi | hi) <;> cases hi
        · rintro a ⟨⟩
      · intro call' hca' hc
        cases hca'
        exact hc.2 result rfl
    · refine .moved t _ _ hadv ?_ rfl fun _ => not_atRelease ?_
      · -- the ordinary attempts are all released by now
        intro a ha hord
        have hdo : (s.attempt a).closed = true := by
          rcases h.closer t call hth hclo a ha hord with hc | ⟨hnot, -⟩
          · exact hc
          · exact absurd (by rw [hpo]; trivial) hnot
        rw [hdo]
        exact (hst.lease a ha).closed hdo
      · rintro _ ⟨⟩ result ⟨⟩

theorem StateOK.waited {i : ℕ} (hi : call.point = .wait i ∨ call.point = .scan i)
    (hno : call.ordinary[i]? = none) :
    Sound s (s.setThread t (.drain { call with point := .release [] })) act where
  ok := by
    apply h.goto hth (by rcases hi with hi | hi <;> simp [hi]) (.refl s) <;> simp [DrainPoint.released]
  effect := by
    refine .waited t call hth (fun a ha => (h.callOK hth).passed i hi a ?_) rfl
    rwa [take_of_length_le (List.getElem?_eq_none_iff.1 hno)]

/-- **A drain takes a step.** -/
theorem StateOK.runDrain (hrun : s.runDrain t call reply = some s') :
    Sound s s' (.run t reply) := by
  have hca := h.callOK hth
  have hle : ∀ a ∈ call.ordinary, LeaseOK (s.attempt a) :=
    fun a ha => h.heap.leases a (hca.ordinary a ha).1
  revert hrun
  fun_cases State.runDrain s t call reply <;> rintro ⟨⟩
  -- both kinds of attempts are told to stop
  case case1 hpo _ =>
    apply Sound.goto h hth (by simp [hpo]) (keeps_beginStoppingAll hca.phased)
    · intro i hi
      split at hi <;> rcases hi with hi | hi <;> cases hi
    · intro a ha
      split at ha <;> cases ha
    · intro hrel
      right
      split at hrel
      · rename_i hem
        rw [List.isEmpty_iff.1 hem]
        simp
      · cases hrel
    · intro result hr
      split at hr <;> cases hr
  case case2 hpo =>
    apply Sound.goto h hth (by simp [hpo]) (keeps_beginStoppingAll fun a ha =>
      (hca.ordinary a ha).1) <;> simp [DrainPoint.released]
  -- `wait` and, after its deadline, `scan` pass the ordinary attempts that are quiet
  case case3 hpo hno => exact h.waited hth (.inl hpo) hno
  case case4 i hpo a ha hqu =>
    apply Sound.goto h hth (by simp [hpo]) (.refl s)
    · rintro j (hj | hj) <;> cases hj
      exact noPending_take_succ (hca.passed i (.inl hpo)) ha
        (noPending_of_quiet (hle a (mem_of_getElem? ha)) hqu)
    all_goals simp [DrainPoint.released]
  case case6 hpo hno => exact h.waited hth (.inr hpo) hno
  case case7 i hpo a ha =>
    have hmem := mem_of_getElem? ha
    apply Sound.goto h hth (by simp [hpo]) (.refl s)
    · intro j hj
      split at hj
      · rename_i hqu
        rcases hj with hj | hj <;> cases hj
        exact noPending_take_succ (hca.passed i (.inr hpo)) ha (noPending_of_quiet (hle a hmem) hqu)
      · rcases hj with hj | hj <;> cases hj
    · intro a' ha'
      split at ha' <;> cases ha'
      exact hmem
    · intro hrel
      split at hrel <;> cases hrel
    · intro result hr
      split at hr <;> cases hr
  -- one that is not quiet is looked at again, and all are released
  case case8 a hpo _ =>
    have hset : s.Settles (s.recheck a reply).1 := (keeps_recheck h.heap).releases.toSettles
    refine ⟨?_, .rechecked t reply call a hth hpo rfl⟩
    apply h.goto hth (by simp [hpo]) hset <;> simp [DrainPoint.released]
  case case9 result hpo _ =>
    obtain ⟨hset, hclo, -⟩ := @releases_releaseLoop call.ordinary (s, result) h.heap
      fun a ha => (hca.ordinary a ha).1
    refine ⟨?_, .released t call result ⟨hth, result, hpo⟩ rfl⟩
    apply h.goto hth (by simp [hpo]) hset.toSettles
    · rintro i (hi | hi) <;> cases hi
    · rintro a ⟨⟩
    · exact fun _ => .inr hclo
  -- the phased attempts are stopped one by one
  case case11 hpo a ha =>
    have hke := keeps_beginStopping (hca.phased a (mem_of_getElem? ha))
    apply Sound.goto h hth (by simp [hpo]) hke <;> simp [hpo, DrainPoint.released]
  -- at the end of the phased attempts, and after a verdict, only the point changes
  case case10 hpo _ | case12 hpo _ | case14 hpo _ _ _ _ _ =>
    apply Sound.goto h hth (by simp [hpo]) (.refl s) <;> simp [hpo, DrainPoint.released]
  case case16 hpo => exact h.afterDrain hth hpo
  case case17 =>
    have hke := keeps_flags s
    exact .leave h (hke _ _ _ _).releases.toSettles (hke _ _ _ _).spares trivial nofun

end

/-! ## Loopback termination -/

theorem keeps_recordVerdict {result : JoinedErr} {timedOut : Bool} :
    s.Keeps (s.recordVerdict a result timedOut) := by
  have hle : ∀ s' : State, s'.Keeps (s'.modifyAttempt a fun l =>
      { l.modifyTerminal (fun terminal => { terminal with result := result, verdict := true }) with
        closeErr := result }) := fun s' =>
    keeps_modifyAttempt ((AttemptLease.advances_modifyTerminal _).trans
      (AttemptLease.advances_closeErr _)) rfl
  unfold recordVerdict
  dsimp only
  split
  · exact (keeps_flags s _ _ _ _).trans (hle _)
  · exact hle s

theorem StateOK.settle {terminal : LoopbackTerminal} {networkErr : JoinedErr} {timedOut : Bool}
    (h : s.StateOK) (ha : a < s.attemptCount) (hord : (s.attempt a).ordinary = false) :
    Sound s (s.settle t a terminal networkErr timedOut) act := by
  unfold State.settle
  dsimp only
  generalize networkErr ++ terminal.finishErr ++ _ = result
  have hver : s.Keeps (s.recordVerdict a result timedOut) := keeps_recordVerdict
  generalize s.recordVerdict a result timedOut = s₁ at hver ⊢
  split
  · have hco : s.Keeps { s₁ with loopbackFinalizing := s₁.loopbackFinalizing - 1 } :=
      hver.trans (keeps_flags s₁ _ _ _ _)
    have hlt := ha.trans_le hco.attemptCount
    have hrel := hco.releases.trans (releases_releaseAttempt (hco.heapOK h.heap) hlt)
    refine .leave h (hrel.toSettles.trans (keeps_modifyTerminal _).releases.toSettles) ?_ trivial nofun
    -- the attempt released here is a loopback one
    intro a' _ hord'
    have hne : a' ≠ a := by
      rintro rfl
      cases hord.symm.trans hord'
    rw [(keeps_modifyTerminal _).closed_eq, releaseAttempt_closed_of_ne hlt hne, hco.closed_eq]
  · exact .leave h hver.releases.toSettles hver.spares
      ⟨ha.trans_le hver.attemptCount, (hver.lease a ha).ordinary.trans hord⟩ nofun

theorem StateOK.runLoopback {point : LoopbackPoint} (h : s.StateOK)
    (hth : s.thread t = .loopback a point) (hrun : s.runLoopback t a point reply = some s') :
    Sound s s' act := by
  obtain ⟨ha, hord⟩ := h.loopbackOK hth
  -- the manager stays at its attempt
  have hne : ∀ {s₁ : State} {point' : LoopbackPoint}, s.Keeps s₁ →
      Sound s (s₁.setThread t (.loopback a point')) act := fun hke =>
    .leave h hke.releases.toSettles hke.spares
      ⟨ha.trans_le hke.attemptCount, (hke.lease a ha).ordinary.trans hord⟩ nofun
  revert hrun
  fun_cases State.runLoopback s t a point reply <;> rintro ⟨⟩
  case case2 | case4 | case7 => exact hne (.refl s)
  case case5 => exact hne (keeps_tripLocked h.heap)
  case case6 => exact hne (keeps_modifyTerminal _)
  case case9 => exact h.settle ha hord
  case case10 =>
    have hke := keeps_modifyTerminal (s := s) (a := a)
    exact .leave h (hke _).releases.toSettles (hke _).spares trivial nofun

/-! ## Callers -/

theorem StateOK.no_closer (h : s.StateOK) (hclo : s.closing = false) :
    ∀ u call, s.thread u = .drain call → ¬ call.closer := by
  intro u call hu hc
  have := h.closing u call hu hc
  cases hclo.symm.trans this

/-- An attempt is opened and booked. -/
theorem StateOK.openAttempt {request : AttemptRequest} {loopback : Bool} (h : s.StateOK)
    (hadm : s.books.Admissible p request) (hid : Identifier request.id) (hclos : s.closed = false)
    (hclo : s.closing = false) : (s.openAttempt p request loopback).StateOK := by
  have hadv := @advances_openAttempt s p request loopback hid
  have hno := h.no_closer hclo
  refine ⟨openAttempt_heapOK h.heap hadm hid, ?_, ?_, ?_, ?_, ?_, ?_⟩
  · intro q hq
    exact (hadv.peerID q hq).symm ▸ h.peers q hq
  · exact fun u => (h.threads u).mono hadv.toHeapAdvances
  · exact fun u call hu hc => absurd hc (hno u call hu)
  · exact fun u call hu hc => absurd hc (hno u call hu)
  · exact fun u _ call _ hu hc => absurd hc (hno u call hu)
  · intro hc
    rw [show (s.openAttempt p request loopback).closed = s.closed from rfl, hclos] at hc
    cases hc

theorem StateOK.acquireAttempt {request : AttemptRequest} {loopback : Bool} (h : s.StateOK)
    (hp : p < s.peerCount) :
    Sound s (s.acquireAttempt p request loopback reply).1 act := by
  have hsa : Sound s s act := .of_keeps h (.refl s)
  unfold State.acquireAttempt
  split
  · exact hsa
  rename_i hall
  split
  · rename_i hva
    obtain ⟨hadm, hid, hclos, hclo⟩ := validateAttempt_admissible hp hall hva
    refine ⟨h.openAttempt hadm hid hclos hclo, .caller (advances_openAttempt hid) fun a ha _ => ?_⟩
    rw [openAttempt_attempt, update_of_ne ha.ne]
  · split
    · exact .of_keeps h (keeps_tripLocked h.heap)
    · exact hsa
  · exact hsa

theorem acquirePeer_attempt {peerID : String} :
    (s.orKeep (s.acquirePeer peerID)).attempt = s.attempt := by
  cases hacq : s.acquirePeer peerID with
  | error e => rfl
  | ok s' =>
    simp only [acquirePeer, Except.bind_ok_iff] at hacq
    obtain ⟨-, -, -, -, -, -, -, -, -, -, -, -, hs'⟩ := hacq
    cases hs'
    rfl

theorem keeps_attemptClose (h : s.HeapOK) (ha : a < s.attemptCount) :
    s.Keeps (s.attemptClose a) := by
  have hst := keeps_beginStopping ha
  unfold State.attemptClose
  dsimp only
  split
  · split
    · exact .refl s
    · refine hst.trans (keeps_spawn (callOK_drainCall ?_ ?_ ?_) ⟨Caller.noConfusion, rfl⟩)
      · intro a' ha'
        rw [mem_singleton.1 ha']
        exact ha.trans_le hst.attemptCount
      · intro a' ha'
        rw [mem_singleton.1 ha']
        exact beginStopping_attempt_self (h.leases a ha)
      · rintro _ ⟨⟩
  · exact hst

theorem settles_peerClose (h : s.HeapOK) (hp : p < s.peerCount) : s.Settles (s.peerClose p) := by
  unfold State.peerClose
  split
  · exact .refl s
  dsimp only
  have hcl : s.Releases (s.modifyPeer p fun l => { l with closed := true }) := releases_closePeer
  generalize hs₁ : s.modifyPeer p (fun l => { l with closed := true }) = s₁ at hcl ⊢
  have hok := hcl.heapOK h
  have hlt := hok.peerAttempts_lt p
  have hst := keeps_beginStoppingAll hlt
  have hclo : (s₁.peer p).closed = true := by
    rw [← hs₁, modifyPeer_peer, update_self]
  have hp₁ : p < s₁.peerCount := hp.trans_le hcl.peerCount
  refine hcl.toSettles.trans (hst.releases.toSettles.trans (Keeps.releases ?_).toSettles)
  refine keeps_spawn (callOK_drainCall ?_ ?_ ?_) ⟨Caller.noConfusion, rfl⟩
  · exact fun a ha => (hlt a ha).trans_le hst.attemptCount
  · exact beginStoppingAll_stopping hlt hok
  · intro q hq
    cases hq
    exact ⟨hp₁.trans_le hst.peerCount, hst.peerClosed p hp₁ hclo⟩

theorem peerClose_spares {p : PeerRef} (h : s.HeapOK) : s.SparesOrdinary (s.peerClose p) := by
  unfold State.peerClose
  split
  · exact fun _ _ _ => rfl
  · intro a _ _
    have hcl : s.Releases (s.modifyPeer p fun l => { l with closed := true }) := releases_closePeer
    exact (keeps_beginStoppingAll ((hcl.heapOK h).peerAttempts_lt p)).closed_eq a

/-- A new call of `Governor.Close` knows every open ordinary attempt. -/
theorem closerOK_drainCall (h : s.HeapOK) :
    s.CloserOK (s.drainCall .governorClose (GoMap.values s.attempts)) := by
  intro a ha hord
  cases hc : (s.attempt a).closed with
  | true => exact .inl rfl
  | false =>
    right
    refine ⟨fun hrel => hrel, (perm_insertionSort _ _).mem_iff.2 (mem_filter.2 ⟨?_, hord⟩)⟩
    have hfo := h.exact.attempts_index.lookup (v := a) ⟨ha, hc⟩
    exact mem_map.2 ⟨_, AList.mem_lookup_iff.1 hfo, rfl⟩

theorem StateOK.drainActive (h : s.StateOK) (hclos : s.closing = true)
    (hno : ∀ u call, s.thread u = .drain call → ¬ call.closer) : s.drainActive.StateOK := by
  have hlt := h.heap.attempts_lt
  have hst := keeps_beginStoppingAll hlt
  refine (h.settles hst.releases.toSettles).spawn ?_ ?_
  · refine callOK_drainCall ?_ (beginStoppingAll_stopping hlt h.heap) ?_
    · exact fun a ha => (hlt a ha).trans_le hst.attemptCount
    · rintro _ ⟨⟩
  · intro call hca hc
    cases hca
    refine ⟨hst.closing.trans hclos, ?_, ?_⟩
    · have hclo := closerOK_drainCall (hst.heapOK h.heap)
      rw [show (s.beginStoppingAll (GoMap.values s.attempts)).attempts = s.attempts from
        congrArg Books.attempts hst.books] at hclo
      exact hclo
    · intro u call' hne hu hc'
      exact hno u call' (hst.old_closer hu hc') hc'

theorem StateOK.governorClose (h : s.StateOK) : Sound s s.governorClose act := by
  unfold State.governorClose
  split
  · exact .of_keeps h (.refl s)
  rename_i hop
  rw [Bool.or_eq_true, not_or, Bool.not_eq_true, Bool.not_eq_true] at hop
  have hno := h.no_closer hop.2
  -- the flag alone: there is no closer yet to speak about
  have hfl : StateOK { s with closing := true } :=
    ⟨⟨h.heap.exact, h.heap.leases⟩, h.peers, fun u => (h.threads u).mono { HeapAdvances.refl s with },
      fun _ _ _ _ => rfl, fun u call hu hc => absurd hc (hno u call hu),
      fun u _ call _ hu hc => absurd hc (hno u call hu), h.closed⟩
  refine ⟨hfl.drainActive rfl hno, ?_⟩
  have hst := keeps_beginStoppingAll hfl.heap.attempts_lt
  have hhe : s.HeapAdvances { s with closing := true } := { HeapAdvances.refl s with }
  have hadv : s.Advances (({ s with closing := true } : State).beginStoppingAll
    (GoMap.values s.attempts)) :=
    Advances.trans { hhe with thread := fun _ => .inl rfl } hst.toAdvances
  have hco : ∀ s₁ : State, s₁.HeapAdvances { s₁ with threadCount := s₁.threadCount + 1 } :=
    fun s₁ => { HeapAdvances.refl s₁ with }
  refine .moved _ _ _ (hadv.trans { hco _ with thread := fun _ => .inl rfl }) ?_ rfl fun _ =>
    not_atRelease ?_
  · exact fun a _ _ => hst.closed_eq a
  · rintro _ ⟨⟩ result ⟨⟩

/-- The deadline of a waiting call passes. -/
theorem StateOK.timeout (h : s.StateOK) (hrun : s.timeout t = some s') : Sound s s' act := by
  have hloo : ∀ {a : AttemptRef} {point point' : LoopbackPoint}, s.thread t = .loopback a point →
      Sound s (s.setThread t (.loopback a point')) act := fun hth =>
    .leave h (.refl s) (fun _ _ _ => rfl) (h.loopbackOK hth) nofun
  revert hrun
  fun_cases State.timeout s t <;> rintro ⟨⟩
  case case1 hth _ hpo _ => apply Sound.goto h hth (by simp [hpo]) (.refl s) <;>
    simp [DrainPoint.released]
  case case4 hth => exact hloo hth
  case case5 hth _ => exact hloo hth

theorem keeps_tripCall {event : SafetyTripEvent} (h : s.HeapOK) :
    s.Keeps (s.tripCall event reply).1 := by
  unfold tripCall
  split
  · exact .refl s
  · exact keeps_tripLocked h

theorem keeps_attemptTrip {event : SafetyTripEvent} (h : s.HeapOK) :
    s.Keeps (s.attemptTrip a event reply).1 := by
  unfold attemptTrip
  dsimp only
  split
  · exact .refl s
  · split
    · exact .refl s
    · exact keeps_tripLocked h

theorem keeps_inspectPairing {expected : String} {fresh : SafetyTripStatus} (h : s.HeapOK) :
    s.Keeps (s.inspectPairing a expected fresh).1 := by
  unfold inspectPairing
  dsimp only
  split
  · exact .refl s
  split
  · exact .refl s
  split
  · rename_i hblo
    have hset := keeps_setTrip (s := s) hblo
    exact hset.trans (keeps_beginSafetyTripDrain (hset.heapOK h))
  split
  · exact .refl s
  split
  · exact .refl s
  split <;> exact .refl s

theorem keeps_recordLoopbackFinishError {cause : String} :
    s.Keeps (s.recordLoopbackFinishError a cause) := by
  unfold recordLoopbackFinishError
  split
  · exact .refl s
  · exact (keeps_modifyTerminal _).trans (keeps_flags _ _ _ _ _)

theorem settles_shuffle {peers : GoMap PeerRef} {attempts : GoMap AttemptRef}
    (hp : peers.entries.Perm s.peers.entries) (ha : attempts.entries.Perm s.attempts.entries) :
    s.Settles { s with peers := peers, attempts := attempts } :=
  { Settles.refl s with
    thread := fun _ => .inl rfl
    heapOK := fun hok => ⟨hok.exact.reorder hp ha, hok.leases⟩ }

theorem settles_shufflePeer {attempts : GoMap AttemptRef}
    (ha : attempts.entries.Perm (s.peer p).attempts.entries) :
    s.Settles (s.modifyPeer p fun l => { l with attempts := attempts }) := by
  have hid : ∀ q, ((s.modifyPeer p fun l => { l with attempts := attempts }).peer q).peerID =
    (s.peer q).peerID :=
    proj_update PeerLease.peerID rfl
  have hclo : ∀ q, ((s.modifyPeer p fun l => { l with attempts := attempts }).peer q).closed =
      (s.peer q).closed := proj_update PeerLease.closed rfl
  exact { Settles.refl s with
    peerID := fun q _ => hid q
    freshPeer := fun _ h h' => absurd h' (not_lt.2 h)
    peerClosed := fun q _ hc => (hclo q).trans hc
    thread := fun _ => .inl rfl
    heapOK := fun hok => ⟨hok.exact.reorderPeer ha, hok.leases⟩ }

end State

open State

variable {s s' : State} {act : Action}

/-- **One step keeps the governor in order**, with one of the effects. -/
theorem step_sound (h : s.StateOK) (hst : step s act = some s') : Sound s s' act := by
  unfold step at hst
  split_ifs at hst with hhe
  have hke : ∀ {s₁ : State}, s.Keeps s₁ → Sound s s₁ act := fun hk => .of_keeps h hk
  cases act with
  | shuffle peers attempts =>
    simp only [State.perform] at hst
    split_ifs at hst with hpe
    cases hst
    exact .caller h (settles_shuffle hpe.1 hpe.2) fun _ _ _ => rfl
  | shufflePeer p attempts =>
    simp only [State.perform] at hst
    split_ifs at hst with hpe
    cases hst
    exact .caller h (settles_shufflePeer hpe) fun _ _ _ => rfl
  | acquirePeer peerID =>
    cases hst
    refine .caller h settles_acquirePeer fun a _ _ => ?_
    rw [acquirePeer_attempt]
  | acquireAttempt p request loopback reply =>
    cases hst
    exact h.acquireAttempt (of_decide_eq_true hhe)
  | claimExclusive a name =>
    cases hst
    exact hke keeps_claimExclusive
  | registerDrain a name accounting =>
    cases hst
    exact hke keeps_registerDrain
  | complete a id =>
    cases hst
    exact hke keeps_complete
  | trip event reply =>
    cases hst
    exact hke (keeps_tripCall h.heap)
  | attemptTrip a event reply =>
    cases hst
    exact hke (keeps_attemptTrip h.heap)
  | inspectPairing a expected fresh =>
    cases hst
    exact hke (keeps_inspectPairing h.heap)
  | attemptClose a =>
    cases hst
    exact hke (keeps_attemptClose h.heap (of_decide_eq_true hhe))
  | peerClose p =>
    cases hst
    exact .caller h (settles_peerClose h.heap (of_decide_eq_true hhe)) (peerClose_spares h.heap)
  | governorClose =>
    cases hst
    exact h.governorClose
  | awaitLoopbackNetwork a =>
    cases hst
    exact hke (keeps_beginStopping (of_decide_eq_true (Bool.and_eq_true _ _ ▸ hhe).1))
  | recordLoopbackFinishError a cause =>
    cases hst
    exact hke keeps_recordLoopbackFinishError
  | run t reply =>
    change s.run t reply = some s' at hst
    unfold State.run at hst
    split at hst
    · cases hst
    · rename_i call hth
      exact h.runDrain hth hst
    · rename_i a point hth
      exact h.runLoopback hth hst
  | timeout t => exact h.timeout hst

theorem initial_ok (h : Initial s) : s.StateOK := by
  obtain ⟨owner, profile, requested, trip, hnew⟩ := h
  obtain ⟨scope, limits, rfl, hlim⟩ := newGovernor_ok hnew
  have hno : ∀ a, ¬ a < 0 := Nat.not_lt_zero
  refine ⟨⟨?_, ?_⟩, ?_, fun _ => trivial, ?_, ?_, ?_, ?_⟩
  · constructor
    · exact hlim
    · intro id a
      exact ⟨(fun hfo => by cases hfo), fun ha => absurd ha.1.1 (hno a)⟩
    · intro p id a
      exact ⟨(fun hfo => by cases hfo), fun ha => absurd ha.1.1.1 (hno a)⟩
    · intro id p hfo
      cases hfo
    · exact fun p hp => absurd hp (hno p)
    · exact fun a ha => absurd ha.1 (hno a)
    · exact fun k => Resources.get_zero
    · rfl
    · exact fun a ha => absurd ha.1 (hno a)
    · exact fun k => Resources.get_zero.le.trans (hlim.aggregate_nonneg k)
    · exact hlim.attempts_pos.le
    · exact fun _ => hlim.perPeer_pos.le
    · exact hlim.peers_pos.le
    · exact hlim.heavyweight_nonneg
  · exact fun a ha => absurd ha (hno a)
  · exact fun p hp => absurd hp (hno p)
  · rintro _ _ ⟨⟩
  · rintro _ _ ⟨⟩
  · rintro _ _ _ _ ⟨⟩
  · rintro ⟨⟩

/-- **Every state of every run is in order.** -/
theorem reachable_ok {ok : State → Action → Prop} (h : Transition.Reachable step Initial ok s) :
    s.StateOK :=
  h.invariant (fun _ => initial_ok) fun _ _ _ _ hs _ hst => (step_sound hs hst).ok

/-! ## The life of a lease -/

theorem step_heapAdvances (h : s.StateOK) (hst : step s act = some s') : s.HeapAdvances s' := by
  have hthread : ∀ {s₁ : State} (t : ℕ) (th : Thread), s.HeapAdvances s₁ →
    s.HeapAdvances (s₁.setThread t th) :=
    fun _ _ hadv => hadv.trans { State.HeapAdvances.refl _ with }
  cases (step_sound h hst).effect with
  | caller hadv _ => exact hadv.toHeapAdvances
  | moved t s₁ th hadv _ hs' _ => exact hs' ▸ hthread t th hadv.toHeapAdvances
  | waited t call _ _ hs' => exact hs' ▸ hthread t _ (.refl s)
  | rechecked t reply call a _ _ hs' =>
    exact hs' ▸ hthread t _ (State.keeps_recheck h.heap).toHeapAdvances
  | released t call result hth hs' =>
    obtain ⟨hrel, -, -⟩ := @State.releases_releaseLoop call.ordinary (s, result) h.heap
      fun a ha => ((h.callOK hth.1).ordinary a ha).1
    exact hs' ▸ hthread t _ hrel.toHeapAdvances

theorem run_heapAdvances (h : s.StateOK)
    (hrun : Transition.Reachable step (· = s) (fun _ _ => True) s') :
    s.HeapAdvances s' := by
  have hboth : s'.StateOK ∧ s.HeapAdvances s' := by
    refine hrun.invariant (P := fun v => v.StateOK ∧ s.HeapAdvances v) ?_ ?_
    · rintro v rfl
      exact ⟨h, .refl v⟩
    · rintro v act v' - ⟨hv, hadv⟩ - hst
      exact ⟨(step_sound hv hst).ok, hadv.trans (step_heapAdvances hv hst)⟩
  exact hboth.2

/-- **Leases never return.** Whatever runs after a state that a governor can reach: an attempt keeps
its peer and its request, once released it stays released, and once it is stopping it registers no
drain and gets no pending one back. A closed peer stays closed, and a closed governor stays closed
with every attempt released. -/
theorem leases_never_return :
    (∀ s s', Transition.Reachable step Initial (fun _ _ => True) s →
      Transition.Reachable step (· = s) (fun _ _ => True) s' →
      (∀ a < s.attemptCount, (s'.attempt a).peer = (s.attempt a).peer ∧
        (s'.attempt a).request = (s.attempt a).request ∧
        ((s.attempt a).closed = true → (s'.attempt a).closed = true) ∧
        ((s.attempt a).stoppingStarted = true → (s'.attempt a).stoppingStarted = true ∧
          (s'.attempt a).nextDrainID = (s.attempt a).nextDrainID ∧
            (s'.attempt a).drains ⊆ (s.attempt a).drains)) ∧
      ∀ p < s.peerCount, (s'.peer p).peerID = (s.peer p).peerID ∧
        ((s.peer p).closed = true → (s'.peer p).closed = true)) ∧
    ∀ s s', Transition.Reachable step Initial (fun _ _ => True) s →
      Transition.Reachable step (· = s) (fun _ _ => True) s' →
      s.closed = true → s'.closed = true ∧ ∀ a < s'.attemptCount, (s'.attempt a).closed = true := by
  constructor
  · intro s s' h hrun
    have hadv := run_heapAdvances (reachable_ok h) hrun
    refine ⟨fun a ha => ?_, fun p hp => ⟨hadv.peerID p hp, hadv.peerClosed p hp⟩⟩
    have hl := hadv.lease a ha
    exact ⟨hl.peer, hl.request, hl.closed, fun hst => ⟨hl.stopping hst, hl.registered hst,
      hl.drains hst⟩⟩
  · intro s s' h hrun hc
    have hc' := (run_heapAdvances (reachable_ok h) hrun).closed hc
    exact ⟨hc', (reachable_ok (h.trans hrun)).closed hc'⟩

end Winkyou.Governor
