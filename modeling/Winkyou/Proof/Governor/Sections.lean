import Winkyou.Proof.Governor.Books
import Winkyou.Proof.Governor.Event

/-!
# What the sections of the governor can do

* `State.books`: the reservation books of a state.
* `HeapAdvances`, `Advances`: the leases only advance, a trip is never taken back, and the new
  goroutines start in order.
* `Keeps`: a section that makes no entry in the books. Stopping, tripping and everything that
  happens to drains is of this kind.
* `tripLocked_blocks`: a trip of an open governor always ends in a blocking status.
-/

namespace Winkyou.Governor

open List
open Function (update update_of_ne update_self)

/-! ## Views -/

def AttemptLease.booking (l : AttemptLease) : Booking := ⟨l.peer, l.request, l.closed⟩

namespace State

variable {s s' s'' : State} {a : AttemptRef} {p : PeerRef} {t : ℕ}

/-- **The reservation books of a state.** -/
def books (s : State) : Books where
  limits := s.limits
  peers := s.peers
  attempts := s.attempts
  reserved := s.reserved
  heavyweightAttempts := s.heavyweightAttempts
  peer := s.peer
  peerCount := s.peerCount
  booking a := (s.attempt a).booking
  attemptCount := s.attemptCount

theorem modifyAttempt_attempt {f : AttemptLease → AttemptLease} :
    (s.modifyAttempt a f).attempt = update s.attempt a (f (s.attempt a)) := rfl

theorem modifyPeer_peer {f : PeerLease → PeerLease} :
    (s.modifyPeer p f).peer = update s.peer p (f (s.peer p)) := rfl

variable {th : Thread}

theorem setThread_thread : (s.setThread t th).thread = update s.thread t th := rfl

theorem spawn_thread : (s.spawn th).thread = update s.thread s.threadCount th := rfl

/-- An attempt that is released, or stopping without a pending drain. -/
def NoPending (s : State) (a : AttemptRef) : Prop :=
  (s.attempt a).closed = true ∨ (s.attempt a).stoppingStarted = true ∧ (s.attempt a).drains = []

/-- **The heap of leases only advances.** -/
structure HeapAdvances (s s' : State) : Prop where
  limits : s'.limits = s.limits
  attemptCount : s.attemptCount ≤ s'.attemptCount
  peerCount : s.peerCount ≤ s'.peerCount
  lease : ∀ a, a < s.attemptCount → (s.attempt a).Advances (s'.attempt a)
  freshLease : ∀ a, s.attemptCount ≤ a → a < s'.attemptCount → LeaseOK (s'.attempt a)
  peerID : ∀ p, p < s.peerCount → (s'.peer p).peerID = (s.peer p).peerID
  freshPeer : ∀ p, s.peerCount ≤ p → p < s'.peerCount → Identifier (s'.peer p).peerID
  peerClosed : ∀ p, p < s.peerCount → (s.peer p).closed = true → (s'.peer p).closed = true
  trip : s.trip.blocksActiveWork = true → s'.trip.blocksActiveWork = true
  closed : s.closed = true → s'.closed = true

theorem HeapAdvances.refl (s : State) : s.HeapAdvances s where
  limits := rfl
  attemptCount := le_rfl
  peerCount := le_rfl
  lease _ _ := .refl _
  freshLease _ h h' := absurd h' (not_lt.2 h)
  peerID _ _ := rfl
  freshPeer _ h h' := absurd h' (not_lt.2 h)
  peerClosed _ _ := id
  trip := id
  closed := id

theorem HeapAdvances.trans (h : s.HeapAdvances s') (h' : s'.HeapAdvances s'') :
    s.HeapAdvances s'' where
  limits := h'.limits.trans h.limits
  attemptCount := h.attemptCount.trans h'.attemptCount
  peerCount := h.peerCount.trans h'.peerCount
  lease a ha := (h.lease a ha).trans (h'.lease a (ha.trans_le h.attemptCount))
  freshLease a ha ha' := by
    rcases lt_or_ge a s'.attemptCount with hlt | hge
    · exact (h'.lease a hlt).ok (h.freshLease a ha hlt)
    · exact h'.freshLease a hge ha'
  peerID p hp := (h'.peerID p (hp.trans_le h.peerCount)).trans (h.peerID p hp)
  freshPeer p hp hp' := by
    rcases lt_or_ge p s'.peerCount with hlt | hge
    · rw [h'.peerID p hlt]
      exact h.freshPeer p hp hlt
    · exact h'.freshPeer p hge hp'
  peerClosed p hp hc := h'.peerClosed p (hp.trans_le h.peerCount) (h.peerClosed p hp hc)
  trip ht := h'.trip (h.trip ht)
  closed hc := h'.closed (h.closed hc)

theorem NoPending.mono (h : s.NoPending a) (ha : a < s.attemptCount) (hadv : s.HeapAdvances s') :
    s'.NoPending a := by
  have hl := hadv.lease a ha
  rcases h with hc | ⟨hs, hd⟩
  · exact .inl (hl.closed hc)
  · exact .inr ⟨hl.stopping hs, List.subset_nil.1 (hd ▸ hl.drains hs)⟩

/-! ## Threads -/

/-- **What holds of a running `drainAttempts` call.** -/
structure CallOK (s : State) (call : DrainCall) : Prop where
  ordinary : ∀ a ∈ call.ordinary, a < s.attemptCount ∧ (s.attempt a).ordinary = true ∧
    (s.attempt a).stoppingStarted = true
  phased : ∀ a ∈ call.phased, a < s.attemptCount
  peer : ∀ p, call.caller = .peerClose p → p < s.peerCount ∧ (s.peer p).closed = true
  /-- The attempts passed by the loop of `waitForAttemptDrains` have no pending drain. -/
  passed : ∀ i, call.point = .wait i ∨ call.point = .scan i → ∀ a ∈ call.ordinary.take i, s.NoPending a
  candidate : ∀ a, call.point = .recheck a → a ∈ call.ordinary

def ThreadOK (s : State) : Thread → Prop
  | .idle => True
  | .drain call => s.CallOK call
  | .loopback a _ => a < s.attemptCount ∧ (s.attempt a).ordinary = false

theorem CallOK.mono {call : DrainCall} (h : s.CallOK call) (hadv : s.HeapAdvances s') :
    s'.CallOK call where
  ordinary a ha := by
    obtain ⟨hlt, hord, hst⟩ := h.ordinary a ha
    have hl := hadv.lease a hlt
    exact ⟨hlt.trans_le hadv.attemptCount, hl.ordinary.trans hord, hl.stopping hst⟩
  phased a ha := (h.phased a ha).trans_le hadv.attemptCount
  peer p hp := by
    obtain ⟨hlt, hc⟩ := h.peer p hp
    exact ⟨hlt.trans_le hadv.peerCount, hadv.peerClosed p hlt hc⟩
  passed i hi a ha :=
    (h.passed i hi a ha).mono (h.ordinary a (mem_of_mem_take ha)).1 hadv
  candidate := h.candidate

theorem ThreadOK.mono (h : s.ThreadOK th) (hadv : s.HeapAdvances s') : s'.ThreadOK th := by
  cases th with
  | idle => trivial
  | drain call => exact CallOK.mono h hadv
  | loopback a point =>
    obtain ⟨hlt, hord⟩ := h
    exact ⟨hlt.trans_le hadv.attemptCount, (hadv.lease a hlt).ordinary.trans hord⟩

end State

/-- A call of `Governor.Close` that has not yet decided whether the governor is closed. -/
def DrainCall.closer (call : DrainCall) : Prop :=
  call.caller = .governorClose ∧ ∀ result, call.point ≠ .ownerClosed result

/-- A goroutine as a section starts it: not `Governor.Close`, and at its first point. -/
def Thread.Started : Thread → Prop
  | .drain call => call.caller ≠ .governorClose ∧ call.point = .phasedStop
  | _ => True

namespace State

variable {s s' s'' : State} {a : AttemptRef} {p : PeerRef} {t : ℕ}

/-- **What every section respects**: the heap advances, and every goroutine is an old one or one
that starts in order. -/
structure Advances (s s' : State) : Prop extends s.HeapAdvances s' where
  thread : ∀ t, s'.thread t = s.thread t ∨ s'.ThreadOK (s'.thread t) ∧ (s'.thread t).Started

theorem Advances.refl (s : State) : s.Advances s :=
  { HeapAdvances.refl s with thread := fun _ => .inl rfl }

theorem Advances.trans (h : s.Advances s') (h' : s'.Advances s'') : s.Advances s'' := by
  refine { h.toHeapAdvances.trans h'.toHeapAdvances with thread := ?_ }
  intro t
  rcases h'.thread t with heq | hnew
  · rw [heq]
    exact (h.thread t).imp_right fun hok => ⟨hok.1.mono h'.toHeapAdvances, hok.2⟩
  · exact .inr hnew

/-- **A section without an entry in the books.** -/
structure Keeps (s s' : State) : Prop extends s.Advances s' where
  books : s'.books = s.books
  closing : s'.closing = s.closing
  notClosed : s'.closed = s.closed

theorem Keeps.refl (s : State) : s.Keeps s :=
  { Advances.refl s with books := rfl, closing := rfl, notClosed := rfl }

theorem Keeps.trans (h : s.Keeps s') (h' : s'.Keeps s'') : s.Keeps s'' :=
  { h.toAdvances.trans h'.toAdvances with
    books := h'.books.trans h.books
    closing := h'.closing.trans h.closing
    notClosed := h'.notClosed.trans h.notClosed }

theorem keeps_of_heap (h : s.HeapAdvances s') (hthr : s'.thread = s.thread)
    (hbo : s'.books = s.books) (hclo : s'.closing = s.closing) (hclos : s'.closed = s.closed) :
    s.Keeps s' :=
  { h with
    thread := fun t => .inl (congrFun hthr t)
    books := hbo
    closing := hclo
    notClosed := hclos }

theorem keeps_flags (s : State) (closeErr : JoinedErr) (started : Bool) (finalizing : ℤ)
    (fault : JoinedErr) :
    s.Keeps { s with
      closeErr := closeErr
      tripDrainStarted := started
      loopbackFinalizing := finalizing
      finalizationFault := fault } :=
  keeps_of_heap { HeapAdvances.refl s with } rfl rfl rfl rfl

/-- The leases and the books are in order. -/
structure HeapOK (s : State) : Prop where
  exact : s.books.Exact
  leases : ∀ a, a < s.attemptCount → LeaseOK (s.attempt a)

theorem Advances.leases (h : s.Advances s')
    (hok : ∀ a, a < s.attemptCount → LeaseOK (s.attempt a)) :
    ∀ a, a < s'.attemptCount → LeaseOK (s'.attempt a) := by
  intro a ha
  rcases lt_or_ge a s.attemptCount with hlt | hge
  · exact (h.lease a hlt).ok (hok a hlt)
  · exact h.freshLease a hge ha

theorem Keeps.heapOK (h : s.Keeps s') (hok : s.HeapOK) : s'.HeapOK :=
  ⟨h.books ▸ hok.exact, h.leases hok.leases⟩

theorem HeapOK.attempts_lt (h : s.HeapOK) : ∀ a ∈ GoMap.values s.attempts, a < s.attemptCount := by
  refine forall_mem_map.2 fun e he => ?_
  exact ((h.exact.attempts_index e.1 e.2).1 (AList.mem_lookup_iff.2 he)).1.1

theorem HeapOK.peerAttempts_lt (h : s.HeapOK) (p : PeerRef) :
    ∀ a ∈ GoMap.values (s.peer p).attempts, a < s.attemptCount := by
  refine forall_mem_map.2 fun e he => ?_
  exact ((h.exact.peer_index p e.1 e.2).1 (AList.mem_lookup_iff.2 he)).1.1.1

/-! ## Changes of one lease or one goroutine -/

/-- One lease advances. -/
theorem keeps_modifyAttempt {f : AttemptLease → AttemptLease}
    (hf : (s.attempt a).Advances (f (s.attempt a)))
    (hclo : (f (s.attempt a)).closed = (s.attempt a).closed) : s.Keeps (s.modifyAttempt a f) := by
  have hboo : (s.modifyAttempt a f).books = s.books := by
    have hb : (f (s.attempt a)).booking = (s.attempt a).booking := by
      simp only [AttemptLease.booking, hf.peer, hf.request, hclo]
    have hall : (s.modifyAttempt a f).books.booking = s.books.booking :=
      funext (Function.proj_update AttemptLease.booking hb)
    simp only [books] at hall ⊢
    rw [hall]
    rfl
  refine keeps_of_heap { HeapAdvances.refl s with
    lease := ?_, freshLease := fun _ h h' => absurd h' (not_lt.2 h) } rfl hboo rfl rfl
  intro a' _
  rw [modifyAttempt_attempt]
  rcases eq_or_ne a' a with rfl | hne
  · rw [update_self]
    exact hf
  · rw [update_of_ne hne]
    exact .refl _

theorem keeps_spawn (hok : s.ThreadOK th) (hst : th.Started) : s.Keeps (s.spawn th) := by
  have hhe : s.HeapAdvances (s.spawn th) := { HeapAdvances.refl s with }
  refine { hhe with thread := ?_, books := rfl, closing := rfl, notClosed := rfl }
  intro t
  rw [spawn_thread]
  rcases eq_or_ne t s.threadCount with rfl | hne
  · rw [update_self]
    exact .inr ⟨hok.mono hhe, hst⟩
  · exact .inl (update_of_ne hne _ _)

/-! ## Stopping -/

theorem keeps_beginStopping (ha : a < s.attemptCount) : s.Keeps (s.beginStopping a) := by
  unfold beginStopping
  dsimp only
  split
  · exact .refl s
  have hle := keeps_modifyAttempt (s := s) (a := a) AttemptLease.advances_beginStopping
    AttemptLease.beginStopping_closed
  split
  · exact hle
  rename_i hord
  -- the counter of finalizing leases is no part of any invariant here
  have hco : s.Keeps { s.modifyAttempt a AttemptLease.beginStopping with
      loopbackFinalizing := s.loopbackFinalizing + 1 } :=
    hle.trans (keeps_flags _ _ _ _ _)
  refine hco.trans (keeps_spawn ⟨ha, ?_⟩ trivial)
  exact (hco.lease a ha).ordinary.trans (by simpa using hord)

theorem beginStopping_attempt_self (h : LeaseOK (s.attempt a)) :
    ((s.beginStopping a).attempt a).stoppingStarted = true := by
  unfold beginStopping
  dsimp only
  split
  · rename_i hc
    rcases Bool.or_eq_true _ _ ▸ hc with hc | hs
    · exact h.closed hc
    · exact hs
  · have hse : ((s.modifyAttempt a AttemptLease.beginStopping).attempt a).stoppingStarted = true := by
      rw [modifyAttempt_attempt, update_self]
      exact AttemptLease.beginStopping_stopping h
    split <;> exact hse

theorem keeps_beginStoppingAll : ∀ {attempts : List AttemptRef} {s : State},
    (∀ a ∈ attempts, a < s.attemptCount) → s.Keeps (s.beginStoppingAll attempts) := by
  intro attempts
  induction attempts with
  | nil => exact fun _ => .refl _
  | cons a rest ih =>
    intro s h
    have hfi := keeps_beginStopping (h a mem_cons_self)
    refine hfi.trans (ih ?_)
    intro a' ha'
    exact (h a' (mem_cons_of_mem _ ha')).trans_le hfi.attemptCount

theorem beginStoppingAll_stopping : ∀ {attempts : List AttemptRef} {s : State},
    (∀ a ∈ attempts, a < s.attemptCount) → s.HeapOK →
      ∀ a ∈ attempts, ((s.beginStoppingAll attempts).attempt a).stoppingStarted = true := by
  intro attempts
  induction attempts with
  | nil => simp
  | cons a rest ih =>
    intro s h hok a' ha'
    have hfi := keeps_beginStopping (h a mem_cons_self)
    have hre : ∀ x ∈ rest, x < (s.beginStopping a).attemptCount := fun x hx =>
      (h x (mem_cons_of_mem _ hx)).trans_le hfi.attemptCount
    rcases mem_cons.1 ha' with rfl | ha'
    · have hse := beginStopping_attempt_self (hok.leases a' (h a' mem_cons_self))
      exact ((keeps_beginStoppingAll hre).lease a'
        ((h a' mem_cons_self).trans_le hfi.attemptCount)).stopping hse
    · exact ih hre (hfi.heapOK hok) a' ha'

/-- A `drainAttempts` call on stopping attempts starts in order. -/
theorem callOK_drainCall {caller : Caller} {attempts : List AttemptRef}
    (hlt : ∀ a ∈ attempts, a < s.attemptCount)
    (hst : ∀ a ∈ attempts, (s.attempt a).stoppingStarted = true)
    (hpe : ∀ p, caller = .peerClose p → p < s.peerCount ∧ (s.peer p).closed = true) :
    s.CallOK (s.drainCall caller attempts) where
  ordinary a ha := by
    have hmem : a ∈ attempts.filter fun a => (s.attempt a).ordinary :=
      (perm_insertionSort _ _).mem_iff.1 ha
    obtain ⟨hin, hord⟩ := mem_filter.1 hmem
    exact ⟨hlt a hin, hord, hst a hin⟩
  phased a ha := hlt a (mem_of_mem_filter ha)
  peer := hpe
  passed i hi := by
    rcases hi with hi | hi <;> cases hi
  candidate a ha := by cases ha

/-! ## Tripping -/

theorem keeps_beginSafetyTripDrain (h : s.HeapOK) : s.Keeps s.beginSafetyTripDrain := by
  have hlt := h.attempts_lt
  have hst := keeps_beginStoppingAll hlt
  unfold beginSafetyTripDrain
  dsimp only
  split
  · exact hst
  have hsta : s.Keeps { s.beginStoppingAll (GoMap.values s.attempts) with tripDrainStarted := true } :=
    hst.trans (keeps_flags _ _ _ _ _)
  refine hsta.trans (keeps_spawn ?_ ⟨Caller.noConfusion, rfl⟩)
  apply CallOK.mono (callOK_drainCall _ (beginStoppingAll_stopping hlt h) _)
  · exact { HeapAdvances.refl _ with }
  · intro a ha
    exact (hlt a ha).trans_le hst.attemptCount
  · intro p hp
    cases hp

theorem keeps_setTrip {status : SafetyTripStatus} (hblo : status.blocksActiveWork = true) :
    s.Keeps { s with trip := status } :=
  keeps_of_heap { HeapAdvances.refl s with trip := fun _ => hblo } rfl rfl rfl rfl

/-- The callback of the store, when the latch was written, and a status that blocks. -/
theorem keeps_latched {status : SafetyTripStatus} {latched : Bool} (h : s.HeapOK)
    (hblo : status.blocksActiveWork = true) :
    s.Keeps { (if latched then s.beginSafetyTripDrain else s) with trip := status } := by
  refine .trans ?_ (keeps_setTrip hblo)
  split
  · exact keeps_beginSafetyTripDrain h
  · exact .refl s

theorem keeps_tripLocked {event : SafetyTripEvent} {reply : StoreReply} (h : s.HeapOK) :
    s.Keeps (s.tripLocked event reply).1 := by
  unfold tripLocked
  split
  · exact .refl s
  split
  · exact keeps_beginSafetyTripDrain h
  dsimp only
  split
  · rename_i hblo
    exact (keeps_latched h hblo).trans (keeps_beginSafetyTripDrain ((keeps_latched h hblo).heapOK h))
  · exact (keeps_latched h rfl).trans (keeps_beginSafetyTripDrain ((keeps_latched h rfl).heapOK h))

/-- **After a trip of an open governor the status blocks**, whatever the store answers. -/
theorem tripLocked_blocks {event : SafetyTripEvent} {reply : StoreReply} (h : s.HeapOK)
    (hop : s.closed = false) : (s.tripLocked event reply).1.trip.blocksActiveWork = true := by
  have hdr : ∀ s' : State, s'.HeapOK → s'.trip.blocksActiveWork = true →
      s'.beginSafetyTripDrain.trip.blocksActiveWork = true :=
    fun s' h' hb => (keeps_beginSafetyTripDrain h').trip hb
  unfold tripLocked
  rw [hop, if_neg Bool.false_ne_true]
  split
  · rename_i hblo
    exact hdr s h hblo
  dsimp only
  split
  · rename_i hblo
    exact hdr _ ((keeps_latched h hblo).heapOK h) hblo
  · exact hdr _ ((keeps_latched h rfl).heapOK h) rfl

end State

end Winkyou.Governor
