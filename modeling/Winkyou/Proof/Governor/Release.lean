import Winkyou.Proof.Governor.Sections

/-!
# Releases and peers

The sections that make entries in the reservation books.

* `Settles`: a section that admits no attempt and keeps the books exact.
* `releases_releaseAttempt`: a release is one entry of the books.
* `stopActive_spec`: after `stopActiveLocked` nothing is open, so clearing the totals is exact.
* `openAttempt_spec`: an admitted request is one entry of the books.
-/

namespace Winkyou.Governor.State

open List Function AList
open HeapAdvances (refl)
open Function (proj_update update_of_ne update_self)
open Except (bind_ok_iff failIf_ok_iff mapError_ok_iff)

variable {s s' s'' : State} {a : AttemptRef} {p : PeerRef} {t : ℕ}
  {request : AttemptRequest} {loopback : Bool}

/-! ## Releases -/

/-- **A section that admits no attempt** and leaves the governor open or closed as it was. -/
structure Settles (s s' : State) : Prop extends s.Advances s' where
  heapOK : s.HeapOK → s'.HeapOK
  attemptCount_eq : s'.attemptCount = s.attemptCount
  closing : s'.closing = s.closing
  notClosed : s'.closed = s.closed

/-- A section that only releases attempts and closes peers. -/
structure Releases (s s' : State) : Prop extends s.Settles s' where
  peers : s'.peers = s.peers

theorem Settles.refl (s : State) : s.Settles s :=
  { Advances.refl s with heapOK := id, attemptCount_eq := rfl, closing := rfl, notClosed := rfl }

theorem Settles.trans (h : s.Settles s') (h' : s'.Settles s'') : s.Settles s'' :=
  { h.toAdvances.trans h'.toAdvances with
    heapOK := fun hok => h'.heapOK (h.heapOK hok)
    attemptCount_eq := h'.attemptCount_eq.trans h.attemptCount_eq
    closing := h'.closing.trans h.closing
    notClosed := h'.notClosed.trans h.notClosed }

theorem Releases.refl (s : State) : s.Releases s := { Settles.refl s with peers := rfl }

theorem Releases.trans (h : s.Releases s') (h' : s'.Releases s'') : s.Releases s'' :=
  { h.toSettles.trans h'.toSettles with peers := h'.peers.trans h.peers }

theorem Keeps.releases (h : s.Keeps s') : s.Releases s' :=
  { h.toAdvances with
    heapOK := h.heapOK
    attemptCount_eq := congrArg Books.attemptCount h.books
    peers := congrArg Books.peers h.books
    closing := h.closing
    notClosed := h.notClosed }

/-- A section without an entry closes no attempt. -/
theorem Keeps.closed_eq (h : s.Keeps s') (a : AttemptRef) :
    (s'.attempt a).closed = (s.attempt a).closed :=
  congrArg (fun b : Books => (b.booking a).closed) h.books

/-- The entry of `releaseAttemptLocked`, for a lease that is stopping. -/
def closeLease (s : State) (a : AttemptRef) : State :=
  let l := s.attempt a
  { s with
    attempt := update s.attempt a { l with closed := true }
    attempts := s.attempts.erase l.request.id
    peer := update s.peer l.peer
      { s.peer l.peer with attempts := (s.peer l.peer).attempts.erase l.request.id }
    reserved := s.reserved.subtract l.request.cost.resources
    heavyweightAttempts := s.heavyweightAttempts - if l.request.cost.heavyweight then 1 else 0 }

theorem releaseAttempt_eq (s : State) (a : AttemptRef) :
    s.releaseAttempt a = if (s.attempt a).closed then s else (s.beginStopping a).closeLease a := rfl

theorem closeLease_attempt :
    (s.closeLease a).attempt = update s.attempt a { s.attempt a with closed := true } := rfl

theorem books_closeLease : (s.closeLease a).books = s.books.release a := by
  have hboo : (s.closeLease a).books.booking = (s.books.release a).booking :=
    comp_update AttemptLease.booking s.attempt a _
  simp only [books] at hboo ⊢
  rw [hboo]
  rfl

theorem releases_closeLease (ha : a < s.attemptCount) (hop : (s.attempt a).closed = false)
    (hst : (s.attempt a).stoppingStarted = true) : s.Releases (s.closeLease a) := by
  have hid : ∀ q, ((s.closeLease a).peer q).peerID = (s.peer q).peerID :=
    proj_update PeerLease.peerID rfl
  have hclo : ∀ q, ((s.closeLease a).peer q).closed = (s.peer q).closed :=
    proj_update PeerLease.closed rfl
  have hhe : s.HeapAdvances (s.closeLease a) := by
    refine { refl s with
      lease := ?_, freshLease := fun _ h h' => absurd h' (not_lt.2 h), peerID := fun q _ => hid q
      freshPeer := fun _ h h' => absurd h' (not_lt.2 h), peerClosed := ?_ }
    · intro a' _
      rw [closeLease_attempt]
      rcases eq_or_ne a' a with rfl | hne
      · rw [update_self]
        exact AttemptLease.advances_close hst
      · rw [update_of_ne hne]
        exact .refl _
    · intro q _ hc
      rw [hclo, hc]
  have hadv : s.Advances (s.closeLease a) := { hhe with thread := fun _ => .inl rfl }
  refine { hadv with
    heapOK := ?_, attemptCount_eq := rfl, peers := rfl, closing := rfl, notClosed := rfl }
  intro hok
  refine ⟨?_, hadv.leases hok.leases⟩
  rw [books_closeLease]
  exact hok.exact.release ⟨ha, hop⟩

/-- **A release is one entry in the books.** -/
theorem releases_releaseAttempt (h : s.HeapOK) (ha : a < s.attemptCount) :
    s.Releases (s.releaseAttempt a) := by
  rw [releaseAttempt_eq]
  split
  · exact .refl s
  · rename_i hop
    have hst := keeps_beginStopping ha
    refine hst.releases.trans (releases_closeLease (ha.trans_le hst.attemptCount) ?_ ?_)
    · rw [hst.closed_eq]
      simpa using hop
    · exact beginStopping_attempt_self (h.leases a ha)

theorem releaseAttempt_closed : ((s.releaseAttempt a).attempt a).closed = true := by
  rw [releaseAttempt_eq]
  split
  · assumption
  · rw [closeLease_attempt, update_self]

theorem releaseAttempt_closed_of_ne {a' : AttemptRef} (ha : a < s.attemptCount) (hne : a' ≠ a) :
    ((s.releaseAttempt a).attempt a').closed = (s.attempt a').closed := by
  rw [releaseAttempt_eq]
  split
  · rfl
  · rw [closeLease_attempt, update_of_ne hne]
    exact (keeps_beginStopping ha).closed_eq a'

theorem releases_foldl : ∀ {attempts : List AttemptRef} {s : State}, s.HeapOK →
    (∀ a ∈ attempts, a < s.attemptCount) → s.Releases (attempts.foldl releaseAttempt s) ∧
      ∀ a ∈ attempts, ((attempts.foldl releaseAttempt s).attempt a).closed = true := by
  intro attempts
  induction attempts with
  | nil => exact fun _ _ => ⟨.refl _, by simp⟩
  | cons a rest ih =>
    intro s h hlt
    have ha := hlt a mem_cons_self
    have hfi := releases_releaseAttempt h ha
    obtain ⟨hre, hclo⟩ := ih (hfi.heapOK h) fun a' ha' =>
      (hlt a' (mem_cons_of_mem _ ha')).trans_le hfi.attemptCount
    refine ⟨hfi.trans hre, forall_mem_cons.2 ⟨?_, hclo⟩⟩
    exact (hre.lease a (ha.trans_le hfi.attemptCount)).closed releaseAttempt_closed

/-- The release loop of `drainOrdinaryAttempts`. -/
theorem releases_releaseOne {sr : State × JoinedErr} (h : sr.1.HeapOK)
    (ha : a < sr.1.attemptCount) :
    sr.1.Releases (releaseOne sr a).1 ∧ ((releaseOne sr a).1.attempt a).closed = true ∧
      ∀ a', a' ≠ a → ((releaseOne sr a).1.attempt a').closed = (sr.1.attempt a').closed := by
  unfold releaseOne
  dsimp only
  split
  · have hset := keeps_modifyAttempt (s := sr.1) (a := a) (f := fun l => { l with closeErr := sr.2 })
      (AttemptLease.advances_closeErr sr.2) rfl
    have hlt := ha.trans_le hset.attemptCount
    refine ⟨hset.releases.trans (releases_releaseAttempt (hset.heapOK h) hlt),
      releaseAttempt_closed, ?_⟩
    intro a' hne
    rw [releaseAttempt_closed_of_ne hlt hne, hset.closed_eq]
  · exact ⟨releases_releaseAttempt h ha, releaseAttempt_closed,
      fun a' => releaseAttempt_closed_of_ne ha⟩

theorem releases_releaseLoop :
    ∀ {attempts : List AttemptRef} {sr : State × JoinedErr}, sr.1.HeapOK →
    (∀ a ∈ attempts, a < sr.1.attemptCount) →
      sr.1.Releases (attempts.foldl releaseOne sr).1 ∧
        (∀ a ∈ attempts, ((attempts.foldl releaseOne sr).1.attempt a).closed = true) ∧
        ∀ a, a ∉ attempts → ((attempts.foldl releaseOne sr).1.attempt a).closed =
          (sr.1.attempt a).closed := by
  intro attempts
  induction attempts with
  | nil => exact fun _ _ => ⟨.refl _, by simp, fun _ _ => rfl⟩
  | cons a rest ih =>
    intro sr h hlt
    have ha := hlt a mem_cons_self
    obtain ⟨hfi, hse, hot⟩ := releases_releaseOne h ha
    obtain ⟨hre, hclo, hke⟩ := @ih (releaseOne sr a) (hfi.heapOK h) fun a' ha' =>
      (hlt a' (mem_cons_of_mem _ ha')).trans_le hfi.attemptCount
    refine ⟨hfi.trans hre, forall_mem_cons.2 ⟨?_, hclo⟩, ?_⟩
    · exact (hre.lease a (ha.trans_le hfi.attemptCount)).closed hse
    · intro a' ha'
      rw [mem_cons, not_or] at ha'
      exact (hke a' ha'.2).trans (hot a' ha'.1)

/-! ## Peers -/

theorem releases_closePeer : s.Releases (s.modifyPeer p fun l => { l with closed := true }) := by
  have hid : ∀ q, ((s.modifyPeer p fun l => { l with closed := true }).peer q).peerID =
    (s.peer q).peerID :=
    proj_update PeerLease.peerID rfl
  have hhe : s.HeapAdvances (s.modifyPeer p fun l => { l with closed := true }) := by
    refine { refl s with
      peerID := fun q _ => hid q, freshPeer := fun _ h h' => absurd h' (not_lt.2 h), peerClosed := ?_ }
    intro q _ hc
    rw [modifyPeer_peer]
    rcases eq_or_ne q p with rfl | hne
    · rw [update_self]
    · rw [update_of_ne hne, hc]
  exact { hhe with
    thread := fun _ => .inl rfl
    heapOK := fun hok => ⟨hok.exact.closePeer, hok.leases⟩
    attemptCount_eq := rfl
    closing := rfl
    notClosed := rfl
    peers := rfl }

/-- One round of `stopActiveLocked`: the peer is closed, and all its attempts are released. -/
theorem releases_stopPeer (h : s.HeapOK) (p : PeerRef) :
    s.Releases (s.stopPeer p) ∧ ((s.stopPeer p).peer p).closed = true ∧
      ∀ a, a < s.attemptCount → (s.attempt a).peer = p → ((s.stopPeer p).attempt a).closed = true := by
  obtain ⟨hlo, hclo⟩ := releases_foldl h (h.peerAttempts_lt p)
  refine ⟨hlo.trans releases_closePeer, ?_, ?_⟩
  · rw [stopPeer, modifyPeer_peer, update_self]
  · intro a ha hpe
    cases hc : (s.attempt a).closed with
    | true => exact (hlo.lease a ha).closed hc
    | false =>
      -- an open attempt is in the map of its peer
      have hfo := (h.exact.peer_index p).lookup (v := a) ⟨⟨ha, hc⟩, hpe⟩
      exact hclo a (mem_map.2 ⟨_, mem_lookup_iff.1 hfo, rfl⟩)

theorem releases_stopPeers :
    ∀ {ps : List PeerRef} {s : State}, s.HeapOK → (∀ p ∈ ps, p < s.peerCount) →
    s.Releases (ps.foldl stopPeer s) ∧ ∀ p ∈ ps, ((ps.foldl stopPeer s).peer p).closed = true ∧
      ∀ a, a < s.attemptCount → (s.attempt a).peer = p → ((ps.foldl stopPeer s).attempt a).closed =
        true := by
  intro ps
  induction ps with
  | nil => exact fun _ _ => ⟨.refl _, by simp⟩
  | cons p rest ih =>
    intro s h hlt
    have hp := hlt p mem_cons_self
    obtain ⟨hfi, hclo, hclos⟩ := releases_stopPeer h p
    obtain ⟨hre, hdo⟩ := ih (hfi.heapOK h) fun q hq =>
      (hlt q (mem_cons_of_mem _ hq)).trans_le hfi.peerCount
    refine ⟨hfi.trans hre, ?_⟩
    intro q hq
    rcases mem_cons.1 hq with rfl | hq
    · refine ⟨hre.peerClosed q (hp.trans_le hfi.peerCount) hclo, ?_⟩
      intro a ha hpe
      exact (hre.lease a (ha.trans_le hfi.attemptCount)).closed (hclos a ha hpe)
    · refine ⟨(hdo q hq).1, ?_⟩
      intro a ha hpe
      exact (hdo q hq).2 a (ha.trans_le hfi.attemptCount) ((hfi.lease a ha).peer.trans hpe)

/-- **`stopActiveLocked` leaves nothing open**, so that clearing the totals is exact. -/
theorem stopActive_spec (h : s.HeapOK) :
    s.Settles s.stopActive ∧ ∀ a, a < s.attemptCount → (s.stopActive.attempt a).closed = true := by
  have hlt : ∀ p ∈ GoMap.values s.peers, p < s.peerCount :=
    forall_mem_map.2 fun e he => (h.exact.peer_found e.1 e.2 (mem_lookup_iff.2 he)).1
  obtain ⟨hlo, hdo⟩ := releases_stopPeers h hlt
  set s₁ := (GoMap.values s.peers).foldl stopPeer s
  have hok := hlo.heapOK h
  -- an open attempt belongs to a peer of the map, and those are all done
  have hclo : ∀ a, a < s.attemptCount → (s₁.attempt a).closed = true := by
    intro a ha
    cases hc : (s.attempt a).closed with
    | true => exact (hlo.lease a ha).closed hc
    | false =>
      have hfo := (h.exact.attempt_peer a ⟨ha, hc⟩).2
      exact (hdo _ (mem_map.2 ⟨_, mem_lookup_iff.1 hfo, rfl⟩)).2 a ha rfl
  have hpe : ∀ p, p < s₁.peerCount → (s₁.peer p).closed = true := by
    intro p hp
    cases hc : (s₁.peer p).closed with
    | true => rfl
    | false =>
      have hfo := hok.exact.peer_stored p hp hc
      have hin : p ∈ GoMap.values s.peers := by
        rw [← hlo.peers]
        exact mem_map.2 ⟨_, mem_lookup_iff.1 hfo, rfl⟩
      exact ((hdo p hin).1.symm.trans hc).symm
  have hwi : s₁.HeapAdvances s.stopActive := { refl s₁ with }
  have hadv : s.Advances s.stopActive :=
    hlo.toAdvances.trans { hwi with thread := fun _ => .inl rfl }
  refine ⟨{ hadv with
    heapOK := fun _ => ⟨hok.exact.wipe ?_ hpe, hok.leases⟩
    attemptCount_eq := hlo.attemptCount_eq
    closing := hlo.closing
    notClosed := hlo.notClosed }, hclo⟩
  rintro a ⟨ha, hop⟩
  have hc := hclo a (hlo.attemptCount_eq ▸ ha)
  rw [show (s₁.attempt a).closed = false from hop] at hc
  cases hc

/-- A closed peer without attempts is dropped from the map. -/
theorem settles_dropPeer (hsto : s.peers.lookup (s.peer p).peerID = some p)
    (hclo : (s.peer p).closed = true) (hid : (s.peer p).attempts.entries = []) :
    s.Settles { s with peers := s.peers.erase (s.peer p).peerID } :=
  { Settles.refl s with
    thread := fun _ => .inl rfl
    heapOK := fun hok => ⟨hok.exact.dropPeer hsto hclo hid, hok.leases⟩ }

/-- One round of `finishSafetyTripDrain`. -/
theorem settles_dropIdlePeer {e : (_ : String) × PeerRef} (h : s.HeapOK)
    (hsto : s.peers.lookup e.1 = some e.2) : s.Settles (s.dropIdlePeer e) := by
  unfold dropIdlePeer
  split
  · rename_i hidle
    have hcl : s.Releases (s.modifyPeer e.2 fun l => { l with closed := true }) := releases_closePeer
    have hse : (s.modifyPeer e.2 fun l => { l with closed := true }).peer e.2 =
        { s.peer e.2 with closed := true } := by
      rw [modifyPeer_peer, update_self]
    have hid : (s.peer e.2).peerID = e.1 := (h.exact.peer_found e.1 e.2 hsto).2
    have hdr := settles_dropPeer (s := s.modifyPeer e.2 fun l => { l with closed := true }) (p := e.2)
      (by rw [hse, hid]; exact hsto) (by rw [hse]) (by rw [hse]; exact List.isEmpty_iff.1 hidle)
    rw [hse, hid] at hdr
    exact hcl.toSettles.trans hdr
  · exact .refl s

theorem dropIdlePeer_lookup {e : (_ : String) × PeerRef} {id : String} (hne : id ≠ e.1) :
    (s.dropIdlePeer e).peers.lookup id = s.peers.lookup id := by
  unfold dropIdlePeer
  split
  · exact lookup_erase_ne hne
  · rfl

theorem settles_dropIdlePeers : ∀ {entries : List ((_ : String) × PeerRef)} {s : State}, s.HeapOK →
    entries.NodupKeys → (∀ e ∈ entries, s.peers.lookup e.1 = some e.2) →
      s.Settles (entries.foldl dropIdlePeer s) := by
  intro entries
  induction entries with
  | nil => exact fun _ _ _ => .refl _
  | cons e rest ih =>
    intro s h hno hsto
    have hfi := settles_dropIdlePeer h (hsto e mem_cons_self)
    obtain ⟨hnot, hre⟩ := nodupKeys_cons.1 hno
    refine hfi.trans (ih (hfi.heapOK h) hre ?_)
    intro e' he'
    rw [dropIdlePeer_lookup]
    · exact hsto e' (mem_cons_of_mem _ he')
    · intro heq
      exact hnot (heq ▸ mem_keys_of_mem he')

/-! ## Acquisition -/

theorem openAttempt_attempt :
    (s.openAttempt p request loopback).attempt = update s.attempt s.attemptCount
      { peer := p, request := request, terminal := if loopback then some {} else none } := rfl

theorem settles_acquirePeer {peerID : String} : s.Settles (s.orKeep (s.acquirePeer peerID)) := by
  rcases hacq : s.acquirePeer peerID with e | s'
  · exact .refl s
  simp only [acquirePeer, bind_ok_iff, failIf_ok_iff, mapError_ok_iff,
    validateIdentifier_ok_iff, not_le, exists_const] at hacq
  obtain ⟨hid, -, -, -, -, hnew, hro, hs'⟩ := hacq
  cases hs'
  set s' : State := { s with
    peers := s.peers.insert peerID s.peerCount
    peer := update s.peer s.peerCount { peerID := peerID }
    peerCount := s.peerCount + 1 }
  have hpe : s'.peer = update s.peer s.peerCount { peerID := peerID } := rfl
  have hold : ∀ q, q < s.peerCount → s'.peer q = s.peer q := fun q hq => by
    rw [hpe, update_of_ne hq.ne]
  have hhe : s.HeapAdvances s' := by
    refine { refl s with
      peerCount := Nat.le_succ _, peerID := ?_, freshPeer := ?_, peerClosed := ?_ }
    · intro q hq
      rw [hold q hq]
    · intro q hq hq'
      have hq'' : q = s.peerCount := le_antisymm (Nat.le_of_lt_succ hq') hq
      rw [hq'', hpe, update_self]
      exact hid
    · intro q hq hc
      rw [hold q hq, hc]
  exact { hhe with
    thread := fun _ => .inl rfl
    heapOK := fun hok => ⟨hok.exact.openPeer hnew hro, hok.leases⟩
    attemptCount_eq := rfl
    closing := rfl
    notClosed := rfl }

theorem books_openAttempt :
    (s.openAttempt p request loopback).books = s.books.openAttempt p request := by
  have hboo : (s.openAttempt p request loopback).books.booking =
    (s.books.openAttempt p request).booking :=
    comp_update AttemptLease.booking s.attempt s.attemptCount _
  simp only [books] at hboo ⊢
  rw [hboo]
  rfl

/-- The checks of `acquireAttempt` establish what the books need. -/
theorem validateAttempt_admissible (hp : p < s.peerCount)
    (hall : s.acquireAllowed p request loopback = .ok ())
    (hva : s.validateAttempt p request = .ok ()) :
    s.books.Admissible p request ∧ Identifier request.id ∧ s.closed = false ∧ s.closing = false := by
  simp only [acquireAllowed, bind_ok_iff, failIf_ok_iff, exists_const, not_or, Bool.not_eq_true] at hall
  simp only [validateAttempt, bind_ok_iff, failIf_ok_iff, mapError_ok_iff, exists_const,
    validateIdentifier_ok_iff, Resources.validateNonNegative_ok_iff, resourcesWithin_ok_iff,
    ge_iff_le, not_le, not_and] at hva
  obtain ⟨-, -, -, -, hclos, hclo, hpe⟩ := hall
  obtain ⟨hid, -, hnew, hro, hpee, hnon, -, -, -, hper, hagg, hhe⟩ := hva
  exact ⟨⟨hp, hpe, hnew, hro, hpee, hnon, hper, hagg, hhe⟩, hid, hclos, hclo⟩

/-- **An admitted request is one entry of the books.** -/
theorem advances_openAttempt (hid : Identifier request.id) :
    s.Advances (s.openAttempt p request loopback) := by
  have hpid : ∀ q, ((s.openAttempt p request loopback).peer q).peerID = (s.peer q).peerID :=
    proj_update PeerLease.peerID rfl
  have hpcl : ∀ q, ((s.openAttempt p request loopback).peer q).closed = (s.peer q).closed :=
    proj_update PeerLease.closed rfl
  have hhe : s.HeapAdvances (s.openAttempt p request loopback) := by
    refine { refl s with
      attemptCount := Nat.le_succ _, lease := ?_, freshLease := ?_, peerID := fun q _ => hpid q
      freshPeer := fun _ h h' => absurd h' (not_lt.2 h), peerClosed := ?_ }
    · intro a ha
      rw [openAttempt_attempt, update_of_ne ha.ne]
      exact .refl _
    · intro a ha ha'
      have heq : a = s.attemptCount := le_antisymm (Nat.le_of_lt_succ ha') ha
      rw [openAttempt_attempt, heq, update_self]
      constructor
      · exact hid
      · exact fun h => Bool.noConfusion h
      · exact fun h => Bool.noConfusion h
      · intro id h₁ h₂
        exact absurd (h₁.trans h₂) (Nat.not_succ_le_zero 0)
      · exact fun d hd => absurd hd not_mem_nil
      · exact Nat.zero_le _
    · intro q _ hc
      rw [hpcl, hc]
  exact { hhe with thread := fun _ => .inl rfl }

theorem openAttempt_heapOK (h : s.HeapOK) (hadm : s.books.Admissible p request)
    (hid : Identifier request.id) :
    (s.openAttempt p request loopback).HeapOK := by
  refine ⟨?_, (advances_openAttempt hid).leases h.leases⟩
  rw [books_openAttempt]
  exact h.exact.openAttempt hadm

/-! ## Drains, claims and loopback terminals -/

theorem keeps_registerDrain {name : String} {accounting : Bool} :
    s.Keeps (s.orKeep (s.registerDrain a name accounting)) := by
  rcases hreg : s.registerDrain a name accounting with e | s'
  · exact .refl s
  simp only [registerDrain, bind_ok_iff, failIf_ok_iff, mapError_ok_iff,
    validateIdentifier_ok_iff, exists_const, not_or, Bool.not_eq_true, not_le] at hreg
  obtain ⟨hna, ⟨-, -, -, hst⟩, -, hlen, hs'⟩ := hreg
  cases hs'
  change s.Keeps (s.modifyAttempt a (·.addDrain name accounting))
  exact keeps_modifyAttempt (AttemptLease.advances_addDrain hst hna hlen) rfl

theorem keeps_claimExclusive {name : String} : s.Keeps (s.orKeep (s.claimExclusive a name)) := by
  cases hcl : s.claimExclusive a name with
  | error e => exact .refl s
  | ok s' =>
    simp only [claimExclusive, bind_ok_iff] at hcl
    obtain ⟨-, -, -, -, -, -, hs'⟩ := hcl
    cases hs'
    change s.Keeps (s.modifyAttempt a fun l => { l with exclusiveClaims := name :: l.exclusiveClaims })
    exact keeps_modifyAttempt { AttemptLease.Advances.refl _ with ok := fun h => { h with } } rfl

theorem keeps_complete {id : ℕ} : s.Keeps (s.modifyAttempt a (·.complete id)) := by
  refine keeps_modifyAttempt (AttemptLease.advances_complete id) ?_
  unfold AttemptLease.complete AttemptLease.maybeCloseLoopbackNetwork
  split
  · rfl
  · dsimp only
    split
    · split <;> rfl
    · rfl

theorem keeps_modifyTerminal (f : LoopbackTerminal → LoopbackTerminal) :
    s.Keeps (s.modifyAttempt a (·.modifyTerminal f)) :=
  keeps_modifyAttempt (AttemptLease.advances_modifyTerminal f) rfl

end Winkyou.Governor.State
