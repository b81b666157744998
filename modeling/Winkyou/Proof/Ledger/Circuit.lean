import Winkyou.Proof.Ledger.Run

/-!
# When the circuit stays open

An open circuit of a class is meant to stay open until an explicit reset. The streak of
`failureState` puts the recorded outcomes before the admissions that dead owners left
unfinished, so it is recomputed when an outcome is added: a success separates the two, and
a streak that reached the limit only across them is gone.

* `act_circuit_open_iff`: in an open circuit, one step of the owner that is not a reset of the
  class keeps it open iff it is no success recorded at such a moment (`KeepsCircuit`).
* `circuit_open_along_run_iff`: the same along a whole run.
* `circuit_closed_by_late_success`: the run in which the circuit closes by itself.
-/

namespace Winkyou

open List

variable {sha : Sha256} {w : World Journal} {a : Action Bool} {x : Record} {frame : Bytes}
  {R : List Record} {o : String} {c : RecordClass}

/-- **The circuit of a class is open** for the current owner: the failure state of the
snapshot it reads has an opened-at time. -/
def World.CircuitOpen (w : World Journal) (c : RecordClass) : Prop :=
  ∃ s, buildPairingLedgerSnapshot w.journal.records w.journal.bytes w.owner = .ok s ∧
    (s.failureState c).2.isZero = false

theorem circuitOpen_iff (h : WorldOK w) : w.CircuitOpen c ↔
    Streak.Full Failing (Snapshot.failureLimit c)
      (outcomes c w.journal.records ++ deadBurns c w.journal.records w.owner) := by
  have hr := h.readable_owner
  have hf : ((snapshotOf w.journal.records w.journal.bytes w.owner).failureState c).2.nanos =
      (circuit c w.journal.records w.owner).2 := by
    rw [← openedAt_eq h.chain, openedAt, failureState_congr
      (s := snapshotOf w.journal.records w.journal.bytes w.owner) (t := view w.journal.records 0
        w.owner)
      rfl rfl rfl]
  rw [← circuit_open_iff h.times, World.CircuitOpen, build_ok hr.chain hr.replays hr.ne]
  simp [hf]

/-- **An open circuit blocks at every time**: whatever the clock, once it is accepted the
status of the class is the open circuit. -/
theorem circuitOpen_status {s : Snapshot} (h : (s.failureState c).2.isZero = false) {now t : Time}
    (ht : s.effectiveNow now = .ok t) :
    (c = .ordinary → (s.statusAt now).state = .circuitOpen) ∧
    (c = .hardNATCampaign → (s.hardNATCampaignStatusAt now).state = .circuitOpen) := by
  constructor
  · rintro rfl
    exact ((Snapshot.statusAt_circuit ht).2.2 h).1
  · rintro rfl
    exact (Snapshot.campaignStatusAt_circuit ht).2.2.1 h

/-! ## One record -/

theorem deadBurns_concat (ho : o ≠ "") (hnr : x.type = .circuitReset → x.recordClass ≠ c)
    (hbu : x.type = .burnAndAdmit → x.ownerInstanceID = o)
    (hfin : x.type = .finish → ∀ b ∈ burns R, b.credentialID = x.credentialID → b.ownerInstanceID = o) :
    deadBurns c (R ++ [x]) o = deadBurns c R o := by
  -- no foreign admission of the class is finished by `x`
  have hke : ∀ b ∈ burns R, b.recordClass = c → Foreign o b = true →
      (Finished (R ++ [x]) b.credentialID ↔ Finished R b.credentialID) := by
    intro b hb hbc hfor
    rw [finished_concat, or_iff_left]
    rintro ⟨hft, hfc⟩
    have := hfin hft b hb hfc.symm
    simp [Foreign, ho, this] at hfor
  -- the class tail changes by a record that is no foreign burn
  have hta : (burns (classTail c (R ++ [x]))).filter (Foreign o) =
    (burns (classTail c R)).filter (Foreign o) := by
    rw [classTail_concat]
    by_cases hc : x.recordClass = c
    · have hres : x.type ≠ .circuitReset := fun ht => hnr ht hc
      simp only [hc, ne_eq, not_true, if_false, hres, burns_append, filter_append]
      by_cases hb : x.type = .burnAndAdmit
      · simp [burns, hb, Foreign, ho, hbu hb]
      · simp [burns, hb]
    · simp [hc]
  unfold deadBurns pendingBurns
  rw [filter_comm, hta, filter_comm]
  rw [filter_filter, filter_filter]
  refine filter_congr fun b hb => ?_
  obtain ⟨hbt, hb2⟩ := mem_burns.1 hb
  obtain ⟨hbR, hbc⟩ := mem_classTail hbt
  cases hfor : Foreign o b with
  | false => rfl
  | true =>
    have := hke b (mem_burns.2 ⟨hbR, hb2⟩) hbc hfor
    simp [this]

theorem outcomes_concat (hnr : x.type = .circuitReset → x.recordClass ≠ c) : outcomes c (R ++ [x]) =
    if x.type = .finish ∧ x.recordClass = c then outcomes c R ++ [x] else outcomes c R := by
  unfold outcomes
  rw [classTail_concat]
  by_cases hc : x.recordClass = c
  · have hres : x.type ≠ .circuitReset := fun ht => hnr ht hc
    by_cases hf : x.type = .finish
    · simp [hc, hf, finishes]
    · simp [hc, hf, hres, finishes]
  · simp [hc]

theorem finish_own (h : WorldOK w) (hl : a.legal w) (hx : w.appends sha a = some (x, frame))
    (ht : x.type = .finish) : ∀ b ∈ burns w.journal.records, b.credentialID = x.credentialID →
      b.ownerInstanceID = w.owner := by
  intro b hb hbc
  obtain ⟨now, receipt, reason, o, rfl, hcr, -, hown⟩ := appends_finish h.readable_owner hx ht
  obtain ⟨b', hb', hc', ho'⟩ := h.receipts receipt hl
  rw [h.chain.eq_of_cred hb hb' (by rw [hbc, hcr, hc']), ho', hown]

/-! ## One step, and a run -/

/-- A step of the current owner that does not reset the circuit of the class. -/
def World.Continues (sha : Sha256) (c : RecordClass) (w : World Journal) (a : Action Bool) : Prop :=
  a.legal w ∧ (∀ o, a ≠ .takeOver o) ∧
    ∀ x frame, w.appends sha a = some (x, frame) → x.type = .circuitReset → x.recordClass ≠ c

/-- **The condition under which a step keeps the circuit**: a success of the class is recorded
only when the outcomes since the last reset hold a full streak of failures themselves, or
at least as many admissions as the limit were left unfinished by other owners. -/
def World.KeepsCircuit (sha : Sha256) (c : RecordClass) (w : World Journal) (a : Action Bool) :
    Prop :=
  ∀ x frame, w.appends sha a = some (x, frame) → x.type = .finish → x.recordClass = c →
    x.reason = .success →
    Streak.Full Failing (Snapshot.failureLimit c) (outcomes c w.journal.records) ∨
      Snapshot.failureLimit c ≤ (deadBurns c w.journal.records w.owner).length

theorem act_owner (ha : ∀ o, a ≠ .takeOver o) : (w.act journalStorage sha a).owner = w.owner := by
  cases a with
  | takeOver o => exact absurd rfl (ha o)
  | _ => rfl

/-- **One step from an open circuit.** -/
theorem act_circuit_open_iff (h : WorldOK w) (ha : w.Continues sha c a) (hop : w.CircuitOpen c) :
    (w.act journalStorage sha a).CircuitOpen c ↔ w.KeepsCircuit sha c a := by
  obtain ⟨hl, hto, hnr⟩ := ha
  have h' : WorldOK (w.act journalStorage sha a) := act_ok h hl
  rw [circuitOpen_iff h] at hop
  rw [circuitOpen_iff h', act_owner hto, act_journal]
  rcases hx : w.appends sha a with _ | p
  · refine ⟨fun _ x frame hx' => ?_, fun _ => hop⟩
    rw [hx] at hx'; cases hx'
  obtain ⟨x, frame⟩ := p
  have hwr := appends_written h.readable_owner hx
  have hde : deadBurns c (w.journal.records ++ [x]) w.owner = deadBurns c w.journal.records w.owner :=
    deadBurns_concat h.owner.2 (hnr x frame hx) hwr.owner (finish_own h hl hx)
  have hdb : ∀ b ∈ deadBurns c w.journal.records w.owner, Failing b :=
    fun b hb => failing_of_pending (mem_of_mem_filter hb)
  simp only [Journal.append]
  rw [hde, outcomes_concat (hnr x frame hx)]
  by_cases hfc : x.type = .finish ∧ x.recordClass = c
  · rw [if_pos hfc, append_assoc]
    by_cases hs : x.reason = .success
    · -- a success stands between the outcomes and the dead admissions
      have hgo : ¬ Failing x := by simp [Failing, hfc.1, hs]
      rw [singleton_append, Streak.full_insert_good failureLimit_pos hgo hdb]
      refine ⟨fun hfu y f hy => ?_, fun hk => hk x frame hx hfc.1 hfc.2 hs⟩
      rw [hx] at hy
      obtain ⟨rfl, rfl⟩ := Prod.mk.inj (Option.some.inj hy)
      exact fun _ _ _ => hfu
    · have hbad : Failing x := .inr hs
      refine ⟨fun _ y f hy _ _ hsy => ?_, fun _ => Streak.full_insert_bad hbad hop⟩
      rw [hx] at hy
      obtain ⟨rfl, rfl⟩ := Prod.mk.inj (Option.some.inj hy)
      exact absurd hsy hs
  · rw [if_neg hfc]
    refine ⟨fun _ y f hy ht hc => ?_, fun _ => hop⟩
    rw [hx] at hy
    obtain ⟨rfl, rfl⟩ := Prod.mk.inj (Option.some.inj hy)
    exact absurd ⟨ht, hc⟩ hfc

/-- A run of the current owner without a reset of the class. -/
def World.ContinuesAlong (sha : Sha256) (c : RecordClass) (w : World Journal)
    (as : List (Action Bool)) : Prop :=
  ∀ p a q, as = p ++ a :: q → (w.run sha p).Continues sha c a

theorem run_ok (h : WorldOK w) {as : List (Action Bool)} (ha : w.ContinuesAlong sha c as) :
    WorldOK (w.run sha as) := by
  induction as using List.reverseRecOn with
  | nil => exact h
  | append_singleton p a ih =>
    rw [run_concat]
    refine act_ok (ih fun p' a' q' he => ha p' a' (q' ++ [a]) (by simp [he])) (ha p a [] rfl).1

/-- **The circuit stays open along a run iff every step keeps it.** From an open circuit of a
class in a reachable world, take any calls of the current owner, at any times, without a
reset of the class: the circuit is open in every world of the run iff every recorded
success meets `KeepsCircuit`. -/
theorem circuit_open_along_run_iff (hw : World.Reachable sha w) (hopen : w.CircuitOpen c)
    {as : List (Action Bool)} (ha : w.ContinuesAlong sha c as) :
    (∀ p q, as = p ++ q → (w.run sha p).CircuitOpen c) ↔
      ∀ p a q, as = p ++ a :: q → (w.run sha p).KeepsCircuit sha c a := by
  have h := reachable_ok hw
  constructor
  · intro hall p a q he
    have hok : WorldOK (w.run sha p) := run_ok h fun p' a' q' he' =>
      ha p' a' (q' ++ a :: q) (by simp [he, he'])
    rw [← act_circuit_open_iff hok (ha p a q he) (hall p (a :: q) he), ← run_concat]
    exact hall (p ++ [a]) q (by simp [he])
  · intro hall p
    induction p using List.reverseRecOn with
    | nil => intro q _; exact hopen
    | append_singleton p a ih =>
      intro q he
      have he' : as = p ++ a :: q := by simp [he]
      have hok : WorldOK (w.run sha p) :=
        run_ok h fun p' a' q' hp => ha p' a' (q' ++ a :: q) (by simp [he', hp])
      rw [run_concat, act_circuit_open_iff hok (ha p a q he') (ih (a :: q) he')]
      exact hall p a q he'

/-- A campaign circuit never closes by itself: one dead admission is enough to keep it. -/
theorem campaign_keeps_circuit (h : WorldOK w) (hop : w.CircuitOpen .hardNATCampaign)
    (a : Action Bool) : w.KeepsCircuit sha .hardNATCampaign a := by
  intro x frame _ _ _ _
  obtain ⟨s, hs, hl, hb⟩ := (circuitOpen_iff h).1 hop
  have h1 : Snapshot.failureLimit .hardNATCampaign = 1 := rfl
  rw [h1] at hl ⊢
  rcases infix_append_iff.1 hs with hs | hs | ⟨u, v, rfl, hu, hv⟩
  · exact .inl ⟨s, hs, hl, hb⟩
  · exact .inr (le_trans hl hs.length_le)
  · rw [length_append] at hl
    rcases Nat.eq_zero_or_pos v.length with hv0 | hv0
    · exact .inl ⟨u, hu.isInfix, by omega, fun y hy => hb y (by simp [hy])⟩
    · exact .inr (le_trans hv0 hv.length_le)

/-! ## A circuit that closes by itself

The first owner burns two credentials and dies; the second burns two more. When it
finishes one as a failure the circuit opens, with one recorded failure and two dead
admissions. When it finishes the other as a success the streak is two. -/

namespace LateSuccess

theorem circuitOpen_iff_closed {w : World Journal} :
    w.CircuitOpen .ordinary ↔ closed w = some false := by
  unfold World.CircuitOpen closed
  cases buildPairingLedgerSnapshot w.journal.records w.journal.bytes w.owner with
  | error e => simp [Except.toOption]
  | ok s => simp [Except.toOption]

theorem exists_open : ∃ w, World.Reachable zeroSha w ∧ w.CircuitOpen .ordinary ∧
    receipt 5 'G' 'H' 240 ∈ w.receipts ∧ ¬ (w.act journalStorage zeroSha success).CircuitOpen
      .ordinary := by
  obtain ⟨w, hw, hop, hq, hclo, -⟩ := reached
  refine ⟨w, hw, circuitOpen_iff_closed.2 hop, hq, ?_⟩
  rw [circuitOpen_iff_closed, hclo]
  simp

/-- The same admission finished as a failure. -/
def failure : Action Bool := .finish (at_ 360) (receipt 5 'G' 'H' 240) .cancelled true

theorem continues_of_receipt {w : World Journal} {now : Time} {q : Receipt}
    {reason : TerminalReason} {ok : Bool} (hw : World.Reachable zeroSha w) (hq : q ∈ w.receipts) :
    w.Continues zeroSha .ordinary (.finish now q reason ok) := by
  refine ⟨hq, fun o => by simp, fun x frame hx ht => ?_⟩
  have h := (reachable_ok hw).readable_owner
  have := (planFinish_written h (toOption_eq_some (Option.join_eq_some_iff.1 hx))).2.1
  rw [ht] at this; cases this

end LateSuccess

/-- **The circuit closes by itself.** In a reachable world the ordinary circuit is open for the
current owner, and the next call of that owner, a `Finish` with success, closes it. -/
theorem circuit_closed_by_late_success : ∃ (w : World Journal) (a : Action Bool),
    World.Reachable zeroSha w ∧ w.CircuitOpen .ordinary ∧ w.Continues zeroSha .ordinary a ∧
      ¬ (w.act journalStorage zeroSha a).CircuitOpen .ordinary := by
  obtain ⟨w, hw, hopen, hq, hclosed⟩ := LateSuccess.exists_open
  exact ⟨w, LateSuccess.success, hw, hopen, LateSuccess.continues_of_receipt hw hq, hclosed⟩

/-- A failure recorded in the same world keeps it open. -/
theorem circuit_open_after_late_failure : ∃ (w : World Journal) (a : Action Bool),
    World.Reachable zeroSha w ∧ w.CircuitOpen .ordinary ∧ w.ContinuesAlong zeroSha .ordinary [a] ∧
      ∀ p q, [a] = p ++ q → (w.run zeroSha p).CircuitOpen .ordinary := by
  obtain ⟨w, hw, hopen, hq, -⟩ := LateSuccess.exists_open
  have hsingle : ∀ {p q : List (Action Bool)} {a : Action Bool},
      [LateSuccess.failure] = p ++ a :: q → p = [] ∧ a = LateSuccess.failure := by
    intro p q a he
    cases p with
    | nil => exact ⟨rfl, by simpa [eq_comm] using (List.cons.inj he).1⟩
    | cons b p => simp at he
  have ha : w.ContinuesAlong zeroSha .ordinary [LateSuccess.failure] := by
    intro p a q he
    obtain ⟨rfl, rfl⟩ := hsingle he
    exact LateSuccess.continues_of_receipt hw hq
  refine ⟨w, LateSuccess.failure, hw, hopen, ha, (circuit_open_along_run_iff hw hopen ha).2 ?_⟩
  intro p a q he x frame hx ht hc hs
  obtain ⟨rfl, rfl⟩ := hsingle he
  have := (planFinish_written (reachable_ok hw).readable_owner
    (toOption_eq_some (Option.join_eq_some_iff.1 hx))).2.2.2.2.1
  rw [hs] at this; cases this

end Winkyou
