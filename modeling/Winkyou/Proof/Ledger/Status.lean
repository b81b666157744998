import Mathlib.Tactic
import Winkyou.Spec.Ledger.Ledger

/-!
# What the status of a snapshot says

One lemma for each decision of a snapshot: the effective clock (`effectiveNow_ok_iff`),
the status (`statusAt_cases`) and its circuit (`statusAt_circuit`, `campaignStatusAt_circuit`),
the check of a reset on replay (`checkReset_ok_iff`), and what an accepted admission says about
the rolling windows (`admissionError_ordinary`, `admissionError_campaign`).
-/

namespace Winkyou

open List Except
open Time (add_nanos before_iff isZero_iff toUTC_nanos)

namespace Snapshot

variable {s : Snapshot} {now t : Time} {c : RecordClass}

/-- The snapshot of a journal that could be read. -/
def Live (s : Snapshot) : Prop := s.status.state ≠ .notInitialized ∧ s.status.state ≠ .indeterminate

/-! ## The clock -/

/-- **The effective clock** is the wall clock clamped to the high-watermark, and fails when
the wall clock is more than the skew behind it. -/
theorem effectiveNow_ok_iff : s.effectiveNow now = .ok t ↔
    s.Live ∧ s.highWatermark.nanos ≤ now.nanos + pairingLedgerClockRollbackSkew ∧
      t = if now.nanos < s.highWatermark.nanos then s.highWatermark else now.toUTC := by
  unfold effectiveNow Live
  by_cases hl : s.status.state = .notInitialized ∨ s.status.state = .indeterminate
  · simp only [hl, if_true, reduceCtorEq, false_iff]
    tauto
  simp only [hl, if_false]
  rw [not_or] at hl
  by_cases hk : now.nanos + pairingLedgerClockRollbackSkew < s.highWatermark.nanos
  · simp [hk]
  · by_cases hb : now.nanos < s.highWatermark.nanos
    · simp only [before_iff, add_nanos, toUTC_nanos, hk, hb, if_false, if_true, ok.injEq]
      exact ⟨fun h => ⟨hl, not_lt.1 hk, h.symm⟩, fun h => h.2.2.symm⟩
    · simp only [before_iff, add_nanos, toUTC_nanos, hk, hb, if_false, ok.injEq]
      exact ⟨fun h => ⟨hl, not_lt.1 hk, h.symm⟩, fun h => h.2.2.symm⟩

theorem le_effectiveNow (h : s.effectiveNow now = .ok t) : s.highWatermark.nanos ≤ t.nanos := by
  obtain ⟨-, -, rfl⟩ := effectiveNow_ok_iff.1 h
  split
  · exact le_rfl
  · simp only [toUTC_nanos]; omega

theorem effectiveNow_of_le (hl : s.Live) (h : s.highWatermark.nanos ≤ now.nanos) :
    s.effectiveNow now = .ok now.toUTC := by
  refine effectiveNow_ok_iff.2 ⟨hl, ?_, ?_⟩
  · simp only [pairingLedgerClockRollbackSkew, minute, second, millisecond]; omega
  · rw [if_neg (by omega)]

theorem live_of_effectiveNow (h : s.effectiveNow now = .ok t) : s.Live :=
  (effectiveNow_ok_iff.1 h).1

/-! ## Counting the windows -/

/-- The burn records of a class among the admissions. -/
def burnsOf (c : RecordClass) (l : List AdmissionEntry) : List Record :=
  (l.map (·.record)).filter (·.recordClass = c)

def afterCutoff (cutoff : ℤ) (l : List Record) : List Record :=
  l.filter (cutoff < ·.recordedAt.nanos)

def packetSum (l : List Record) : ℤ := (l.map (·.envelope.packets)).sum

theorem afterCutoff_cons (k : ℤ) (b : Record) (l : List Record) : afterCutoff k (b :: l) =
    if k < b.recordedAt.nanos then b :: afterCutoff k l else afterCutoff k l := by
  simp [afterCutoff, filter_cons]

/-- The latest of a time and the times of a list of records. -/
def latest (t : Time) (l : List Record) : Time :=
  l.foldl (fun t r => if r.recordedAt.after t then r.recordedAt else t) t

variable {last : ℤ} {envelope : Envelope}

theorem latest_le_iff {l : List Record} :
    (latest t l).nanos ≤ last ↔ t.nanos ≤ last ∧ ∀ r ∈ l, r.recordedAt.nanos ≤ last := by
  induction l generalizing t with
  | nil => simp [latest]
  | cons r l ih =>
    have hco : latest t (r :: l) = latest (if r.recordedAt.after t then r.recordedAt else t) l := rfl
    rw [hco, ih, forall_mem_cons, ← and_assoc]
    refine and_congr_left' ?_
    simp only [Time.after_iff]
    split <;> omega

theorem burnsOf_cons (c : RecordClass) (e : AdmissionEntry) (l : List AdmissionEntry) :
    burnsOf c (e :: l) = if e.record.recordClass = c then e.record :: burnsOf c l else burnsOf c l := by
  split_ifs with hc <;> simp [burnsOf, hc]

/-- **The loop of `statusAt`** adds up the ordinary burns after each cutoff. -/
theorem foldl_windowStep (hr dy : Time) (l : List AdmissionEntry) (st : LedgerStatus) :
    l.foldl (windowStep hr dy) st =
      { st with
        lastAdmissionAt := latest st.lastAdmissionAt (burnsOf .ordinary l)
        oneHourAdmissions := st.oneHourAdmissions + (afterCutoff hr.nanos (burnsOf .ordinary l)).length
        twentyFourHourAdmissions :=
          st.twentyFourHourAdmissions + (afterCutoff dy.nanos (burnsOf .ordinary l)).length
        twentyFourHourPackets :=
          st.twentyFourHourPackets + packetSum (afterCutoff dy.nanos (burnsOf .ordinary l)) } := by
  induction l generalizing st with
  | nil => simp [burnsOf, afterCutoff, packetSum, latest]
  | cons e l ih =>
    rw [foldl_cons, ih, burnsOf_cons]
    split_ifs with hc
    · rw [afterCutoff_cons, afterCutoff_cons]
      by_cases hk : hr.nanos < e.record.recordedAt.nanos <;>
        by_cases hd : dy.nanos < e.record.recordedAt.nanos <;>
          simp [windowStep, hc, hk, hd, packetSum, latest, add_assoc, add_comm]
    · simp [windowStep, hc]

theorem setNextAdmission_eq (st : LedgerStatus) : setNextAdmission st =
    { st with
      nextAdmissionAt := if st.lastAdmissionAt.isZero then st.nextAdmissionAt
        else st.lastAdmissionAt.add pairingAdmissionMinimumInterval } := by
  unfold setNextAdmission
  split <;> rfl

/-- **The counters of `statusAt`** at an effective time: at least the ordinary burns in each
window, and full while a rebuilt journal's day has not passed. -/
theorem windowStatus_spec (s : Snapshot) (t : Time) :
    let st := s.windowStatus t
    let B := burnsOf .ordinary s.admissionOrder
    let hr := afterCutoff (t.nanos - pairingAdmissionOneHourWindow) B
    let dy := afterCutoff (t.nanos - pairingAdmissionDayWindow) B
    st.state = .ready ∧ st.explicitResetRequired = false ∧
    (hr.length : ℤ) ≤ st.oneHourAdmissions ∧
    (dy.length : ℤ) ≤ st.twentyFourHourAdmissions ∧
    packetSum dy ≤ st.twentyFourHourPackets ∧
    (s.rebuildAt.nanos ≠ 0 → t.nanos < s.rebuildAt.nanos + pairingAdmissionDayWindow →
      pairingAdmissionDayLimit ≤ st.twentyFourHourAdmissions) ∧
    (∀ b ∈ B, b.recordedAt.nanos ≤ st.lastAdmissionAt.nanos) ∧
    (st.lastAdmissionAt.nanos ≠ 0 →
      st.nextAdmissionAt.nanos = st.lastAdmissionAt.nanos + pairingAdmissionMinimumInterval) := by
  intro st B hr dy
  set st0 := s.chargeRebuild t s.clearedStatus with hst0
  have h0 : st0.state = .ready ∧ st0.explicitResetRequired = false ∧ 0 ≤ st0.oneHourAdmissions ∧
      0 ≤ st0.twentyFourHourAdmissions ∧ 0 ≤ st0.twentyFourHourPackets ∧
      (s.rebuildAt.nanos ≠ 0 → t.nanos < s.rebuildAt.nanos + pairingAdmissionDayWindow →
        pairingAdmissionDayLimit ≤ st0.twentyFourHourAdmissions) := by
    rw [hst0]
    unfold chargeRebuild clearedStatus
    by_cases hz : s.rebuildAt.nanos = 0
    · simp [hz]
    have h4 : (0 : ℤ) ≤ pairingAdmissionOneHourLimit := by decide
    have h12 : (0 : ℤ) ≤ pairingAdmissionDayLimit := by decide
    have hp : (0 : ℤ) ≤ pairingAdmissionDayPackets := by decide
    simp only [isZero_iff, hz, if_false, before_iff, add_nanos, zero_add]
    refine ⟨trivial, trivial, ?_, ?_, ?_, ?_⟩
    · split <;> omega
    · split <;> omega
    · split <;> omega
    · intro _ hlt; rw [if_pos hlt]
  obtain ⟨g1, g2, g3, g4, g5, g6⟩ := h0
  have hst : st = _ := setNextAdmission_eq (s.admissionOrder.foldl
    (windowStep (t.add (-pairingAdmissionOneHourWindow)) (t.add (-pairingAdmissionDayWindow))) st0)
  simp only [foldl_windowStep, add_nanos, ← sub_eq_add_neg] at hst
  rw [hst]
  refine ⟨g1, g2, ?_, ?_, ?_, ?_, (latest_le_iff.1 le_rfl).2, ?_⟩
  · exact le_add_of_nonneg_left g3
  · exact le_add_of_nonneg_left g4
  · exact le_add_of_nonneg_left g5
  · intro hz hlt
    exact le_trans (g6 hz hlt) (by simp)
  · intro hz
    simp only [isZero_iff, hz, if_false, add_nanos]

/-! ## The circuit part of the statuses -/

/-- **The status once the clock is accepted**: the counters of the windows, the circuit of the
journal, and the state that they decide. -/
theorem statusAt_cases (h : s.effectiveNow now = .ok t) : ∃ state blocks detail, s.statusAt now =
      { s.windowStatus t with
        state := state
        blocksActiveWork := blocks
        detail := detail
        consecutiveFailures := (s.failureState .ordinary).1
        circuitOpenedAt := (s.failureState .ordinary).2
        circuitResetEligibleAt := if (s.failureState .ordinary).2.isZero then (s.windowStatus
          t).circuitResetEligibleAt
          else (s.failureState .ordinary).2.add pairingAdmissionCircuitHorizon
        explicitResetRequired := !(s.failureState .ordinary).2.isZero } ∧
    ((s.failureState .ordinary).2.isZero = false ∧ state = .circuitOpen ∨
      (s.failureState .ordinary).2.isZero = true ∧
        (((s.windowStatus t).records ≥ maxPairingLedgerRecords ∨
          (s.windowStatus t).bytes ≥ maxPairingLedgerBytes) ∧
            state = .capacityFull ∨ state = .rateLimited ∨ state = .ready)) := by
  have hl := live_of_effectiveNow h
  obtain ⟨w1, w2, -⟩ := windowStatus_spec s t
  unfold statusAt
  rw [if_neg (by unfold Live at hl; tauto), h]
  simp only
  rcases hz : (s.failureState .ordinary).2.isZero with _ | _
  · exact ⟨_, _, _, rfl, .inl ⟨rfl, rfl⟩⟩
  simp only [Bool.not_true, Bool.false_eq_true, if_false, if_true, w2]
  split
  · exact ⟨_, _, _, rfl, .inr ⟨trivial, .inl ⟨‹_›, rfl⟩⟩⟩
  · split
    · exact ⟨_, _, _, rfl, .inr ⟨trivial, .inr (.inl rfl)⟩⟩
    · exact ⟨_, _, _, rfl, .inr ⟨trivial, .inr (.inr w1)⟩⟩

/-- **The ordinary circuit.** Whatever the time, once the clock is accepted the status
reports the failure state of the journal. -/
theorem statusAt_circuit (h : s.effectiveNow now = .ok t) :
    (s.statusAt now).circuitOpenedAt = (s.failureState .ordinary).2 ∧
    (s.statusAt now).explicitResetRequired = !(s.failureState .ordinary).2.isZero ∧
    ((s.failureState .ordinary).2.isZero = false →
      (s.statusAt now).state = .circuitOpen ∧
      (s.statusAt now).circuitResetEligibleAt =
        (s.failureState .ordinary).2.add pairingAdmissionCircuitHorizon) := by
  obtain ⟨state, blocks, detail, heq, hst⟩ := statusAt_cases h
  rw [heq]
  refine ⟨rfl, rfl, fun hz => ?_⟩
  rcases hst with ⟨-, hop⟩ | ⟨hz', -⟩
  · exact ⟨hop, by simp only [hz, Bool.false_eq_true, if_false]⟩
  · rw [hz] at hz'; cases hz'

/-- The loop of `hardNATCampaignStatusAt` adds up the campaign burns after the cutoff. -/
theorem foldl_campaignStep (k : Time) (l : List AdmissionEntry) (st : CampaignStatus) :
    (l.foldl (campaignStep k) st).explicitResetRequired = st.explicitResetRequired ∧
    (l.foldl (campaignStep k) st).twentyFourHourAdmissions =
      st.twentyFourHourAdmissions + (afterCutoff k.nanos (burnsOf .hardNATCampaign l)).length := by
  induction l generalizing st with
  | nil => simp [burnsOf, afterCutoff]
  | cons e l ih =>
    rw [foldl_cons, (ih _).1, (ih _).2, burnsOf_cons]
    split_ifs with hc
    · rw [afterCutoff_cons]
      by_cases hk : k.nanos < e.record.recordedAt.nanos
      · simp [campaignStep, hc, hk]; omega
      · simp [campaignStep, hc, hk]
    · simp [campaignStep, hc]

/-- **The counters of the campaign**: at least its burns in the window, and full while a
rebuilt journal's day has not passed. -/
theorem campaignWindow_spec (s : Snapshot) (t : Time) :
    (s.campaignWindow t).explicitResetRequired = false ∧
    ((afterCutoff (t.nanos - hardNATCampaignWindow)
      (burnsOf .hardNATCampaign s.admissionOrder)).length : ℤ) ≤
      (s.campaignWindow t).twentyFourHourAdmissions ∧
    (s.rebuildAt.nanos ≠ 0 → t.nanos < s.rebuildAt.nanos + hardNATCampaignWindow →
      hardNATCampaignAdmissions ≤ (s.campaignWindow t).twentyFourHourAdmissions) := by
  have hcut : t.nanos + -hardNATCampaignWindow = t.nanos - hardNATCampaignWindow := by ring
  have h1 : (0 : ℤ) ≤ hardNATCampaignAdmissions := by decide
  unfold campaignWindow
  simp only [foldl_campaignStep, add_nanos, hcut]
  by_cases hz : s.rebuildAt.nanos = 0
  · simp [hz]
  · by_cases hlt : t.nanos < s.rebuildAt.nanos + hardNATCampaignWindow
    · simp [hz, hlt, h1]
    · simp [hz, hlt]

/-- **The campaign circuit and counters**, likewise. -/
theorem campaignStatusAt_circuit (h : s.effectiveNow now = .ok t) :
    (s.hardNATCampaignStatusAt now).circuitOpenedAt = (s.failureState .hardNATCampaign).2 ∧
    (s.hardNATCampaignStatusAt now).explicitResetRequired =
      !(s.failureState .hardNATCampaign).2.isZero ∧
    ((s.failureState .hardNATCampaign).2.isZero = false →
      (s.hardNATCampaignStatusAt now).state = .circuitOpen) ∧
    (s.hardNATCampaignStatusAt now).twentyFourHourAdmissions =
      (s.campaignWindow t).twentyFourHourAdmissions := by
  have hl := live_of_effectiveNow h
  have hw := (campaignWindow_spec s t).1
  unfold hardNATCampaignStatusAt
  rw [if_neg (by unfold Live at hl; tauto), h]
  simp only
  rcases hz : (s.failureState .hardNATCampaign).2.isZero with _ | _
  · simp
  simp only [Bool.not_true, Bool.false_eq_true, if_false]
  split
  any_goals exact ⟨rfl, hw, by simp, rfl⟩
  all_goals
    split
    · exact ⟨rfl, hw, by simp, rfl⟩
    · split <;> exact ⟨rfl, hw, by simp, rfl⟩

/-- **The check of a reset on replay** asks for an open circuit of its class and, for the
ordinary class, for the horizon to have passed. -/
theorem checkReset_ok_iff {r : Record} (hl : s.Live)
    (hw : s.highWatermark.nanos ≤ r.recordedAt.nanos) :
    s.checkReset r = .ok () ↔
      if r.recordClass = .hardNATCampaign then (s.failureState .hardNATCampaign).2.nanos ≠ 0
      else (s.failureState .ordinary).2.nanos ≠ 0 ∧
        (s.failureState .ordinary).2.nanos + pairingAdmissionCircuitHorizon ≤ r.recordedAt.nanos := by
  have he := effectiveNow_of_le hl hw
  unfold checkReset
  by_cases hc : r.recordClass = .hardNATCampaign
  · obtain ⟨h1, h2, -⟩ := campaignStatusAt_circuit he
    simp [hc, h1, h2]
  · obtain ⟨h1, h2, h3⟩ := statusAt_circuit he
    simp only [hc, if_false, bind_ok_iff, failIf_ok_iff, h1, h2]
    by_cases hz : (s.failureState .ordinary).2.nanos = 0
    · simp [hz]
    · have h4 := (h3 (by simpa using hz)).2
      simp [hz, h4]

/-! ## Accepted admissions -/

/-- The ordinary windows have room for one more burn of `packets` at time `t`, after the
burns `B` and a rebuild at `rebuildAt` (zero for none). -/
structure OrdinaryRoom (B : List Record) (rebuildAt t packets : ℤ) : Prop where
  interval : ∃ last, (∀ b ∈ B, b.recordedAt.nanos ≤ last) ∧
    (last = 0 ∨ last + pairingAdmissionMinimumInterval = 0 ∨ last + pairingAdmissionMinimumInterval ≤ t)
  hour : ((afterCutoff (t - pairingAdmissionOneHourWindow) B).length : ℤ) + 1 ≤
    pairingAdmissionOneHourLimit
  day : ((afterCutoff (t - pairingAdmissionDayWindow) B).length : ℤ) + 1 ≤ pairingAdmissionDayLimit
  packets : packetSum (afterCutoff (t - pairingAdmissionDayWindow) B) + packets ≤
    pairingAdmissionDayPackets
  rebuild : rebuildAt ≠ 0 → rebuildAt + pairingAdmissionDayWindow ≤ t

/-- An ordinary window has no room for an admission. -/
def Overrun (s : Snapshot) (t : Time) (envelope : Envelope) : Prop :=
  (¬ (s.statusAt t).nextAdmissionAt.isZero ∧ t.before (s.statusAt t).nextAdmissionAt) ∨
    (s.statusAt t).oneHourAdmissions + 1 > pairingAdmissionOneHourLimit ∨
    (s.statusAt t).twentyFourHourAdmissions + 1 > pairingAdmissionDayLimit ∨
    (s.statusAt t).twentyFourHourPackets + envelope.packets > pairingAdmissionDayPackets

/-- **An accepted ordinary admission** finds room in every ordinary window. -/
theorem admissionError_ordinary (hc : c ≠ .hardNATCampaign) (hl : s.Live)
    (hw : s.highWatermark.nanos ≤ t.nanos) (h : s.admissionError t envelope c = .ok ()) :
    OrdinaryRoom (burnsOf .ordinary s.admissionOrder) s.rebuildAt.nanos t.nanos envelope.packets := by
  have he := effectiveNow_of_le hl hw
  obtain ⟨-, -, w3, w4, w5, w6, w7, w8⟩ := windowStatus_spec s t.toUTC
  obtain ⟨_, _, _, heq, -⟩ := statusAt_cases he
  simp only [toUTC_nanos] at w3 w4 w5 w6
  unfold admissionError at h
  simp only [hc, if_false] at h
  -- only the ready and rate-limited states go on to the windows
  have hwin : ¬ s.Overrun t envelope := by
    intro hcon
    split at h
    all_goals first | (rw [if_pos (by simpa [Overrun] using hcon)] at h; cases h) | cases h
  unfold Overrun at hwin
  rw [heq] at hwin
  simp only [not_or, not_and, isZero_iff, before_iff, not_lt, gt_iff_lt] at hwin
  obtain ⟨g1, g2, g3, g4⟩ := hwin
  refine ⟨⟨(s.windowStatus t.toUTC).lastAdmissionAt.nanos, w7, ?_⟩, by omega, by omega, by omega, ?_⟩
  · by_cases hz : (s.windowStatus t.toUTC).lastAdmissionAt.nanos = 0
    · exact .inl hz
    · have hn := w8 hz
      by_cases hz' : (s.windowStatus t.toUTC).nextAdmissionAt.nanos = 0
      · exact .inr (.inl (by omega))
      · exact .inr (.inr (by have := g1 hz'; omega))
  · intro hz
    by_contra hlt
    have := w6 hz (by omega)
    omega

/-- **An admission after an idle day** is accepted, when the circuit is closed and the journal
is not full. -/
theorem admissionError_of_idle (hl : s.Live) (hw : s.highWatermark.nanos ≤ t.nanos)
    (hz : s.rebuildAt.nanos = 0) (hclo : (s.failureState .ordinary).2.nanos = 0)
    (hst : s.status.lastAdmissionAt.nanos ≤ last)
    (hB : ∀ b ∈ burnsOf .ordinary s.admissionOrder, b.recordedAt.nanos ≤ last)
    (hday : last + pairingAdmissionDayWindow ≤ t.nanos)
    (hrec : s.status.records < maxPairingLedgerRecords)
    (hby : s.status.bytes < maxPairingLedgerBytes)
    (hp : envelope.packets ≤ pairingAdmissionDayPackets) :
    s.admissionError t envelope .ordinary = .ok () := by
  -- both windows are empty
  have hem : ∀ d : ℤ, d ≤ pairingAdmissionDayWindow →
      afterCutoff (t.nanos + -d) (burnsOf .ordinary s.admissionOrder) = [] := by
    intro d hd
    refine filter_eq_nil_iff.2 fun b hb => ?_
    have := hB b hb
    simp only [decide_eq_true_eq]
    omega
  have hho : pairingAdmissionOneHourWindow ≤ pairingAdmissionDayWindow := by decide
  have hwin : s.windowStatus t.toUTC = setNextAdmission
      { s.clearedStatus with lastAdmissionAt := latest s.status.lastAdmissionAt (burnsOf .ordinary
        s.admissionOrder) } := by
    unfold windowStatus chargeRebuild
    rw [if_pos (isZero_iff.2 hz), foldl_windowStep]
    simp only [add_nanos, toUTC_nanos, hem _ hho, hem _ le_rfl, length_nil,
      Nat.cast_zero, add_zero, packetSum, map_nil, sum_nil]
    rfl
  obtain ⟨state, blocks, detail, heq, hsta⟩ := statusAt_cases (effectiveNow_of_le hl hw)
  rw [hwin, setNextAdmission_eq] at heq hsta
  have hla : (latest s.status.lastAdmissionAt (burnsOf .ordinary s.admissionOrder)).nanos ≤ last :=
    latest_le_iff.2 ⟨hst, hB⟩
  have hch : ¬ s.Overrun t envelope := by
    have h4 : (0 : ℤ) + 1 ≤ pairingAdmissionOneHourLimit := by decide
    have h12 : (0 : ℤ) + 1 ≤ pairingAdmissionDayLimit := by decide
    have hmin : (0 : ℤ) ≤ pairingAdmissionDayWindow - pairingAdmissionMinimumInterval := by decide
    unfold Overrun
    rw [heq]
    simp only [clearedStatus, not_or, not_and, isZero_iff, before_iff, not_lt, gt_iff_lt]
    refine ⟨fun hne => ?_, h4, h12, by omega⟩
    split_ifs at hne ⊢
    · exact absurd rfl hne
    · simp only [add_nanos]
      omega
  have hre : state = .rateLimited ∨ state = .ready := by
    rcases hsta with ⟨hop, -⟩ | ⟨-, ⟨hfu, -⟩ | hre⟩
    · exact absurd hclo (Time.isZero_eq_false_iff.1 hop)
    · rcases hfu with hfu | hfu
      · exact absurd hrec (not_lt.2 hfu)
      · exact absurd hby (not_lt.2 hfu)
    · exact hre
  have hs : (s.statusAt t).state = state := by rw [heq]
  unfold admissionError
  simp only [reduceCtorEq, if_false]
  rcases hre with rfl | rfl <;> rw [hs] <;> exact if_neg (by simpa [Overrun] using hch)

/-- **An accepted campaign admission** finds an empty campaign window. -/
theorem admissionError_campaign (hl : s.Live) (hw : s.highWatermark.nanos ≤ t.nanos)
    (h : s.admissionError t envelope .hardNATCampaign = .ok ()) :
    afterCutoff (t.nanos - hardNATCampaignWindow) (burnsOf .hardNATCampaign s.admissionOrder) = [] ∧
    (s.rebuildAt.nanos ≠ 0 → s.rebuildAt.nanos + hardNATCampaignWindow ≤ t.nanos) := by
  have he := effectiveNow_of_le hl hw
  obtain ⟨-, w2, w3⟩ := campaignWindow_spec s t.toUTC
  obtain ⟨-, -, -, f4⟩ := campaignStatusAt_circuit he
  simp only [toUTC_nanos] at w2 w3
  have hro : (s.hardNATCampaignStatusAt t).twentyFourHourAdmissions + 1 ≤
    hardNATCampaignAdmissions := by
    by_contra hcon
    unfold admissionError hardNATCampaignAdmissionError at h
    simp only [if_true] at h
    split at h
    any_goals cases h
    · split at h <;> cases h
    · split at h
      · cases h
      · rw [if_pos (.inl (by omega))] at h; cases h
  have h1 : hardNATCampaignAdmissions = 1 := rfl
  rw [f4] at hro
  constructor
  · apply eq_nil_of_length_eq_zero
    omega
  · intro hz
    by_contra hlt
    have := w3 hz (by omega)
    omega

end Snapshot

end Winkyou
