import Winkyou.Lib.Window
import Winkyou.Proof.Ledger.Run

/-!
# The rolling admission budgets

`Admit` looks at the windows that end at the new burn. Over a whole history every window
is within its budget, wherever it ends (`admission_budgets`), across restarts, clocks
that move backwards, both record classes and a rebuilt journal.
-/

namespace Winkyou

open Snapshot (afterCutoff packetSum)
open Except (bind_ok_iff failIf_ok_iff)
open List
open Window (window length_concat_le)

variable {sha : Sha256} {w : World Journal} {a : Action Bool} {x b : Record} {frame : Bytes}
  {R : List Record} {c : RecordClass}

def stamp (r : Record) : ℤ := r.recordedAt.nanos

def classBurns (c : RecordClass) (R : List Record) : List Record :=
  (burns R).filter (·.recordClass = c)

theorem classBurns_concat : classBurns c (R ++ [x]) =
    if x.type = .burnAndAdmit ∧ x.recordClass = c then classBurns c R ++ [x] else classBurns c R := by
  by_cases ht : x.type = .burnAndAdmit
  · by_cases hc : x.recordClass = c
    · simp [classBurns, burns, ht, hc]
    · simp [classBurns, burns, ht, hc]
  · simp [classBurns, burns, ht]

theorem mem_classBurns (h : b ∈ classBurns c R) : b ∈ burns R ∧ b.recordClass = c := by
  simpa [classBurns] using h

/-! ## Valid burns -/

theorem valid_burn (hv : validatePairingJournalRecord x = .ok ()) (ht : x.type = .burnAndAdmit) :
    validatePairingAdmissionRequest x.request = .ok () := by
  simp only [validatePairingJournalRecord, bind_ok_iff] at hv
  obtain ⟨-, -, -, -, -, -, hv⟩ := hv
  unfold validateRecordFields at hv
  rw [ht] at hv
  simp only [bind_ok_iff] at hv
  obtain ⟨⟨⟩, h, -⟩ := hv
  exact h

theorem valid_burn_class (hv : validatePairingJournalRecord x = .ok ())
    (ht : x.type = .burnAndAdmit) :
    (x.recordClass = .ordinary ∨ x.recordClass = .hardNATCampaign) ∧ 0 < x.envelope.packets := by
  have h := valid_burn hv ht
  simp only [validatePairingAdmissionRequest, bind_ok_iff, failIf_ok_iff] at h
  obtain ⟨-, hcl, -, -, -, -, -, -, -, -, -, -, -, -, henv⟩ := h
  have hc : ¬ x.recordClass = .ordinary → x.recordClass = .hardNATCampaign := by
    simpa [Record.request, RecordClass.valid] using hcl
  refine ⟨or_iff_not_imp_left.2 hc, ?_⟩
  split at henv
  · simp only [failIf_ok_iff, not_not] at henv
    have : x.envelope = hardNATCampaignEnvelope := henv
    rw [this]; decide
  · simp only [validatePairingEnvelope, bind_ok_iff, failIf_ok_iff] at henv
    obtain ⟨-, -, -, -, -, hp, -⟩ := henv
    exact not_le.1 hp

/-- Burns are recorded after the zero time: the clock of a call is never behind it. -/
theorem Chain.burn_nonneg (h : Chain R) (hb : b ∈ burns R) : 0 ≤ stamp b := by
  induction h with
  | nil => simp [burns] at hb
  | @snoc R x _ hx ih =>
    rw [burns_append] at hb
    rcases mem_append.1 hb with hb | hb
    · exact ih hb
    · obtain ⟨hbx, ht⟩ := mem_burns.1 hb
      rw [mem_singleton.1 hbx] at ht ⊢
      have hfi := hx.fits
      rw [FitsType, ht] at hfi
      exact le_trans (highWater_le_iff.1 le_rfl).1 (hx.clock hfi.1)

theorem WorldOK.burn_pos (h : WorldOK w) (hb : b ∈ burns w.journal.records) : 0 < stamp b :=
  lt_of_le_of_ne (h.chain.burn_nonneg hb) (h.times b (mem_burns.1 hb).1).symm

/-! ## The budgets -/

/-- **The admission budgets of a journal**: ordinary burns are a minute apart, at most four
in an hour, at most twelve with 2048 packets in a day; a campaign burn has its day for
itself; and nothing is burned in the day after a rebuild. -/
structure Budgets (R : List Record) : Prop where
  interval : (classBurns .ordinary R).Pairwise fun a b => stamp a + 60 * second ≤ stamp b
  hourly : ∀ t, ((window stamp hour t (classBurns .ordinary R)).length : ℤ) ≤ 4
  daily : ∀ t, ((window stamp (24 * hour) t (classBurns .ordinary R)).length : ℤ) ≤ 12
  packets : ∀ t, Window.total (·.envelope.packets)
    (window stamp (24 * hour) t (classBurns .ordinary R)) ≤ 2048
  campaign : ∀ t, ((window stamp (24 * hour) t (classBurns .hardNATCampaign R)).length : ℤ) ≤ 1
  rebuild : ∀ r ∈ R, r.type = .rebuildBaseline → ∀ b ∈ burns R, stamp r + 24 * hour ≤ stamp b

/-- The rebuild baseline is the first record, and its time is the one the snapshot keeps. -/
theorem Chain.rebuilt (h : Chain R) {r : Record} (hr : r ∈ R) (ht : r.type = .rebuildBaseline) :
    rebuiltAt R = r.recordedAt := by
  induction h with
  | nil => cases hr
  | @snoc R x _ hx ih =>
    rw [rebuiltAt_concat]
    rcases mem_append.1 hr with hr | hr
    · rw [if_neg, ih hr]
      intro hxt
      have hfi := hx.fits
      rw [FitsType, hxt] at hfi
      simp only at hfi
      rw [hfi] at hr
      cases hr
    · rw [mem_singleton.1 hr] at ht ⊢
      rw [if_pos ht]

theorem Budgets.concat_other (h : Budgets R) (hx : x.type ≠ .burnAndAdmit)
    (hr : x.type ≠ .rebuildBaseline) : Budgets (R ++ [x]) := by
  have hcb : ∀ c, classBurns c (R ++ [x]) = classBurns c R := by
    intro c; rw [classBurns_concat, if_neg (by simp [hx])]
  have hb : burns (R ++ [x]) = burns R := by simp [burns, hx]
  refine ⟨by rw [hcb]; exact h.interval, by rw [hcb]; exact h.hourly, by rw [hcb]; exact h.daily,
    by rw [hcb]; exact h.packets, by rw [hcb]; exact h.campaign, ?_⟩
  intro r hrm ht b hbm
  rw [hb] at hbm
  rcases mem_append.1 hrm with hrm | hrm
  · exact h.rebuild r hrm ht b hbm
  · rw [mem_singleton.1 hrm] at ht
    exact absurd ht hr

/-- **A burn that finds room keeps every budget.** -/
theorem Budgets.concat_burn (h : Budgets w.journal.records) (hw : WorldOK w)
    (hx : Written sha w.journal w.owner x frame) (ht : x.type = .burnAndAdmit) :
    Budgets (w.journal.records ++ [x]) := by
  obtain ⟨hcl, -⟩ := valid_burn_class (encode_valid hx.encoded) ht
  have hro := hx.window ht
  have hpos : ∀ c, ∀ b ∈ classBurns c w.journal.records, 0 < stamp b ∧ 0 ≤ b.envelope.packets := by
    intro c b hb
    have hbb := (mem_classBurns hb).1
    exact ⟨hw.burn_pos hbb, le_of_lt (valid_burn_class (hw.valid b (mem_burns.1 hbb).1).1
      (mem_burns.1 hbb).2).2⟩
  have hreb : ∀ r ∈ w.journal.records ++ [x], r.type = .rebuildBaseline →
      ∀ b ∈ burns (w.journal.records ++ [x]), stamp r + 24 * hour ≤ stamp b := by
    intro r hr hrt b hb
    have hrR : r ∈ w.journal.records := by
      rcases mem_append.1 hr with hr | hr
      · exact hr
      · rw [mem_singleton.1 hr, ht] at hrt; cases hrt
    rw [burns_append] at hb
    rcases mem_append.1 hb with hb | hb
    · exact h.rebuild r hrR hrt b hb
    have hbx : b = x := mem_singleton.1 (mem_burns.1 hb).1
    have hat := hw.chain.rebuilt hrR hrt
    have hne := hw.times r hrR
    rw [hbx]
    rcases hcl with hc | hc
    · have := (hro.ordinary (by simp [hc])).rebuild (hat ▸ hne)
      rw [hat] at this
      exact this
    · have := (hro.campaign hc).2 (hat ▸ hne)
      rw [hat] at this
      exact this
  rcases hcl with hc | hc
  · have ho := hro.ordinary (by simp [hc])
    have hcb : classBurns .ordinary (w.journal.records ++ [x]) =
        classBurns .ordinary w.journal.records ++ [x] := by rw [classBurns_concat, if_pos ⟨ht, hc⟩]
    have hcc : classBurns .hardNATCampaign (w.journal.records ++ [x]) =
        classBurns .hardNATCampaign w.journal.records := by
      rw [classBurns_concat, if_neg (by simp [hc])]
    refine ⟨?_, ?_, ?_, ?_, by rw [hcc]; exact h.campaign, hreb⟩
    · rw [hcb]
      refine pairwise_append.2 ⟨h.interval, by simp, ?_⟩
      intro b hb y hy
      rw [mem_singleton.1 hy]
      obtain ⟨last, hla, hca⟩ := ho.interval
      have hbl : stamp b ≤ last := hla b hb
      have hb0 := (hpos _ b hb).1
      have hmin : (0 : ℤ) < pairingAdmissionMinimumInterval := by decide
      rcases hca with h0 | h0 | h0
      · omega
      · omega
      · exact le_trans (add_le_add_left hbl _) h0
    · intro t
      rw [hcb]
      exact length_concat_le h.hourly ho.hour t
    · intro t
      rw [hcb]
      exact length_concat_le h.daily ho.day t
    · intro t
      rw [hcb]
      exact Window.total_concat_le (fun b hb => (hpos _ b hb).2) h.packets ho.packets t
  · obtain ⟨hemp, -⟩ := hro.campaign hc
    have hcb : classBurns .ordinary (w.journal.records ++ [x]) =
      classBurns .ordinary w.journal.records := by
      rw [classBurns_concat, if_neg (by simp [hc])]
    have hcc : classBurns .hardNATCampaign (w.journal.records ++ [x]) =
        classBurns .hardNATCampaign w.journal.records ++ [x] := by
      rw [classBurns_concat, if_pos ⟨ht, hc⟩]
    refine ⟨by rw [hcb]; exact h.interval, by rw [hcb]; exact h.hourly, by rw [hcb]; exact h.daily,
      by rw [hcb]; exact h.packets, ?_, hreb⟩
    intro t
    rw [hcc]
    refine length_concat_le h.campaign ?_ t
    have hnil : (classBurns .hardNATCampaign w.journal.records).filter
        (fun b => stamp x - 24 * hour < stamp b) = [] := hemp
    rw [hnil]
    decide

theorem initial_budgets (h : w.Initial sha) : Budgets w.journal.records := by
  obtain ⟨now, rebuild, frame, owner, -, -, rfl⟩ := h
  have hb : burns [firstRecord now rebuild] = [] := by cases rebuild <;> rfl
  have hcb : ∀ c, classBurns c [firstRecord now rebuild] = [] := by
    intro c; simp [classBurns, hb]
  refine ⟨?_, ?_, ?_, ?_, ?_, ?_⟩ <;> simp only [hcb, hb]
  · exact List.Pairwise.nil
  · intro t; simp [window]
  · intro t; simp [window]
  · intro t; simp [window]
  · intro t; simp [window]
  · simp

/-- **The rolling admission budgets hold over whole histories.** -/
theorem admission_budgets (hw : World.Reachable sha w) : Budgets w.journal.records := by
  induction hw with
  | init h => exact initial_budgets h
  | @act w a hw hl ih =>
    have h := reachable_ok hw
    rw [act_journal]
    rcases hx : w.appends sha a with _ | p
    · exact ih
    obtain ⟨x, frame⟩ := p
    have hwr := appends_written h.readable_owner hx
    by_cases ht : x.type = .burnAndAdmit
    · exact ih.concat_burn h hwr ht
    · refine ih.concat_other ht ?_
      rcases hwr.kind with hk | hk | hk <;> simp [hk]

theorem sample_budgets : ∃ w, World.Reachable zeroSha w ∧ (burns w.journal.records).length = 4 ∧
    Budgets w.journal.records := by
  obtain ⟨w, hw, -, -, -, hb⟩ := LateSuccess.reached
  exact ⟨w, hw, hb, admission_budgets hw⟩

end Winkyou
