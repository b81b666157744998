import Winkyou.Proof.Ledger.Run

/-!
# Room for the terminal record of every admission

`ensureAdmissionCapacity` reserves one maximum-size terminal frame for the admission it
lets in, whatever other admissions are outstanding, and a reset reserves nothing. The
reserve of one admission can therefore be used up by another.

* `finish_fits_along_run`: if every admission and reset leaves a terminal frame for each
  outstanding admission (`LeavesReserve`), `Finish` never runs out of room.
-/

namespace Winkyou

open List Except

variable {sha : Sha256} {w : World Journal} {a : Action Bool} {x b : Record} {frame : Bytes}
  {R : List Record}

/-- The admissions without a finish. -/
def outstanding (R : List Record) : List Record :=
  (burns R).filter fun b => ¬ Finished R b.credentialID

/-- The size of a terminal frame at most. -/
def terminalFrameBytes : ℕ := 4 + maxPairingLedgerFrameBytes

/-- **An admission can be finished**: no `Finish` of its credential fails for lack of
capacity, at any time and with any reason. -/
def World.CanFinish (sha : Sha256) (w : World Journal) (b : Record) : Prop :=
  ∀ now receipt reason status, receipt.credentialID = b.credentialID →
    planFinish sha (w.journal.read w.owner) w.owner now receipt reason ≠
      .error (.ledger status .capacity)

/-- Room for `n` terminal records of maximum size. -/
def Reserve (records bytes n : ℕ) : Prop :=
  records + n ≤ maxPairingLedgerRecords ∧ bytes + n * terminalFrameBytes ≤ maxPairingLedgerBytes

/-- **A step leaves the reserve**: after an admission or a reset there is room for a terminal
record of every admission then outstanding. -/
def World.LeavesReserve (sha : Sha256) (w : World Journal) (a : Action Bool) : Prop :=
  ∀ x frame, w.appends sha a = some (x, frame) → x.type ≠ .finish →
    Reserve (w.journal.records.length + 1) (w.journal.bytes + frame.length)
      ((outstanding w.journal.records).length + if x.type = .burnAndAdmit then 1 else 0)

/-! ## Outstanding admissions -/

theorem outstanding_burn (h : Chain R) (hf : Follows R x) (ht : x.type = .burnAndAdmit) :
    outstanding (R ++ [x]) = outstanding R ++ [x] := by
  have hfi := hf.fits
  rw [FitsType, ht] at hfi
  -- no finish of a credential stands before its burn
  have hnew : ¬ Finished R x.credentialID := by
    intro hx
    obtain ⟨f, hfR, hft, hfc⟩ := finished_iff.1 hx
    obtain ⟨b, hb, hbc, -⟩ := h.matched (mem_finishes.2 ⟨hfR, hft⟩)
    exact hfi.2.1 b hb (hbc.trans hfc)
  have hb : burns (R ++ [x]) = burns R ++ [x] := by simp [burns, ht]
  simp [outstanding, hb, finished_concat, ht, hnew]

theorem outstanding_reset (ht : x.type = .circuitReset) :
    outstanding (R ++ [x]) = outstanding R := by
  have hb : burns (R ++ [x]) = burns R := by simp [burns, ht]
  simp [outstanding, hb, finished_concat, ht]

theorem outstanding_finish (h : Chain R) (hf : Follows R x) (ht : x.type = .finish) :
    (outstanding (R ++ [x])).length + 1 = (outstanding R).length := by
  have hfi := hf.fits
  rw [FitsType, ht] at hfi
  obtain ⟨⟨b, hb, hbc, -⟩, hnf⟩ := hfi
  have hnd : (outstanding R).Nodup :=
    (List.Nodup.of_map _ h.burn_creds_nodup).filter _
  have hbR : burns (R ++ [x]) = burns R := by simp [burns, ht]
  have heq : outstanding (R ++ [x]) = (outstanding R).erase b := by
    rw [hnd.erase_eq_filter, outstanding, outstanding, hbR, filter_filter]
    refine filter_congr fun y hy => ?_
    have hyb : x.credentialID = y.credentialID ↔ y = b := by
      constructor
      · intro hyc; exact h.eq_of_cred hy hb (hyc.symm.trans hbc.symm)
      · rintro rfl; exact hbc.symm
    by_cases heq : y = b <;> simp [finished_concat, ht, hyb, heq, hbc]
  have hmem : b ∈ outstanding R := by
    simp only [outstanding, mem_filter, decide_eq_true_eq]
    exact ⟨hb, by rw [hbc]; exact hnf⟩
  have hpos := length_pos_of_mem hmem
  rw [heq, length_erase_of_mem hmem]
  omega

/-! ## The reserve -/

theorem effectiveNow_error {s : Snapshot} {now : Time} {status : LedgerStatus}
    {cause : LedgerSentinel} (h : s.effectiveNow now = .error (.ledger status cause)) :
    cause ≠ .capacity := by
  unfold Snapshot.effectiveNow at h
  simp only at h
  split at h
  · cases h; simp
  · split at h
    · cases h; simp
    · split at h <;> cases h

/-- A capacity error of `Finish` comes from the capacity check of its frame. -/
theorem planFinish_capacity {j : Journal} {o : String} (h : Readable j o) {now : Time}
    {receipt : Receipt} {reason : TerminalReason} {status : LedgerStatus}
    (hp : planFinish sha (j.read o) o now receipt reason = .error (.ledger status .capacity)) :
    ∃ x frame, encodePairingJournalFrame sha x = .ok frame ∧
      (readSnap j o now.toUTC).ensureRecordCapacity frame.length ≠ .ok () := by
  unfold planFinish at hp
  simp only [bind_error_iff, failIf_error_iff, failIf_ok_iff, h.read_usable,
    reduceCtorEq, and_false, false_or, ok.injEq] at hp
  obtain ⟨-, -, -, -, s, rfl, hp⟩ := hp
  rcases hp with hp | ⟨t, -, hp⟩
  · exact absurd rfl (effectiveNow_error hp)
  split at hp
  · cases hp
  simp only [bind_error_iff, failIf_error_iff, failIf_ok_iff,
    reduceCtorEq, and_false, false_or] at hp
  obtain ⟨-, -, hp⟩ := hp
  split at hp
  · simp only [bind_error_iff, failIf_error_iff, reduceCtorEq, and_false, exists_false, or_self] at hp
  · simp only [bind_error_iff, mapError_error_iff, mapError_ok_iff, reduceCtorEq,
      and_false, exists_false, or_false, false_or] at hp
    obtain ⟨f, henc, hp⟩ := hp
    exact ⟨_, f, henc, by rw [hp]; simp⟩

/-- With a reserve for every outstanding admission, none fails for lack of room. -/
theorem canFinish_of_reserve (h : WorldOK w)
    (hr : Reserve w.journal.records.length w.journal.bytes (outstanding w.journal.records).length)
    (hb : b ∈ outstanding w.journal.records) : w.CanFinish sha b := by
  intro now receipt reason status _ hcap
  obtain ⟨x, f, henc, hne⟩ := planFinish_capacity h.readable_owner hcap
  have hpos := length_pos_of_mem hb
  have hmul : terminalFrameBytes ≤ (outstanding w.journal.records).length * terminalFrameBytes :=
    Nat.le_mul_of_pos_left _ hpos
  have hlen := (encode_length henc).2
  obtain ⟨hr1, hr2⟩ := hr
  apply hne
  unfold Snapshot.ensureRecordCapacity
  rw [if_neg]
  have hR : (readSnap w.journal w.owner now.toUTC).records = w.journal.records := rfl
  have hB : (readSnap w.journal w.owner now.toUTC).bytes = w.journal.bytes := rfl
  rw [hR, hB]
  unfold terminalFrameBytes at hmul hr2
  omega

def World.HasReserve (w : World Journal) : Prop :=
  Reserve w.journal.records.length w.journal.bytes (outstanding w.journal.records).length

theorem act_hasReserve (h : WorldOK w) (hr : w.HasReserve) (ha : w.LeavesReserve sha a) :
    (w.act journalStorage sha a).HasReserve := by
  unfold World.HasReserve
  rw [act_journal]
  rcases hx : w.appends sha a with _ | p
  · exact hr
  obtain ⟨x, frame⟩ := p
  have hwr := appends_written h.readable_owner hx
  have hlen := (encode_length hwr.encoded).2
  simp only [Journal.append, length_append, length_singleton]
  rcases hwr.kind with ht | ht | ht
  · have := ha x frame hx (by simp [ht])
    rw [if_pos ht] at this
    rw [outstanding_burn h.chain hwr.follows ht]
    simpa using this
  · -- a finish uses up the reserve of its own admission
    have hout := outstanding_finish h.chain hwr.follows ht
    obtain ⟨hr1, hr2⟩ := hr
    rw [← hout] at hr1 hr2
    refine ⟨by omega, ?_⟩
    rw [Nat.add_mul] at hr2
    unfold terminalFrameBytes at hr2 ⊢
    omega
  · have := ha x frame hx (by simp [ht])
    rw [if_neg (by simp [ht]), add_zero] at this
    rw [outstanding_reset ht]
    exact this

/-- The worlds of runs in which every step leaves the reserve. -/
inductive World.ReachableWithReserve (sha : Sha256) : World Journal → Prop
  | init {w : World Journal} : w.Initial sha → ReachableWithReserve sha w
  | act {w : World Journal} (a : Action Bool) : ReachableWithReserve sha w → a.legal w →
      w.LeavesReserve sha a → ReachableWithReserve sha (w.act journalStorage sha a)

theorem World.ReachableWithReserve.reachable (h : World.ReachableWithReserve sha w) :
    World.Reachable sha w := by
  induction h with
  | init h => exact .init h
  | act a _ hl _ ih => exact .act a ih hl

theorem initial_hasReserve (h : w.Initial sha) : w.HasReserve := by
  have hok := initial_ok h
  obtain ⟨now, rebuild, frame, owner, -, -, rfl⟩ := h
  have hout : outstanding [firstRecord now rebuild] = [] := by cases rebuild <;> rfl
  refine ⟨?_, ?_⟩
  · simp [hout, maxPairingLedgerRecords]
  · simpa [hout] using hok.bytes_le

/-- **Every admission can record its terminal reason**, in every world of a run whose
admissions and resets leave the reserve. -/
theorem finish_fits_along_run (hw : World.ReachableWithReserve sha w) :
    ∀ b ∈ outstanding w.journal.records, w.CanFinish sha b := by
  have hres : w.HasReserve := by
    induction hw with
    | init h => exact initial_hasReserve h
    | act a hw hl ha ih => exact act_hasReserve (reachable_ok hw.reachable) ih ha
  exact fun b hb => canFinish_of_reserve (reachable_ok hw.reachable) hres hb

/-- While the journal has room for two more records and every outstanding one, a step leaves
the reserve. -/
theorem leavesReserve_of_room (h : WorldOK w)
    (hr : w.journal.records.length + (outstanding w.journal.records).length + 2 ≤
      maxPairingLedgerRecords)
    (hb : w.journal.bytes + ((outstanding w.journal.records).length + 2) * terminalFrameBytes ≤
      maxPairingLedgerBytes) : w.LeavesReserve sha a := by
  intro x frame hx _
  have hlen := (encode_length (appends_written h.readable_owner hx).encoded).2
  rw [Nat.add_mul] at hb
  constructor
  · split <;> omega
  · rw [Nat.add_mul]
    split <;> simp only [terminalFrameBytes, one_mul, zero_mul] at hb ⊢ <;> omega

/-- The first two admissions of the sample run can be finished, also by the next owner. -/
theorem first_admission_fits : ∃ w, World.ReachableWithReserve zeroSha w ∧
    (outstanding w.journal.records).length = 2 ∧
      ∀ b ∈ outstanding w.journal.records, w.CanFinish zeroSha b := by
  let a (cred attempt : Char) (seconds : ℤ) : Action Bool :=
    .admitRequest (LateSuccess.at_ seconds) (LateSuccess.request cred attempt seconds) true
  have hstart : World.ReachableWithReserve zeroSha LateSuccess.start := .init LateSuccess.start_initial
  have hone := World.ReachableWithReserve.act (a 'A' 'B' 60) hstart trivial
    (leavesReserve_of_room (reachable_ok hstart.reachable) (by decide +kernel) (by decide +kernel))
  have htwo := World.ReachableWithReserve.act (a 'C' 'D' 120) hone trivial
    (leavesReserve_of_room (reachable_ok hone.reachable) (by decide +kernel) (by decide +kernel))
  have hnext := World.ReachableWithReserve.act (.takeOver LateSuccess.ownerB) htwo (by decide +kernel)
    (leavesReserve_of_room (reachable_ok htwo.reachable) (by decide +kernel) (by decide +kernel))
  exact ⟨_, hnext, by decide +kernel, finish_fits_along_run hnext⟩

end Winkyou
