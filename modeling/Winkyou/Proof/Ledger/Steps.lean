import Winkyou.Proof.Ledger.Failure

/-!
# What a call can append

One lemma for each operation says what it asks of the journal before it appends
(`planAdmit_written`, `planFinish_written`, `planReset_written`, `planCampaignReset_written`),
all in terms of `Written`: the record follows the journal, its frame fits, a reset finds
its circuit open in the writer's view, and a burn finds room in the windows of its class.
-/

namespace Winkyou

open Snapshot Except
open Except (bind_ok_iff failIf_ok_iff mapError_ok_iff)

variable {sha : Sha256} {j : Journal} {o : String} {now t : Time} {x : Record} {frame : Bytes}

/-! ## Reading -/

/-- A journal that its owner can read. -/
structure Readable (j : Journal) (o : String) : Prop where
  chain : Chain j.records
  ne : j.records ≠ []
  replays : Replays o j.records
  records_le : j.records.length ≤ maxPairingLedgerRecords
  bytes_le : j.bytes ≤ maxPairingLedgerBytes

def readSnap (j : Journal) (o : String) (now : Time) : Snapshot :=
  { snapshotOf j.records j.bytes o with status := (snapshotOf j.records j.bytes o).statusAt now }

variable {s : Snapshot} {note : String}

theorem statusAt_live (h : s.Live) :
    (s.statusAt now).state ≠ .notInitialized ∧ (s.statusAt now).state ≠ .indeterminate := by
  have hn : ¬ (s.status.state = .notInitialized ∨ s.status.state = .indeterminate) := by
    unfold Snapshot.Live at h; tauto
  cases he : s.effectiveNow now with
  | error e =>
    -- the only other error of the clock is the rollback
    rw [statusAt, if_neg hn, he]
    unfold effectiveNow at he
    simp only [hn, if_false] at he
    split at he
    · obtain rfl := error.inj he
      simp
    · split at he <;> cases he
  | ok t =>
    obtain ⟨state, blocks, detail, heq, hst⟩ := statusAt_cases he
    rw [heq]
    rcases hst with ⟨-, rfl⟩ | ⟨-, ⟨-, rfl⟩ | rfl | rfl⟩ <;> simp

theorem snapshotOf_live : (snapshotOf j.records j.bytes o).Live := by
  simp [snapshotOf, Snapshot.Live]

theorem readSnap_live : (readSnap j o now).Live := statusAt_live snapshotOf_live

theorem Readable.read_eq (h : Readable j o) : j.read o now =
    { snapshot := readSnap j o now
      err := if (readSnap j o now).status.state = .clockRollback then
        some (.ledger (readSnap j o now).status .clockRollback) else none } := by
  have h1 : ¬ j.bytes > maxPairingLedgerBytes := not_lt.2 h.bytes_le
  have h2 : ¬ j.records.length > maxPairingLedgerRecords := not_lt.2 h.records_le
  simp only [Journal.read, h1, h2, if_false, readRecords, build_ok h.chain h.replays h.ne]
  rfl

/-- **Reading a readable journal** never ends in the two blocking states. -/
theorem Readable.read_usable (h : Readable j o) :
    (j.read o now).usable = .ok (readSnap j o now) := by
  have hl : ¬ ((readSnap j o now).status.state = .notInitialized ∨
      (readSnap j o now).status.state = .indeterminate) := by
    have hli : (readSnap j o now).Live := readSnap_live
    unfold Snapshot.Live at hli; tauto
  rw [h.read_eq]
  unfold Reading.usable
  split
  · rw [if_neg hl]
  · rfl

theorem readSnap_failureState (c : RecordClass) (hc : Chain j.records) :
    ((readSnap j o now).failureState c).2.nanos = (circuit c j.records o).2 := by
  rw [← openedAt_eq hc, openedAt, failureState_congr (s := readSnap j o now) (t := view j.records 0 o)
    rfl rfl rfl]

theorem readSnap_burnsOf (c : RecordClass) : burnsOf c (readSnap j o now).admissionOrder =
    (burns j.records).filter (·.recordClass = c) := by
  simp [burnsOf, readSnap, snapshotOf, view, List.map_map, Function.comp_def]

theorem readSnap_admissions (c : String) :
    (readSnap j o now).admissions c = (view j.records j.bytes o).admissions c := rfl

theorem readSnap_attempts (c : String) :
    (readSnap j o now).attempts c = (view j.records j.bytes o).attempts c := rfl

/-! ## Appending -/

/-- The journal has room in every window of the class of a burn `x`. -/
structure WindowRoom (R : List Record) (x : Record) : Prop where
  ordinary : x.recordClass ≠ .hardNATCampaign → OrdinaryRoom
    ((burns R).filter (·.recordClass = .ordinary)) (rebuiltAt R).nanos x.recordedAt.nanos
      x.envelope.packets
  campaign : x.recordClass = .hardNATCampaign →
    afterCutoff (x.recordedAt.nanos - hardNATCampaignWindow)
      ((burns R).filter (·.recordClass = .hardNATCampaign)) = [] ∧
    ((rebuiltAt R).nanos ≠ 0 → (rebuiltAt R).nanos + hardNATCampaignWindow ≤ x.recordedAt.nanos)

/-- **What a call by owner `o` appends**: `x`, as `frame`. -/
structure Written (sha : Sha256) (j : Journal) (o : String) (x : Record) (frame : Bytes) : Prop where
  encoded : encodePairingJournalFrame sha x = .ok frame
  follows : Follows j.records x
  reset : ResetOK j.records o x
  utc : x.expiresAt.isUTC
  kind : x.type = .burnAndAdmit ∨ x.type = .finish ∨ x.type = .circuitReset
  owner : x.type = .burnAndAdmit → x.ownerInstanceID = o
  window : x.type = .burnAndAdmit → WindowRoom j.records x
  records_le : j.records.length + 1 ≤ maxPairingLedgerRecords
  bytes_le : j.bytes + frame.length ≤ maxPairingLedgerBytes

theorem readSnap_clock (h : (readSnap j o now).effectiveNow now.toUTC = .ok t) :
    (highWater j.records).nanos ≤ t.nanos := le_effectiveNow h

theorem ensureRecordCapacity_ok {n : ℕ} (h : s.ensureRecordCapacity n = .ok ()) :
    s.records.length + 1 ≤ maxPairingLedgerRecords ∧ s.bytes + n ≤ maxPairingLedgerBytes := by
  unfold ensureRecordCapacity at h
  split at h
  · cases h
  · omega

theorem ensureAdmissionCapacity_ok {n : ℕ} (h : s.ensureAdmissionCapacity n = .ok ()) :
    s.records.length + 2 ≤ maxPairingLedgerRecords ∧
      s.bytes + n + 4 + maxPairingLedgerFrameBytes ≤ maxPairingLedgerBytes := by
  unfold ensureAdmissionCapacity at h
  split at h
  · cases h
  · omega

/-- **`Admit`** appends a burn of its own for a credential and an attempt id that no burn
has, with room for it in every window. -/
theorem planAdmit_written (h : Readable j o) {request : AdmissionRequest}
    (hp : planAdmit sha (j.read o) o now request = .ok (x, frame)) :
    Written sha j o x frame ∧ x.type = .burnAndAdmit ∧ x.credentialID = request.credentialID ∧
      x.attemptID = request.attemptID ∧ x.recordClass = request.recordClass ∧
      x.contextDigest = request.contextDigest ∧
      j.records.length + 2 ≤ maxPairingLedgerRecords ∧
      j.bytes + frame.length + 4 + maxPairingLedgerFrameBytes ≤ maxPairingLedgerBytes := by
  unfold planAdmit at hp
  simp only [bind_ok_iff, mapError_ok_iff, failIf_ok_iff, h.read_usable, ok.injEq, Prod.mk.injEq] at hp
  obtain ⟨⟨⟩, hreq, s, rfl, t, ht, -, hexp, -, hcr, -, hatt, ⟨⟩, herr, f, henc, ⟨⟩, hcap, rfl,
    rfl⟩ := hp
  have hcl := readSnap_clock ht
  have hli : (readSnap j o now.toUTC).Live := readSnap_live
  have hcap' := ensureAdmissionCapacity_ok hcap
  have hR : (readSnap j o now.toUTC).records = j.records := rfl
  have hB : (readSnap j o now.toUTC).bytes = j.bytes := rfl
  rw [hR, hB] at hcap'
  rw [readSnap_admissions, view_admissions_isSome] at hcr
  rw [readSnap_attempts, view_attempts_isSome] at hatt
  simp only [not_exists, not_and] at hcr hatt
  refine ⟨⟨henc, ⟨rfl, fun _ => hcl, ?_⟩, ?_, rfl, .inl rfl, fun _ => rfl, fun _ => ⟨?_, ?_⟩,
    by omega, by omega⟩, rfl, rfl, rfl, rfl, rfl, by omega, by omega⟩
  · exact ⟨h.ne, hcr, hatt⟩
  · intro hre; cases hre
  · intro hc
    have := admissionError_ordinary hc hli hcl herr
    rw [readSnap_burnsOf] at this
    exact this
  · intro hc
    simp only at hc
    rw [hc] at herr
    have := admissionError_campaign hli hcl herr
    rw [readSnap_burnsOf] at this
    exact this

/-- **`Finish`** appends the finish of an admission that has none, for a receipt of the
calling owner. -/
theorem planFinish_written (h : Readable j o) {receipt : Receipt} {reason : TerminalReason}
    (hp : planFinish sha (j.read o) o now receipt reason = .ok (some (x, frame))) :
    Written sha j o x frame ∧ x.type = .finish ∧ x.credentialID = receipt.credentialID ∧
      x.recordClass = receipt.recordClass ∧ x.reason = reason ∧ receipt.ownerInstanceID = o := by
  unfold planFinish at hp
  simp only [bind_ok_iff, failIf_ok_iff, h.read_usable, ok.injEq] at hp
  obtain ⟨-, hrea, -, how, s, rfl, t, ht, hp⟩ := hp
  have hcl := readSnap_clock ht
  rw [readSnap_admissions, view_admissions] at hp
  rcases hb : (burns j.records).find? (·.credentialID = receipt.credentialID) with _ | b
  · rw [hb] at hp; cases hp
  rw [hb] at hp
  simp only [Option.map_some, bind_ok_iff, failIf_ok_iff] at hp
  obtain ⟨-, hma, hp⟩ := hp
  simp only [not_or, not_not] at hma
  obtain ⟨hseq, hcla, hatt, -⟩ := hma
  have hbR := List.mem_of_find?_eq_some hb
  have hbc : b.credentialID = receipt.credentialID := by simpa using List.find?_some hb
  cases hf : finishOf j.records b.credentialID with
  | some f =>
    rw [hf] at hp
    simp only [bind_ok_iff, ok.injEq, reduceCtorEq, and_false, exists_false] at hp
  | none =>
    rw [hf] at hp
    simp only [bind_ok_iff, mapError_ok_iff, ok.injEq, Option.some.injEq, Prod.mk.injEq] at hp
    obtain ⟨f, henc, ⟨⟩, hcap, rfl, rfl⟩ := hp
    have hcap' := ensureRecordCapacity_ok hcap
    refine ⟨⟨henc, ⟨rfl, fun _ => hcl, ?_⟩, ?_, rfl, .inr (.inl rfl), ?_, ?_,
      hcap'.1, hcap'.2⟩, rfl, rfl, rfl, rfl, not_not.1 how⟩
    · refine ⟨⟨b, hbR, hbc, hatt, hcla⟩, ?_⟩
      rw [hbc] at hf
      simp [Finished, hf]
    · intro hre; cases hre
    · intro hbu; cases hbu
    · intro hbu; cases hbu

def resetRecord (j : Journal) (t : Time) (c : RecordClass) (note : String) : Record where
  sequence := j.records.length + 1
  type := .circuitReset
  recordedAt := t
  recordClass := c
  resetNote := note

theorem written_reset (h : Readable j o) {c : RecordClass}
    (hcl : (highWater j.records).nanos ≤ t.nanos)
    (henc : encodePairingJournalFrame sha (resetRecord j t c note) = .ok frame)
    (hcap : (readSnap j o now).ensureRecordCapacity frame.length = .ok ())
    (hre : ResetOK j.records o (resetRecord j t c note)) :
    Written sha j o (resetRecord j t c note) frame := by
  have hcap' := ensureRecordCapacity_ok hcap
  refine ⟨henc, ⟨rfl, fun _ => hcl, h.ne⟩, hre, rfl, .inr (.inr rfl), ?_, ?_, hcap'.1, hcap'.2⟩
  · intro hbu; cases hbu
  · intro hbu; cases hbu

/-- **`ResetCircuit`** appends a reset of the ordinary class, open in the caller's view for
the horizon at least. -/
theorem planReset_written (h : Readable j o) {expectedSequence : ℕ}
    (hp : planReset sha (j.read o) now expectedSequence note = .ok (x, frame)) :
    Written sha j o x frame ∧ x.type = .circuitReset := by
  unfold planReset at hp
  simp only [bind_ok_iff, mapError_ok_iff, failIf_ok_iff, h.read_usable, ok.injEq, Prod.mk.injEq] at hp
  obtain ⟨-, -, s, rfl, t, ht, -, -, -, hop, -, hhor, f, henc, ⟨⟩, hcap, rfl, rfl⟩ := hp
  have hcl := readSnap_clock ht
  have hli : (readSnap j o now.toUTC).Live := readSnap_live
  have he := effectiveNow_of_le hli hcl
  obtain ⟨h1, h2, h3⟩ := statusAt_circuit he
  have hz : ((readSnap j o now.toUTC).failureState .ordinary).2.nanos ≠ 0 := by
    simp only [h1, Time.isZero_iff, not_or] at hop
    exact hop.2
  have h4 := (h3 (by simpa using hz)).2
  refine ⟨written_reset h hcl henc hcap ?_, rfl⟩
  intro _
  rw [if_neg (by simp [resetRecord])]
  simp only [h4, Time.before_iff, Time.add_nanos, not_lt] at hhor
  rw [readSnap_failureState _ h.chain] at hz hhor
  rw [openedAt_eq h.chain]
  exact ⟨hz, hhor⟩

/-- **`ResetHardNATCampaignCircuit`** appends a reset of the campaign class, open in the
caller's view. -/
theorem planCampaignReset_written (h : Readable j o) {expectedSequence : ℕ}
    (hp : planCampaignReset sha (j.read o) now expectedSequence note = .ok (x, frame)) :
    Written sha j o x frame ∧ x.type = .circuitReset := by
  unfold planCampaignReset at hp
  simp only [bind_ok_iff, mapError_ok_iff, failIf_ok_iff, h.read_usable, ok.injEq, Prod.mk.injEq] at hp
  obtain ⟨-, -, s, rfl, t, ht, -, hop, f, henc, ⟨⟩, hcap, rfl, rfl⟩ := hp
  have hcl := readSnap_clock ht
  have hli : (readSnap j o now.toUTC).Live := readSnap_live
  have he := effectiveNow_of_le hli hcl
  obtain ⟨h1, -⟩ := campaignStatusAt_circuit he
  have hz : ((readSnap j o now.toUTC).failureState .hardNATCampaign).2.nanos ≠ 0 := by
    simp only [h1, Time.isZero_iff, not_or] at hop
    exact hop.2.2
  refine ⟨written_reset h hcl henc hcap ?_, rfl⟩
  intro _
  rw [readSnap_failureState _ h.chain] at hz
  rw [if_pos (by simp [resetRecord]), openedAt_eq h.chain]
  exact hz

end Winkyou
