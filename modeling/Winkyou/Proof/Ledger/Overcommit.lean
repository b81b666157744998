import Winkyou.Proof.Ledger.Capacity

/-!
# Admissions that use up the reserve of others

One owner admits a credential a day and finishes none. Every admission passes
`ensureAdmissionCapacity`, which reserves one terminal record whatever the number of
outstanding admissions. After 4096 days the terminal records of all of them do not fit
any more, so a `Finish` of one of them runs out of capacity on the way.

* `finish_capacity_reachable`: a legal `Finish` of an outstanding admission can fail for
  lack of capacity.
-/

namespace Winkyou

namespace Overcommit

open LateSuccess (base envelope digest ownerA)
open Snapshot Except
open Except (bind_error_iff bind_ok_iff failIf_ok_iff mapError_ok_iff)
open List

/-! ## The run -/

def idBytes (k : ℕ) : Bytes := UInt8.ofNat (k / 256) :: UInt8.ofNat (k % 256) :: replicate 14 0

def opaqueID (k : ℕ) : String := String.ofList (base64Encode (idBytes k))

def day (n : ℕ) : Time := base.add (n * (24 * hour))

def request (n : ℕ) : AdmissionRequest :=
  ⟨.ordinary, opaqueID (2 * n), opaqueID (2 * n + 1), digest, .machine, (day (n + 1)).add minute,
    envelope⟩

/-- The admission of day `n + 1`. -/
def burn (n : ℕ) : Record where
  sequence := n + 2
  type := .burnAndAdmit
  recordedAt := day (n + 1)
  credentialID := opaqueID (2 * n)
  attemptID := opaqueID (2 * n + 1)
  contextDigest := digest
  ownerInstanceID := ownerA
  scope := .machine
  expiresAt := (day (n + 1)).add minute
  envelope := envelope

def receipt (n : ℕ) : Receipt :=
  ⟨n + 2, .ordinary, opaqueID (2 * n), opaqueID (2 * n + 1), digest, ownerA, day (n + 1)⟩

/-- The finish of admission `k`, after `n` admissions and `k` finishes. -/
def finish (n k : ℕ) : Record where
  sequence := n + k + 2
  type := .finish
  recordedAt := day n
  credentialID := opaqueID (2 * k)
  attemptID := opaqueID (2 * k + 1)
  reason := .success

/-- The journal after `n` admissions and then `k` finishes. -/
def records (n k : ℕ) : List Record :=
  firstRecord base false :: ((range n).map burn ++ (range k).map (finish n))

/-- **A stage of the run**: `n` admissions, and then `k` finishes. -/
structure Stage (n k : ℕ) (w : World Journal) : Prop where
  reachable : World.Reachable zeroSha w
  owner : w.owner = ownerA
  records : w.journal.records = records n k
  receipts : ∀ i < n, receipt i ∈ w.receipts

/-! ## Its records -/

theorem opaqueID_valid (field : String) (k : ℕ) :
    validatePairingOpaqueID field (opaqueID k) = .ok () :=
  validatePairingOpaqueID_encode (by simp [idBytes]) field

variable {k n : ℕ}

theorem opaqueID_inj {l : ℕ} (hk : k < 65536) (hl : l < 65536) (h : opaqueID k = opaqueID l) :
    k = l := by
  have h1 : base64Encode (idBytes k) = base64Encode (idBytes l) := String.ofList_injective h
  have h2 := congrArg base64Decode h1
  simp only [base64Decode_encode, Option.some.injEq, idBytes, cons.injEq, and_true] at h2
  have h3 := congrArg UInt8.toNat h2.1
  have h4 := congrArg UInt8.toNat h2.2
  simp only [UInt8.toNat_ofNat'] at h3 h4
  omega

theorem opaqueID_length (k : ℕ) : (opaqueID k).toList.length = 22 := by
  simp [opaqueID, idBytes, base64Encode, replicate]

theorem day_nanos (n : ℕ) : (day n).nanos = 63900000000000000000 + n * 86400000000000 := by
  simp only [day, base, Time.add_nanos, second, hour, minute, millisecond]
  ring

/-- The days of the run can be written. -/
theorem marshalTime_day (hn : n ≤ 8192) : ∃ text, marshalTime (day n) = .ok text := by
  apply marshalTime_ok
  · rw [day_nanos]; omega
  · rw [day_nanos]; simp only [hour, minute, second, millisecond]; omega

theorem request_valid (hn : n < 4096) : validatePairingAdmissionRequest (request n) = .ok () := by
  have hne : opaqueID (2 * n) ≠ opaqueID (2 * n + 1) := by
    intro h
    have := opaqueID_inj (by omega) (by omega) h
    omega
  have hd : (hexDecode digest.toList).any (fun d => d.length == 32 &&
    hexEncode d == digest.toList) = true := by
    decide +kernel
  have henv : validatePairingEnvelope envelope = .ok () := by decide +kernel
  have hz : ((day (n + 1)).add minute).nanos ≠ 0 := by
    rw [Time.add_nanos, day_nanos]
    simp only [minute, second, millisecond]
    omega
  have hord : ¬ (request n).recordClass = .hardNATCampaign := by simp [request]
  simp only [validatePairingAdmissionRequest, bind_ok_iff, failIf_ok_iff, hord, if_false]
  exact ⟨(), by simp [request, RecordClass.valid], (), by simp [request], (), opaqueID_valid .., (),
    opaqueID_valid .., (), hne, (), not_not.2 hd, (), by simpa [request, Time.add, day,
    base] using hz, henv⟩

theorem burn_encodes (hn : n < 4096) :
    ∃ frame, encodePairingJournalFrame zeroSha (burn n) = .ok frame := by
  have hreq := request_valid hn
  have hown : validatePairingOwnerInstanceID ownerA = .ok () := by decide +kernel
  have hday := day_nanos (n + 1)
  apply encode_ok
  · have hz : (burn n).recordedAt.nanos ≠ 0 := by simp only [burn, hday]; omega
    simp only [validatePairingJournalRecord, bind_ok_iff, failIf_ok_iff]
    refine ⟨(), by simp [burn], (), by simp [burn], (), ?_, ?_⟩
    · simpa [Time.add, day, base, burn] using hz
    · have hty : (burn n).type = .burnAndAdmit := rfl
      simp only [validateRecordFields, hty, bind_ok_iff, failIf_ok_iff]
      refine ⟨(), hreq, (), hown, (), ?_, by simp [burn]⟩
      refine not_or.2 ⟨?_, ?_⟩
      · simp [burn, minute, second, millisecond]
      · simp [burn, Time.sub, pairingCredentialMaxLifetime, minute, second, millisecond]
  · exact marshalTime_day (by omega)
  · apply marshalTime_ok
    · simp only [burn, Time.add_nanos, hday, minute, second, millisecond]; omega
    · simp only [burn, Time.add_nanos, hday, hour, minute, second, millisecond]; omega
  · simp only [burn]; omega
  · simp only [burn]; decide +kernel
  · simp only [Record.textLength, burn, opaqueID_length]
    decide +kernel

theorem finish_encodes (hn : n ≤ 4096) (hk : k < n) :
    ∃ frame, encodePairingJournalFrame zeroSha (finish n k) = .ok frame := by
  have hday := day_nanos n
  apply encode_ok
  · have hz : (finish n k).recordedAt.nanos ≠ 0 := by simp only [finish, hday]; omega
    simp only [validatePairingJournalRecord, bind_ok_iff, failIf_ok_iff]
    refine ⟨(), by simp [finish], (), by simp [finish], (), ?_, ?_⟩
    · simpa [Time.add, day, base, finish] using hz
    · have hty : (finish n k).type = .finish := rfl
      simp only [validateRecordFields, hty, bind_ok_iff, failIf_ok_iff]
      exact ⟨(), by simp [finish, RecordClass.valid], (), opaqueID_valid .., (), opaqueID_valid ..,
        (), by simp [finish, TerminalReason.valid], by simp [finish, Record.noAdmissionFields]⟩
  · exact marshalTime_day (by omega)
  · exact marshalTime_ok (by simp [finish]) (by simp only [finish]; decide)
  · simp only [finish]; omega
  · simp only [finish]; decide +kernel
  · simp only [Record.textLength, finish, opaqueID_length]
    decide +kernel

/-! ## The journal of a stage -/

/-- The admissions of the run, whatever was finished. -/
theorem burns_records (n k : ℕ) : burns (records n k) = (range n).map burn := by
  have h1 : ∀ l : List ℕ, burns (l.map burn) = l.map burn := by
    intro l
    exact filter_eq_self.2 (by simp [burn])
  have h2 : ∀ l : List ℕ, burns (l.map (finish n)) = [] := by
    intro l
    exact filter_eq_nil_iff.2 (by simp [finish])
  have h3 : burns [firstRecord base false] = [] := rfl
  rw [records, ← singleton_append, burns_append, burns_append, h1, h2, h3]
  simp

theorem mem_records {r : Record} (h : r ∈ records n k) :
    r = firstRecord base false ∨ (∃ i < n, r = burn i) ∨ ∃ i < k, r = finish n i := by
  simp only [records, mem_cons, mem_append, mem_map, mem_range] at h
  rcases h with h | ⟨i, hi, rfl⟩ | ⟨i, hi, rfl⟩
  · exact .inl h
  · exact .inr (.inl ⟨i, hi, rfl⟩)
  · exact .inr (.inr ⟨i, hi, rfl⟩)

theorem recordedAt_le {r : Record} (h : r ∈ records n k) : r.recordedAt.nanos ≤ (day n).nanos := by
  rcases mem_records h with rfl | ⟨i, hi, rfl⟩ | ⟨i, hi, rfl⟩
  · rw [day_nanos]
    simp only [firstRecord, base, Time.toUTC_nanos, second, millisecond]
    omega
  · simp only [burn, day_nanos]
    omega
  · exact le_rfl

theorem highWater_records (n k : ℕ) : (highWater (records n k)).nanos ≤ (day n).nanos :=
  highWater_le_iff.2 ⟨by rw [day_nanos]; omega, fun _ hr => recordedAt_le hr⟩

theorem rebuiltAt_records (n k : ℕ) : (rebuiltAt (records n k)).nanos = 0 := by
  have h : ∀ R : List Record, (∀ r ∈ R, r.type ≠ .rebuildBaseline) → rebuiltAt R = .zero := by
    intro R
    induction R using reverseRecOn with
    | nil => intro _; rfl
    | append_singleton R x ih =>
      intro hR
      rw [rebuiltAt_concat, if_neg (hR x (by simp))]
      exact ih fun r hr => hR r (by simp [hr])
  rw [h]
  · rfl
  · intro r hr
    rcases mem_records hr with rfl | ⟨i, -, rfl⟩ | ⟨i, -, rfl⟩ <;> simp [firstRecord, burn, finish]

/-- The owner's own pending admissions do not count: its circuit stays closed. -/
theorem circuit_records (n : ℕ) : (circuit .ordinary (records n 0) ownerA).2 = 0 := by
  have h1 : outcomes .ordinary (records n 0) = [] := by
    refine filter_eq_nil_iff.2 fun r hr => ?_
    rcases mem_records (mem_classTail hr).1 with rfl | ⟨i, -, rfl⟩ | ⟨i, hi, rfl⟩
    · simp [firstRecord]
    · simp [burn]
    · omega
  have h2 : deadBurns .ordinary (records n 0) ownerA = [] := by
    refine filter_eq_nil_iff.2 fun r hr => ?_
    have hb := (mem_pendingBurns hr).1
    rw [burns_records] at hb
    obtain ⟨i, -, rfl⟩ := mem_map.1 hb
    have hne : ownerA ≠ "" := by decide
    simp [Foreign, burn, hne]
  rw [circuit, h1, h2]
  rfl

section Reading

variable {n k : ℕ} {j : Journal} {o : String} (hj : j.records = records n k)

include hj

theorem readSnap_effectiveNow {t now : Time} (ht : (day n).nanos ≤ t.nanos) :
    (readSnap j o now).effectiveNow t = .ok t.toUTC := by
  have hw : (highWater j.records).nanos ≤ t.nanos := by
    rw [hj]
    exact le_trans (highWater_records n k) ht
  exact effectiveNow_of_le readSnap_live hw

theorem records_length : j.records.length = n + k + 1 := by
  rw [hj]
  simp [records]

theorem burnsOf_le (now : Time) :
    ∀ b ∈ Snapshot.burnsOf .ordinary (readSnap j o now).admissionOrder,
    b.recordedAt.nanos ≤ (day n).nanos := by
  intro b hb
  rw [readSnap_burnsOf] at hb
  have hb' := (mem_burns.1 (mem_of_mem_filter hb)).1
  rw [hj] at hb'
  exact recordedAt_le hb'

/-- What a status read at the last day or later says about the journal. -/
theorem readSnap_status {now : Time} (ht : (day n).nanos ≤ now.nanos) :
    (readSnap j o now).status.records = j.records.length ∧ (readSnap j o now).status.bytes = j.bytes ∧
    (readSnap j o now).status.lastAdmissionAt.nanos ≤ (day n).nanos ∧
    (readSnap j o now).status.state ≠ .clockRollback := by
  have hw : (highWater j.records).nanos ≤ now.nanos := by
    rw [hj]
    exact le_trans (highWater_records n k) ht
  have he : (snapshotOf j.records j.bytes o).effectiveNow now = .ok now.toUTC :=
    effectiveNow_of_le snapshotOf_live hw
  have hz : (snapshotOf j.records j.bytes o).rebuildAt.nanos = 0 := by
    show (rebuiltAt j.records).nanos = 0
    rw [hj]
    exact rebuiltAt_records n k
  have h0 : (0 : ℤ) ≤ (day n).nanos := by rw [day_nanos]; omega
  obtain ⟨state, blocks, detail, heq, hsta⟩ := statusAt_cases he
  have hst : (readSnap j o now).status = (snapshotOf j.records j.bytes o).statusAt now := rfl
  rw [hst, heq, windowStatus, setNextAdmission_eq, foldl_windowStep, chargeRebuild,
    if_pos (Time.isZero_iff.2 hz)]
  refine ⟨rfl, rfl, latest_le_iff.2 ⟨h0, burnsOf_le (o := o) hj now⟩, ?_⟩
  rcases hsta with ⟨-, rfl⟩ | ⟨-, ⟨-, rfl⟩ | rfl | rfl⟩ <;> simp

end Reading

/-! ## One more admission, one more finish -/

variable {n k : ℕ} {w : World Journal}

theorem Stage.ok (h : Stage n k w) : WorldOK w := reachable_ok h.reachable

theorem planAdmit_stage (h : Stage n 0 w) (hn : n < 4096)
    (hcap : w.journal.bytes + 2 * terminalFrameBytes ≤ maxPairingLedgerBytes) :
    ∃ frame, planAdmit zeroSha (w.journal.read w.owner) w.owner (day (n + 1))
      (request n) = .ok (burn n, frame) := by
  obtain ⟨frame, henc⟩ := burn_encodes hn
  have hlen := (encode_length henc).2
  have hre := h.ok.readable_owner
  have hla : (day n).nanos ≤ (day (n + 1)).nanos := by rw [day_nanos, day_nanos]; push_cast; omega
  obtain ⟨s1, s2, s3, -⟩ := readSnap_status (o := w.owner) h.records (show _ ≤
    (day (n + 1)).toUTC.nanos from hla)
  have hseq : (readSnap w.journal w.owner (day (n + 1)).toUTC).sequence = n + 1 :=
    records_length h.records
  have hids : ∀ b ∈ burns w.journal.records, ∃ i < n, b = burn i := by
    intro b hb
    rw [h.records, burns_records] at hb
    obtain ⟨i, hi, rfl⟩ := mem_map.1 hb
    exact ⟨i, mem_range.1 hi, rfl⟩
  refine ⟨frame, ?_⟩
  unfold planAdmit
  simp only [bind_ok_iff, mapError_ok_iff, failIf_ok_iff, hre.read_usable, ok.injEq, Prod.mk.injEq]
  refine ⟨(), request_valid hn, _, rfl, (day (n + 1)), readSnap_effectiveNow h.records hla, (), ?_,
    (), ?_, (), ?_, (), ?_, frame, ?_, (), ?_, ?_, rfl⟩
  · simp [request, minute, second, millisecond]
  · rw [readSnap_admissions, view_admissions_isSome]
    rintro ⟨b, hb, hc⟩
    obtain ⟨i, hi, rfl⟩ := hids b hb
    have := opaqueID_inj (by omega) (by omega) hc
    omega
  · rw [readSnap_attempts, view_attempts_isSome]
    rintro ⟨b, hb, hc⟩
    obtain ⟨i, hi, rfl⟩ := hids b hb
    have := opaqueID_inj (by omega) (by omega) hc
    omega
  · have hrec := records_length h.records
    have hmax : maxPairingLedgerRecords = 8192 := rfl
    have hte : terminalFrameBytes = 16388 := rfl
    refine admissionError_of_idle readSnap_live ?_ ?_ ?_ s3 (burnsOf_le h.records _) ?_
      (by rw [s1]; omega) (by rw [s2]; omega) (show envelope.packets ≤ _ by decide)
    · have := highWater_records n 0
      rw [← h.records] at this
      exact le_trans this hla
    · have := rebuiltAt_records n 0
      rw [← h.records] at this
      exact this
    · rw [readSnap_failureState _ hre.chain, h.records, h.owner]
      exact circuit_records n
    · rw [day_nanos, day_nanos]
      simp only [pairingAdmissionDayWindow, hour, minute, second, millisecond]
      push_cast
      omega
  · rw [hseq, h.owner]
    exact henc
  · have hR : (readSnap w.journal w.owner (day (n + 1)).toUTC).records = w.journal.records := rfl
    have hB : (readSnap w.journal w.owner (day (n + 1)).toUTC).bytes = w.journal.bytes := rfl
    have hrec := records_length h.records
    unfold ensureAdmissionCapacity
    rw [hR, hB, if_neg]
    simp only [terminalFrameBytes, maxPairingLedgerRecords, maxPairingLedgerFrameBytes] at hcap hlen ⊢
    omega
  · rw [hseq, h.owner]
    rfl

theorem records_burn (n : ℕ) : records n 0 ++ [burn n] = records (n + 1) 0 := by
  simp [records, range_succ]

theorem records_finish (n k : ℕ) : records n k ++ [finish n k] = records n (k + 1) := by
  simp [records, range_succ]

theorem verifyAdmit_stage {j : Journal} (hr : Readable j ownerA)
    (hj : j.records = records (n + 1) 0) :
    verifyAdmit (j.read ownerA (day (n + 1))) (burn n) ownerA (request n) = .ok (receipt n) := by
  obtain ⟨-, -, -, hs⟩ := readSnap_status (o := ownerA) hj (le_refl (day (n + 1)).nanos)
  have hb : burn n ∈ burns j.records := by
    rw [hj, burns_records]
    exact mem_map_of_mem (mem_range.2 (Nat.lt_succ_self n))
  have hfi : (readSnap j ownerA (day (n + 1))).admissions (request n).credentialID =
      some ⟨burn n, finishOf j.records (burn n).credentialID⟩ := by
    rw [readSnap_admissions, view_admissions]
    have := hr.chain.find_burn hb
    rw [show (request n).credentialID = (burn n).credentialID from rfl, this]
    rfl
  rw [hr.read_eq, if_neg hs]
  simp only [verifyAdmit, hfi]
  rfl

/-- **One more admission**, while the journal has room for two more frames. -/
theorem stage_admits (h : Stage n 0 w) (hn : n < 4096)
    (hcap : w.journal.bytes + 2 * terminalFrameBytes ≤ maxPairingLedgerBytes) :
    ∃ w', Stage (n + 1) 0 w' ∧ w'.journal.bytes ≤ w.journal.bytes + terminalFrameBytes := by
  obtain ⟨frame, hpl⟩ := planAdmit_stage h hn hcap
  have hlen := (encode_length (planAdmit_written h.ok.readable_owner hpl).1.encoded).2
  let a : Action Bool := .admitRequest (day (n + 1)) (request n) true
  have hre : World.Reachable zeroSha (w.act journalStorage zeroSha a) := .act a h.reachable trivial
  have hj : (w.act journalStorage zeroSha a).journal = w.journal.append (burn n) frame := by
    rw [act_journal]
    simp [a, World.appends, Action.plan, hpl, Except.toOption]
  have hrec : (w.journal.append (burn n) frame).records = records (n + 1) 0 := by
    rw [Journal.append, h.records, records_burn]
  have hread : Readable (w.journal.append (burn n) frame) ownerA := by
    have := (reachable_ok hre).readable_owner
    rw [hj] at this
    exact h.owner ▸ this
  have hq : (w.act journalStorage zeroSha a).receipts = receipt n :: w.receipts := by
    have hver := verifyAdmit_stage hread hrec
    have hpl' : planAdmit zeroSha (journalStorage.read w.journal ownerA) ownerA (day (n + 1))
      (request n) =
      .ok (burn n, frame) := h.owner ▸ hpl
    have happ : journalStorage.append w.journal true (burn n) frame =
      (w.journal.append (burn n) frame, true) :=
      rfl
    have hv : verifyAdmit (journalStorage.read (w.journal.append (burn n) frame) ownerA
      (burn n).recordedAt)
      (burn n) ownerA (request n) = .ok (receipt n) := hver
    simp only [World.act, Storage.admitRequest, a, h.owner, hpl', happ, hv]
  refine ⟨_, ⟨hre, h.owner, by rw [hj]; exact hrec, ?_⟩, ?_⟩
  · intro i hi
    rw [hq]
    rcases Nat.lt_succ_iff_lt_or_eq.1 hi with hi | rfl
    · exact mem_cons_of_mem _ (h.receipts i hi)
    · exact mem_cons_self
  · rw [hj]
    simp only [Journal.append, terminalFrameBytes]
    omega

section

variable (h : Stage n k w) (hn : n ≤ 4096) (hk : k < n)

include h hn hk

theorem Stage.pending :
    burn k ∈ burns w.journal.records ∧ ¬ Finished w.journal.records (burn k).credentialID := by
  constructor
  · rw [h.records, burns_records]
    exact mem_map_of_mem (mem_range.2 hk)
  · intro hfin
    obtain ⟨f, hf, hft, hfc⟩ := finished_iff.1 hfin
    rw [h.records] at hf
    rcases mem_records hf with rfl | ⟨i, -, rfl⟩ | ⟨i, hi, rfl⟩
    · cases hft
    · cases hft
    · have := opaqueID_inj (by omega) (by omega) hfc
      omega

variable (hcap : ∀ status, planFinish zeroSha (w.journal.read w.owner) w.owner (day n) (receipt k)
  .success ≠
  .error (.ledger status .capacity))

include hcap

/-- The next finish either passes the capacity check or fails with its error. -/
theorem planFinish_stage :
    ∃ frame, planFinish zeroSha (w.journal.read w.owner) w.owner (day n) (receipt k) .success =
      .ok (some (finish n k, frame)) := by
  obtain ⟨frame, henc⟩ := finish_encodes hn hk
  have hre := h.ok.readable_owner
  have hnow : (readSnap w.journal w.owner (day n).toUTC).effectiveNow (day n).toUTC = .ok (day n) :=
    readSnap_effectiveNow h.records le_rfl
  have hseq : (readSnap w.journal w.owner (day n).toUTC).sequence = n + k + 1 :=
    records_length h.records
  obtain ⟨hb, hnf⟩ := h.pending hn hk
  have hnf' : finishOf w.journal.records (burn k).credentialID = none := by simpa [Finished] using hnf
  have hfi : (readSnap w.journal w.owner (day n).toUTC).admissions (receipt k).credentialID =
      some ⟨burn k, none⟩ := by
    rw [readSnap_admissions, view_admissions,
      show (receipt k).credentialID = (burn k).credentialID from rfl,
      hre.chain.find_burn hb, Option.map_some, hnf']
  have henc' : encodePairingJournalFrame zeroSha {
      sequence := n + k + 1 + 1, type := .finish, recordedAt := day n, recordClass :=
        (receipt k).recordClass
      credentialID := (receipt k).credentialID, attemptID := (receipt k).attemptID, reason :=
        .success } = .ok frame := henc
  have hown : ¬ (receipt k).ownerInstanceID ≠ w.owner := by
    rw [h.owner]
    exact not_not.2 rfl
  have hma : ¬ ((burn k).sequence ≠ (receipt k).sequence ∨
    (burn k).recordClass ≠ (receipt k).recordClass ∨
      (burn k).attemptID ≠ (receipt k).attemptID ∨
        (burn k).contextDigest ≠ (receipt k).contextDigest) := by
    simp [burn, receipt]
  refine ⟨frame, ?_⟩
  cases hc : (readSnap w.journal w.owner (day n).toUTC).ensureRecordCapacity frame.length with
  | ok u =>
    unfold planFinish
    simp only [bind_ok_iff, failIf_ok_iff, hre.read_usable, ok.injEq]
    refine ⟨(), by decide, (), hown, _, rfl, day n, hnow, ?_⟩
    simp only [hfi, bind_ok_iff, failIf_ok_iff, mapError_ok_iff, hseq]
    exact ⟨(), hma, frame, henc', (), hc, rfl⟩
  | error e =>
    exfalso
    obtain ⟨status, rfl⟩ : ∃ status, e = .ledger status .capacity := by
      unfold ensureRecordCapacity at hc
      split at hc
      · exact ⟨_, (error.inj hc).symm⟩
      · cases hc
    refine hcap status ?_
    unfold planFinish
    simp only [bind_error_iff, failIf_ok_iff, hre.read_usable, ok.injEq]
    refine .inr ⟨(), by decide, .inr ⟨(), hown, .inr ⟨_, rfl, .inr ⟨day n, hnow, ?_⟩⟩⟩⟩
    simp only [hfi, bind_error_iff, failIf_ok_iff, mapError_ok_iff, hseq]
    exact .inr ⟨(), hma, .inr ⟨frame, henc', .inl hc⟩⟩

/-- **One more finish**, unless it fails for lack of capacity. -/
theorem stage_finish : ∃ w', Stage n (k + 1) w' ∧ w.journal.bytes + 200 ≤ w'.journal.bytes := by
  obtain ⟨frame, hpl⟩ := planFinish_stage h hn hk hcap
  have hlen := encode_length_ge (planFinish_written h.ok.readable_owner hpl).1.encoded
  let a : Action Bool := .finish (day n) (receipt k) .success true
  have hre : World.Reachable zeroSha (w.act journalStorage zeroSha a) :=
    .act a h.reachable (h.receipts k hk)
  have hj : (w.act journalStorage zeroSha a).journal = w.journal.append (finish n k) frame := by
    rw [act_journal]
    simp [a, World.appends, Action.plan, hpl, Except.toOption]
  refine ⟨_, ⟨hre, h.owner, ?_, h.receipts⟩, ?_⟩
  · rw [hj, Journal.append, h.records, records_finish]
  · rw [hj]
    simp only [Journal.append]
    omega

end

/-! ## The ceiling -/

/-- No `Finish` of an outstanding admission, with its receipt, fails for lack of capacity. -/
def FinishNeverFull : Prop :=
  ∀ w, World.Reachable zeroSha w → ∀ b ∈ outstanding w.journal.records, ∀ q ∈ w.receipts,
    q.credentialID = b.credentialID → ∀ now reason status,
      planFinish zeroSha (w.journal.read w.owner) w.owner now q reason ≠
      .error (.ledger status .capacity)

/-- If no finish fails, all admissions of a stage can be finished one after the other. -/
theorem stage_finish_all (hall : FinishNeverFull) (h : Stage n 0 w) (hn : n ≤ 4096) (hk : k ≤ n) :
    ∃ w', Stage n k w' ∧ w.journal.bytes + k * 200 ≤ w'.journal.bytes := by
  induction k with
  | zero => exact ⟨w, h, by simp⟩
  | succ k ih =>
    obtain ⟨w', h', hb⟩ := ih (by omega)
    have hb : burn k ∈ outstanding w'.journal.records := by
      obtain ⟨h1, h2⟩ := h'.pending hn (by omega)
      exact mem_filter.2 ⟨h1, by simpa using h2⟩
    obtain ⟨w'', h'', hb'⟩ := stage_finish h' hn (by omega)
      fun status => hall w' h'.reachable _ hb _ (h'.receipts k (by omega)) rfl _ _ status
    exact ⟨w'', h'', by omega⟩

theorem stage_room (hall : FinishNeverFull) (h : Stage n 0 w) (hn : n ≤ 4096) :
    2 * n + 1 ≤ maxPairingLedgerRecords ∧ w.journal.bytes + n * 200 ≤ maxPairingLedgerBytes := by
  obtain ⟨w', h', hb⟩ := stage_finish_all hall h hn le_rfl
  have h1 := h'.ok.records_le
  have h2 := h'.ok.bytes_le
  rw [records_length h'.records] at h1
  omega

theorem stage_reached (hall : FinishNeverFull) (hn : n ≤ 4096) :
    ∃ w, Stage n 0 w ∧ w.journal.bytes ≤ (n + 1) * terminalFrameBytes := by
  induction n with
  | zero =>
    exact ⟨LateSuccess.start, ⟨LateSuccess.start_reachable, rfl, rfl, by simp⟩, by decide +kernel⟩
  | succ n ih =>
    obtain ⟨w, h, hb⟩ := ih (by omega)
    have hro := (stage_room hall h (by omega)).2
    have hcap : w.journal.bytes + 2 * terminalFrameBytes ≤ maxPairingLedgerBytes := by
      simp only [terminalFrameBytes, maxPairingLedgerFrameBytes, maxPairingLedgerBytes] at hb hro ⊢
      omega
    obtain ⟨w', h', hb'⟩ := stage_admits h (by omega) hcap
    exact ⟨w', h', by rw [Nat.add_mul _ 1]; omega⟩

end Overcommit

/-- **A `Finish` can run out of capacity**: one owner, each of whose admissions passed the
capacity check of `Admit`, reaches a world in which the finish of an outstanding one fails. -/
theorem finish_capacity_reachable : ∃ w, World.Reachable zeroSha w ∧
    ∃ b ∈ outstanding w.journal.records, ∃ q ∈ w.receipts, q.credentialID = b.credentialID ∧
    ∃ now reason status, planFinish zeroSha (w.journal.read w.owner) w.owner now q reason =
      .error (.ledger status .capacity) := by
  by_contra hcon
  have hall : Overcommit.FinishNeverFull := by
    intro w hw b hb q hq hqb now reason status hp
    exact hcon ⟨w, hw, b, hb, q, hq, hqb, now, reason, status, hp⟩
  obtain ⟨w, h, -⟩ := Overcommit.stage_reached hall le_rfl
  have := (Overcommit.stage_room hall h le_rfl).1
  simp only [maxPairingLedgerRecords] at this
  omega

end Winkyou
