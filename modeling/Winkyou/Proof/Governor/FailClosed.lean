import Winkyou.Proof.Governor.Forced
import Winkyou.Proof.Governor.TripDecoder

/-!
# The safety latch is fail-closed

Trips and resets may stop after any write. `safety_latch_fail_closed`: the status is not blocking
only when the last latch write was that of the initialisation or that of a reset which named the
stored trip and had written its clear record; the sequence of the stored record never decreases, as
long as no reset finds `2^64 - 1` stored; and a governor that is tripped grants nothing any more.

* `run_effect`: the writes of a call that took effect, and the file they leave.
* `Holds`: the file is a latch, the payload of a record, and what is left of an older payload.
* `sequence_wraps`: the reset of the trip with sequence `2^64 - 1` writes the sequence `0`.
-/

namespace Winkyou.TripStore

open Transition List Except Bool
open SafetyTripState (noConfusion)
open Disk (write)
open Except (bind_error_iff bind_ok_iff failIf_error_iff failIf_ok_iff mapError_ok_iff)

variable {sha : Sha256} {json : EnvelopeDecoder} {file data rest tail payload : Bytes}
  {r : SafetyTripRecord} {latch : UInt8} {d : Disk} {op : Op} {n : ℕ}
  {s : Governor.State} {history : List Performed}

/-! ## Reading -/

theorem statusOf_open (h : (statusOf latch r).blocksActiveWork = false) :
    latch = safetyTripLatchClear ∧ r.state = .clear ∧
      statusOf latch r = { state := .clear, record := r } := by
  unfold statusOf at h ⊢
  split at h
  · rename_i hcl
    exact ⟨hcl.1, hcl.2, if_pos hcl⟩
  · split at h
    · exact absurd h Bool.noConfusion
    · exact absurd h Bool.noConfusion

theorem statusOf_tripped (h : (statusOf latch r).state = .tripped) :
    latch = safetyTripLatchTripped ∧ (statusOf latch r).record = r := by
  unfold statusOf at h ⊢
  split at h
  · exact absurd h noConfusion
  rename_i hnot
  split at h
  · rename_i htri
    exact ⟨htri.1, by rw [if_neg hnot, if_pos htri]⟩
  · exact absurd h noConfusion

theorem readLocked_cases (data : Bytes) :
    (∃ detail, readLocked sha json data = indeterminate detail) ∨
    ∃ latch rest record, data = latch :: rest ∧ decodeSafetyTripRecord sha json rest = .ok record ∧
      readLocked sha json data = statusOf latch record := by
  unfold readLocked
  split
  · exact .inl ⟨_, rfl⟩
  rename_i hre
  split
  · exact .inl ⟨_, rfl⟩
  · rename_i record hdec
    simp only [readSafetyTripFile, bind_ok_iff, failIf_ok_iff, ok.injEq] at hre
    obtain ⟨-, hlen, -, -, rfl⟩ := hre
    cases data with
    | nil => exact absurd (show ([] : Bytes).length < 2 by decide) hlen
    | cons latch rest => exact .inr ⟨latch, rest, record, rfl, hdec, rfl⟩

/-- **A status that does not block** has the clear latch and a clear record. -/
theorem readLocked_open (h : (readLocked sha json data).blocksActiveWork = false) :
    ∃ rest record, data = safetyTripLatchClear :: rest ∧
      decodeSafetyTripRecord sha json rest = .ok record ∧
      record.state = .clear ∧ readLocked sha json data = { state := .clear, record } := by
  rcases @readLocked_cases sha json data with ⟨detail, hre⟩ | ⟨latch, rest, record, rfl, hdec, hre⟩
  · rw [hre] at h
    exact absurd h Bool.noConfusion
  · rw [hre] at h ⊢
    obtain ⟨rfl, hcl, hsta⟩ := statusOf_open h
    exact ⟨rest, record, rfl, hdec, hcl, hsta⟩

theorem readLocked_tripped (h : (readLocked sha json data).state = .tripped) :
    ∃ rest record, data = safetyTripLatchTripped :: rest ∧ decodeSafetyTripRecord sha json rest =
      .ok record ∧ (readLocked sha json data).record = record := by
  rcases @readLocked_cases sha json data with ⟨detail, hre⟩ | ⟨latch, rest, record, rfl, hdec, hre⟩
  · rw [hre] at h
    exact absurd h noConfusion
  · rw [hre] at h ⊢
    obtain ⟨rfl, hrec⟩ := statusOf_tripped h
    exact ⟨rest, record, rfl, hdec, hrec⟩

/-! ## Writing -/

variable {value : UInt8} {done : List Write}

@[simp] theorem apply_latch : (Write.latch value).apply (latch :: rest) = value :: rest := by
  simp [Write.apply, writeAt]

@[simp] theorem apply_record :
    (Write.record payload).apply (latch :: rest) = latch :: (payload ++ rest.drop payload.length) := by
  simp [Write.apply, writeAt, Nat.add_comm 1]

@[simp] theorem apply_truncate :
    (Write.truncate (1 + payload.length)).apply (latch :: (payload ++ tail)) = latch :: payload := by
  simp [Write.apply, Nat.add_comm 1]

/-- The steps of `writeSafetyTripRecord` that took effect, and what they leave behind the latch. -/
inductive Stores (payload rest : Bytes) : List Write → Bytes → Prop
  | record : Stores payload rest [.record payload] (payload ++ rest.drop payload.length)
  | truncated : Stores payload rest [.record payload, .truncate (1 + payload.length)] payload

/-- What a call on a file does: its writes that took effect, and the file they leave. -/
inductive Effect (sha : Sha256) (json : EnvelopeDecoder) : Bytes → Op → List Write → Bytes → Prop
  | idle {file : Bytes} {op : Op} : Effect sha json file op [] file
  | tripLatch {event occurredAt now record} {rest : Bytes}
      (hread : decodeSafetyTripRecord sha json rest = .ok record) :
      Effect sha json (safetyTripLatchClear :: rest) (.trip event occurredAt now)
        [.latch safetyTripLatchTripped]
        (safetyTripLatchTripped :: rest)
  | tripRecord {event occurredAt now record time} {rest payload data : Bytes} {steps : List Write}
      (hread : decodeSafetyTripRecord sha json rest = .ok record)
      (hencode : encodeSafetyTripRecord sha (tripRecord record event time) = .ok payload)
      (hstores : Stores payload rest steps data) :
      Effect sha json (safetyTripLatchClear :: rest) (.trip event occurredAt now)
        (.latch safetyTripLatchTripped :: steps) (safetyTripLatchTripped :: data)
  | resetRecord {note buildVersion now record} {rest payload data : Bytes} {steps : List Write}
      (hread : decodeSafetyTripRecord sha json rest = .ok record)
      (hencode : encodeSafetyTripRecord sha (clearRecord record note buildVersion now) = .ok payload)
      (hstores : Stores payload rest steps data) :
      Effect sha json (safetyTripLatchTripped :: rest) (.reset record.sequence note buildVersion
        now) steps
        (safetyTripLatchTripped :: data)
  | resetDone {note buildVersion now record} {rest payload : Bytes}
      (hread : decodeSafetyTripRecord sha json rest = .ok record)
      (hstatus : (readLocked sha json (safetyTripLatchTripped :: rest)).state = .tripped ∧
        (readLocked sha json (safetyTripLatchTripped :: rest)).record = record)
      (hencode : encodeSafetyTripRecord sha (clearRecord record note buildVersion now) = .ok payload) :
      Effect sha json (safetyTripLatchTripped :: rest) (.reset record.sequence note buildVersion now)
        [.record payload, .truncate (1 + payload.length), .latch safetyTripLatchClear]
        (safetyTripLatchClear :: payload)

/-- What `writeSafetyTripRecord` does: nothing, or some of its steps, all of them when it
succeeds. -/
theorem writeRecord_cases (rest : Bytes) (done : List Write) (record : SafetyTripRecord) :
    (∃ e, writeSafetyTripRecord sha ⟨latch :: rest, n, done⟩ record = (⟨latch :: rest, n, done⟩,
      some e)) ∨
    ∃ payload steps data left err, encodeSafetyTripRecord sha record = .ok payload ∧
      Stores payload rest steps data ∧
      writeSafetyTripRecord sha ⟨latch :: rest, n, done⟩ record =
        (⟨latch :: data, left, done ++ steps⟩, err) ∧
      (err = none → steps = [.record payload, .truncate (1 + payload.length)] ∧ data = payload) := by
  unfold writeSafetyTripRecord
  rcases henc : encodeSafetyTripRecord sha record with e | payload
  · exact .inl ⟨e, rfl⟩
  dsimp only
  split
  · exact .inl ⟨_, rfl⟩
  · rcases n with _ | _ | left
    · exact .inl ⟨_, rfl⟩
    · refine .inr ⟨payload, _, _, 0, some (.write "truncate safety trip record"), rfl, .record, ?_,
        nofun⟩
      simp [write]
    · refine .inr ⟨payload, _, _, left, none, rfl, .truncated, ?_, fun _ => ⟨rfl, rfl⟩⟩
      simp [write]

theorem writeLatch_succ {latch : UInt8} : writeSafetyTripLatch ⟨latch :: rest, n + 1, []⟩ value =
    (⟨value :: rest, n, [.latch value]⟩, none) := by
  simp [writeSafetyTripLatch, write]

theorem tripThen_effect (event : SafetyTripEvent) (occurredAt now : Time) :
    Effect sha json file (.trip event occurredAt now)
      (tripThen sha json ⟨file, n, []⟩ event occurredAt now).1.done
      (tripThen sha json ⟨file, n, []⟩ event occurredAt now).1.data := by
  unfold tripThen
  split
  · exact .idle
  dsimp only
  split
  · exact .idle
  split
  · exact .idle
  rename_i hblo
  obtain ⟨rest, record, rfl, hre, -, hsta⟩ := readLocked_open (not_eq_true _ ▸ hblo)
  rw [hsta]
  cases n with
  | zero => exact .idle
  | succ n =>
    -- the latch is written
    rw [writeLatch_succ]
    dsimp only
    rcases @writeRecord_cases sha safetyTripLatchTripped n rest [.latch safetyTripLatchTripped]
      (tripRecord record event (if occurredAt.isZero then now else occurredAt)) with
      ⟨e, hwr⟩ | ⟨payload, steps, data, left, err, henc, hsto, hwr, -⟩
    · rw [hwr]
      exact .tripLatch hre
    · rw [hwr]
      cases err with
      | none => exact .tripRecord hre henc hsto
      | some e => exact .tripRecord hre henc hsto

theorem reset_effect (expectedSequence : ℕ) (note buildVersion : String) (now : Time) :
    Effect sha json file (.reset expectedSequence note buildVersion now)
      (reset sha json ⟨file, n, []⟩ expectedSequence note buildVersion now).1.done
      (reset sha json ⟨file, n, []⟩ expectedSequence note buildVersion now).1.data := by
  unfold reset
  split
  · exact .idle
  dsimp only
  split
  · exact .idle
  rename_i hst
  obtain ⟨rest, record, rfl, hre, hrec⟩ := readLocked_tripped (not_not.1 hst)
  have hsta := And.intro (not_not.1 hst) hrec
  rw [hrec]
  split
  · exact .idle
  rename_i hexpected
  obtain rfl : expectedSequence = record.sequence := not_not.1 (not_or.1 hexpected).2
  rcases @writeRecord_cases sha safetyTripLatchTripped n rest [] (clearRecord record note
    buildVersion now)
    with ⟨e, hwr⟩ | ⟨payload, steps, data, left, err, henc, hsto, hwr, hall⟩
  · rw [hwr]
    exact .idle
  · rw [hwr]
    cases err with
    | some e => exact .resetRecord hre henc hsto
    | none =>
      -- the record is there: only now is the latch cleared
      cases left with
      | zero => exact .resetRecord hre henc hsto
      | succ left =>
        obtain ⟨rfl, rfl⟩ := hall rfl
        simpa [writeSafetyTripLatch, write] using Effect.resetDone hre hsta henc

/-- **What a call can do**, wherever it stops. -/
theorem run_effect (op : Op) (file : Bytes) (n : ℕ) :
    Effect sha json file op (op.run sha json ⟨file, n, []⟩).1.done (op.run sha json ⟨file, n,
      []⟩).1.data := by
  cases op with
  | trip event occurredAt now => exact tripThen_effect event occurredAt now
  | reset expectedSequence note buildVersion now =>
    exact reset_effect expectedSequence note buildVersion now

/-! ## The record in the file -/

/-- The record in the file, when it can be read. -/
def storedRecord (sha : Sha256) (json : EnvelopeDecoder) (file : Bytes) :
    Except TripErr SafetyTripRecord :=
  decodeSafetyTripRecord sha json (file.drop 1)

theorem encode_valid (h : encodeSafetyTripRecord sha r = .ok payload) :
    validateSafetyTripRecord r = .ok () := by
  simp only [encodeSafetyTripRecord, bind_ok_iff] at h
  obtain ⟨⟨⟩, hva, -⟩ := h
  exact hva

/-- **What is read from a payload**: its record, when only white space follows. -/
theorem decode_payload (h : encodeSafetyTripRecord sha r = .ok payload)
    (hutc : r.updatedAt.isUTC = true) (hseq : r.sequence < 2 ^ 64) (tail : Bytes) :
    decodeSafetyTripRecord sha json (payload ++ tail) =
      if tail.all isJSONSpace then .ok r else .error (.corrupt (.plain "trailing data")) := by
  have hva := encode_valid h
  simp only [encodeSafetyTripRecord, bind_ok_iff, ok.injEq] at h
  obtain ⟨-, -, text, hte, envelope, henv, rfl⟩ := h
  have hhex : ∀ c ∈ sha.checksum text, (fromHexChar c).isSome = true := by
    exact all_eq_true.1 (hexEncode_isHex (sha (utf8 text)).bytes)
  have hdec := json.round_trip (10 :: tail) hva hutc hseq hhex henv
  rw [append_assoc, singleton_append, decodeSafetyTripRecord, hdec]
  have hsp : (10 :: tail).all isJSONSpace = tail.all isJSONSpace := rfl
  have hsum : hexDecode (sha.checksum text) = some (sha (utf8 text)).bytes := hexDecode_encode _
  cases hall : tail.all isJSONSpace with
  | true => simp [Except.mapError, bind, Except.bind, Except.failIf, hsp, hall, hva, hte, hsum]
  | false => simp [Except.mapError, bind, Except.bind, Except.failIf, hsp, hall]

/-- The file is a latch, the payload of a record, and what is left of an older payload. -/
def Holds (sha : Sha256) (file : Bytes) (r : SafetyTripRecord) : Prop :=
  ∃ latch payload tail, file = latch :: (payload ++ tail) ∧
    encodeSafetyTripRecord sha r = .ok payload ∧ r.updatedAt.isUTC = true ∧ r.sequence < 2 ^ 64

theorem Holds.stored_eq {r' : SafetyTripRecord} (h : Holds sha file r)
    (hr : storedRecord sha json file = .ok r') : r' = r := by
  obtain ⟨latch, payload, tail, rfl, henc, hutc, hseq⟩ := h
  have hdec : decodeSafetyTripRecord sha json (payload ++ tail) = .ok r' := hr
  rw [decode_payload henc hutc hseq] at hdec
  split at hdec
  · exact (ok.inj hdec).symm
  · exact nomatch hdec

theorem Holds.relatch (h : Holds sha (latch :: rest) r) (value : UInt8) :
    Holds sha (value :: rest) r := by
  obtain ⟨_, payload, tail, hfi, hr⟩ := h
  exact ⟨value, payload, tail, by rw [(cons.inj hfi).2], hr⟩

theorem nextSequence_lt (sequence : ℕ) : nextSequence sequence < 2 ^ 64 := Nat.mod_lt _ (by decide)

theorem Stores.holds {steps : List Write} (h : Stores payload rest steps data)
    (henc : encodeSafetyTripRecord sha r = .ok payload) (hutc : r.updatedAt.isUTC = true)
    (hseq : r.sequence < 2 ^ 64) : Holds sha (latch :: data) r := by
  cases h with
  | record => exact ⟨latch, payload, _, rfl, henc, hutc, hseq⟩
  | truncated => exact ⟨latch, data, [], by rw [append_nil], henc, hutc, hseq⟩

/-- A reset that names, and finds stored, the last sequence before the counter wraps. -/
def Op.wraps (sha : Sha256) (json : EnvelopeDecoder) (file : Bytes) : Op → Prop
  | .trip .. => False
  | .reset expectedSequence .. => expectedSequence = 2 ^ 64 - 1 ∧
      ∃ r, storedRecord sha json file = .ok r ∧ r.sequence = expectedSequence

theorem tripRecord_sequence {event : SafetyTripEvent} {time : Time}
    (h : encodeSafetyTripRecord sha (tripRecord r event time) = .ok payload) :
    r.sequence ≤ (tripRecord r event time).sequence ∨ 2 ^ 64 ≤ r.sequence := by
  have hze : nextSequence r.sequence ≠ 0 := valid_tripped (encode_valid h) rfl
  show r.sequence ≤ nextSequence r.sequence ∨ 2 ^ 64 ≤ r.sequence
  unfold nextSequence at hze ⊢
  omega

/-- **One call and the stored record**: it stays, or the next one follows it. -/
theorem Effect.record_ok (h : Effect sha json file op done data) (hr : Holds sha file r) :
    ∃ r', Holds sha data r' ∧ (¬ op.wraps sha json file → r.sequence ≤ r'.sequence) := by
  have hsto : ∀ {latch rest record}, file = latch :: rest →
      decodeSafetyTripRecord sha json rest = .ok record → record = r := by
    rintro latch rest record rfl hre
    exact hr.stored_eq hre
  obtain ⟨-, -, -, -, -, -, hlt⟩ := id hr
  -- a reset that does not wrap writes the next sequence
  have hcl : ∀ {note buildVersion : String} {now : Time}, storedRecord sha json file = .ok r →
      ¬ (Op.reset r.sequence note buildVersion now).wraps sha json file →
      r.sequence ≤ (clearRecord r note buildVersion now).sequence := by
    intro note buildVersion now hstored hno
    have hne : r.sequence ≠ 2 ^ 64 - 1 := fun hlast => hno ⟨hlast, r, hstored, rfl⟩
    show r.sequence ≤ nextSequence r.sequence
    unfold nextSequence
    omega
  cases h with
  | idle => exact ⟨r, hr, fun _ => le_rfl⟩
  | tripLatch hre => exact ⟨r, hr.relatch _, fun _ => le_rfl⟩
  | tripRecord hre henc hstor =>
    obtain rfl := hsto rfl hre
    refine ⟨_, hstor.holds henc rfl (nextSequence_lt _), fun _ => ?_⟩
    exact (tripRecord_sequence henc).resolve_right (Nat.not_le.2 hlt)
  | resetRecord hre henc hstor =>
    obtain rfl := hsto rfl hre
    exact ⟨_, hstor.holds henc rfl (nextSequence_lt _), hcl hre⟩
  | resetDone hre hsta henc =>
    obtain rfl := hsto rfl hre
    exact ⟨_, (Stores.truncated : Stores _ [] _ _).holds henc rfl (nextSequence_lt _), hcl hre⟩

/-! ## The last latch write -/

/-- The latch that a write sets. -/
def Write.latch? : Write → Option UInt8
  | .latch value => some value
  | _ => none

/-- The last latch write since the initialisation that took effect: the call, and the latch. -/
def World.lastLatch (w : World) : Option (Performed × UInt8) :=
  w.history.findSome? fun p => (p.done.filterMap Write.latch?).getLast?.map (p, ·)

/-- A call was a reset that named the trip record it found stored, and had written and cut its clear
record before it cleared the latch. -/
def ClearedBy (sha : Sha256) (json : EnvelopeDecoder) (p : Performed) : Prop :=
  ∃ expectedSequence note buildVersion now payload, p.op =
    .reset expectedSequence note buildVersion now ∧
    (readLocked sha json p.before).state = .tripped ∧
    (readLocked sha json p.before).record.sequence = expectedSequence ∧
    encodeSafetyTripRecord sha (clearRecord (readLocked sha json p.before).record note buildVersion
      now) = .ok payload ∧
    p.done = [.record payload, .truncate (1 + payload.length), .latch safetyTripLatchClear]

variable {w w' : World}

/-- The latch byte of the file is that of the last latch write, and a clear one has its reset. -/
def LatchOK (sha : Sha256) (json : EnvelopeDecoder) (w : World) (latch : UInt8) : Prop :=
  match w.lastLatch with
  | none => latch = safetyTripLatchClear
  | some (p, value) => latch = value ∧ (value = safetyTripLatchClear → ClearedBy sha json p)

/-- The state of the file: nothing was ever written, or it has a latch and a record. -/
def FileOK (sha : Sha256) (json : EnvelopeDecoder) (w : World) : Prop :=
  w.file = [] ∨ ∃ latch rest r, w.file = latch :: rest ∧ LatchOK sha json w latch ∧ Holds sha w.file r

theorem lastLatch_of_no_latch {p : Performed} {data' : Bytes}
    (h : p.done.filterMap Write.latch? = []) :
    (World.mk data (p :: history)).lastLatch = (World.mk data' history).lastLatch := by
  rw [World.lastLatch, findSome?_cons, h]
  rfl

theorem lastLatch_of_latch {p : Performed} (h : p.done.filterMap Write.latch? = [value]) :
    (World.mk data (p :: history)).lastLatch = some (p, value) := by
  rw [World.lastLatch, findSome?_cons, h]
  rfl

theorem Stores.no_latch {steps : List Write} (h : Stores payload rest steps data) :
    steps.filterMap Write.latch? = [] := by
  cases h <;> rfl

/-- **One call and the latch.** -/
theorem Effect.latch_ok (h : Effect sha json file op done data)
    (hok : LatchOK sha json ⟨file, history⟩ latch) (hfi : file = latch :: rest) :
    ∃ latch' rest', data = latch' :: rest' ∧ LatchOK sha json ⟨data,
      ⟨op, file, done⟩ :: history⟩ latch' := by
  -- without a latch write
  have hsa (hdo : done.filterMap Write.latch? = []) : LatchOK sha json ⟨data,
    ⟨op, file, done⟩ :: history⟩ latch := by
    unfold LatchOK at hok ⊢
    rwa [lastLatch_of_no_latch hdo]
  -- with one, whose own conditions hold
  have hwr {value} (hdo : done.filterMap Write.latch? = [value])
      (hcle : value = safetyTripLatchClear → ClearedBy sha json ⟨op, file, done⟩) :
      LatchOK sha json ⟨data, ⟨op, file, done⟩ :: history⟩ value := by
    unfold LatchOK
    rw [lastLatch_of_latch hdo]
    exact ⟨rfl, hcle⟩
  have htri : safetyTripLatchTripped = safetyTripLatchClear → ClearedBy sha json ⟨op, file, done⟩ :=
    fun heq => absurd heq (by decide)
  cases h with
  | idle => exact ⟨_, rest, hfi, hsa rfl⟩
  | tripLatch => exact ⟨_, _, rfl, hwr rfl htri⟩
  | tripRecord _ _ hsto =>
    exact ⟨_, _, rfl, hwr (congrArg (safetyTripLatchTripped :: ·) hsto.no_latch) htri⟩
  | resetRecord _ _ hsto =>
    obtain ⟨rfl, -⟩ := cons.inj hfi
    exact ⟨_, _, rfl, hsa hsto.no_latch⟩
  | resetDone hre hsta henc =>
    refine ⟨_, _, rfl, hwr rfl fun _ => ⟨_, _, _, _, _, rfl, hsta.1, ?_, ?_, rfl⟩⟩
    · rw [hsta.2]
    · rw [hsta.2]
      exact henc

theorem Effect.empty (h : Effect sha json [] op done data) : data = [] := by
  cases h
  rfl

theorem FileOK.perform (h : FileOK sha json w) (op : Op) (n : ℕ) :
    FileOK sha json (w.perform sha json op n) := by
  have heff := @run_effect sha json op w.file n
  rcases h with hem | ⟨latch, rest, r, hfi, hla, hr⟩
  · rw [hem] at heff
    left
    unfold World.perform
    rw [hem]
    exact heff.empty
  · obtain ⟨latch', rest', hfi', hla'⟩ := heff.latch_ok hla hfi
    obtain ⟨r', hr', -⟩ := heff.record_ok hr
    exact .inr ⟨latch', rest', r', hfi', hla', hr'⟩

theorem initial_ok (h : Initial sha w) : FileOK sha json w := by
  obtain ⟨now, steps, rfl⟩ := h
  unfold initializeSafetyTripFile
  rcases henc : encodeSafetyTripRecord sha (initialRecord now) with e | payload
  · exact .inl rfl
  -- the file is new, so the first write already leaves the latch and the payload
  have hcre : (Write.create (safetyTripLatchClear :: payload)).apply [] =
    safetyTripLatchClear :: (payload ++ []) := by
    simp [Write.apply, writeAt]
  have hok : ∀ data, data = safetyTripLatchClear :: (payload ++ []) → FileOK sha json ⟨data, []⟩ := by
    rintro data rfl
    exact .inr ⟨_, _, initialRecord now, rfl, rfl, _, _, _, rfl, henc, rfl, Nat.two_pow_pos 64⟩
  rcases steps with _ | _ | steps
  · exact .inl rfl
  · exact hok _ hcre
  · refine hok _ ?_
    show (Write.truncate (1 + payload.length)).apply
      ((Write.create (safetyTripLatchClear :: payload)).apply []) = _
    rw [hcre, apply_truncate, append_nil]

theorem reachable_fileOK {ok : World → Op × ℕ → Prop}
    (h : Reachable (World.step sha json) (Initial sha) ok w) : FileOK sha json w :=
  h.invariant (fun _ => initial_ok) fun _ _ _ _ hok _ hst => Option.some.inj hst ▸ hok.perform _ _

/-- **The sequence of the stored record** along a run without a reset of the last sequence. -/
theorem sequence_mono (h : FileOK sha json w)
    (hrun : Reachable (World.step sha json) (· = w) (fun v act => ¬ act.1.wraps sha json v.file) w')
    {r r' : SafetyTripRecord}
    (hr : storedRecord sha json w.file = .ok r) (hr' : storedRecord sha json w'.file = .ok r') :
    r.sequence ≤ r'.sequence := by
  rcases h with hem | ⟨-, -, s, -, -, hs⟩
  · -- a file that was never written stays so
    have hsta : w'.file = [] := by
      refine hrun.invariant (P := fun v => v.file = []) ?_ ?_
      · rintro v rfl
        exact hem
      · intro v act v' _ hv _ hst
        have heff := @run_effect sha json act.1 v.file act.2
        rw [hv] at heff
        rw [← Option.some.inj hst]
        unfold World.perform
        rw [hv]
        exact heff.empty
    rw [hem] at hr
    rw [hsta, hr] at hr'
    rw [ok.inj hr']
  · have hla : ∃ s', Holds sha w'.file s' ∧ s.sequence ≤ s'.sequence := by
      refine hrun.invariant (P := fun v => ∃ s', Holds sha v.file s' ∧ s.sequence ≤ s'.sequence) ?_ ?_
      · rintro v rfl
        exact ⟨s, hs, le_rfl⟩
      · rintro v act v' _ ⟨s', hs', hle⟩ hwr hst
        obtain ⟨s'', hs'', hle'⟩ := (@run_effect sha json act.1 v.file act.2).record_ok hs'
        rw [← Option.some.inj hst]
        exact ⟨s'', hs'', hle.trans (hle' hwr)⟩
    obtain ⟨s', hs', hle⟩ := hla
    rw [hs.stored_eq hr, hs'.stored_eq hr']
    exact hle

/-! ## The governor -/

/-- Every request for a peer or an attempt is refused. -/
def Refuses (s : Governor.State) : Prop :=
  (∀ peerID, ∃ e, s.acquirePeer peerID = .error e) ∧
    ∀ p request loopback reply, (s.acquireAttempt p request loopback reply).1 = s ∧
      (s.acquireAttempt p request loopback reply).2 ≠ []

theorem loopbackAdmissionBlocked_error {e : JoinedErr} (h : s.loopbackAdmissionBlocked = .error e) :
    e ≠ [] := by
  simp only [Governor.State.loopbackAdmissionBlocked, bind_error_iff, failIf_error_iff] at h
  rcases h with ⟨hne, rfl⟩ | ⟨-, -, -, rfl⟩
  · exact hne
  · exact cons_ne_nil _ _

theorem refuses_of_blocks (h : s.trip.blocksActiveWork = true) : Refuses s := by
  constructor
  · intro peerID
    cases hacq : s.acquirePeer peerID with
    | error e => exact ⟨e, rfl⟩
    | ok s' =>
      simp only [Governor.State.acquirePeer, bind_ok_iff, failIf_ok_iff] at hacq
      obtain ⟨-, -, -, -, -, -, -, hop, -⟩ := hacq
      exact absurd h hop
  · intro p request loopback reply
    unfold Governor.State.acquireAttempt
    cases hall : s.acquireAllowed p request loopback with
    | ok u =>
      simp only [Governor.State.acquireAllowed, bind_ok_iff, failIf_ok_iff] at hall
      obtain ⟨-, -, -, -, -, hop, -⟩ := hall
      exact absurd h hop
    | error e =>
      refine ⟨rfl, ?_⟩
      simp only [Governor.State.acquireAllowed, bind_error_iff, failIf_error_iff] at hall
      rcases hall with hblo | ⟨-, -, ⟨-, rfl⟩ | ⟨-, -, ⟨-, rfl⟩ | ⟨-, -, -, rfl⟩⟩⟩
      · exact loopbackAdmissionBlocked_error hblo
      · exact cons_ne_nil _ _
      · exact cons_ne_nil _ _
      · exact cons_ne_nil _ _

theorem step_keeps_trip {s' : Governor.State} {act : Governor.Action} (hok : s.StateOK)
    (hst : Governor.step s act = some s') (h : s.trip.blocksActiveWork = true) :
    s'.trip.blocksActiveWork = true := by
  cases (Governor.step_sound hok hst).effect with
  | caller hadv _ => exact hadv.trip h
  | moved t s₁ th hadv _ hs' _ =>
    rw [hs']
    exact hadv.trip h
  | waited t call _ _ hs' =>
    rw [hs']
    exact h
  | rechecked t reply call a _ _ hs' =>
    rw [hs']
    exact (Governor.State.keeps_recheck hok.heap).trip h
  | released t call result hth hs' =>
    obtain ⟨hrel, -, -⟩ := @Governor.State.releases_releaseLoop call.ordinary (s, result) hok.heap
      fun a ha => ((hok.callOK hth.1).ordinary a ha).1
    rw [hs']
    exact hrel.trip h

/-- **A governor that is tripped** refuses every request from then on. -/
theorem governor_refuses {s' : Governor.State}
    (hs : Reachable Governor.step Governor.Initial (fun _ _ => True) s)
    (h : s.trip.blocksActiveWork = true)
    (hrun : Reachable Governor.step (· = s) (fun _ _ => True) s') :
    s'.trip.blocksActiveWork = true ∧ Refuses s' := by
  have hblo : s'.trip.blocksActiveWork = true := by
    refine hrun.invariant (P := fun v => v.trip.blocksActiveWork = true) ?_ ?_
    · rintro v rfl
      exact h
    · intro v act v' hv hblo _ hst
      exact step_keeps_trip (Governor.reachable_ok (hs.trans hv)) hst hblo
  exact ⟨hblo, refuses_of_blocks hblo⟩

/-! ## The main result -/

/-- **The safety latch is fail-closed.** In every run of trips and resets that may stop after any
write:

* the status is not blocking only when the last latch write was that of the initialisation, or that
  of a reset that named the trip record it found and had written its clear record before;
* the sequence of the stored record never decreases, unless a reset finds the sequence `2^64 - 1`
  stored;
* a governor whose trip status blocks refuses every peer and every attempt from then on. -/
theorem safety_latch_fail_closed
    (hw : Reachable (World.step sha json) (Initial sha) (fun _ _ => True) w) :
    ((readLocked sha json w.file).blocksActiveWork = false →
      ∀ p value, w.lastLatch = some (p, value) → ClearedBy sha json p) ∧
    (∀ w', Reachable (World.step sha json) (· = w) (fun v act => ¬ act.1.wraps sha json v.file) w' →
      ∀ r r', storedRecord sha json w.file = .ok r → storedRecord sha json w'.file = .ok r' →
        r.sequence ≤ r'.sequence) ∧
    ∀ s s' : Governor.State, Reachable Governor.step Governor.Initial (fun _ _ => True) s →
      s.trip.blocksActiveWork = true → Reachable Governor.step (· = s) (fun _ _ => True) s' →
      s'.trip.blocksActiveWork = true ∧ Refuses s' := by
  have hok := reachable_fileOK hw
  refine ⟨?_, fun w' hrun r r' hr hr' => sequence_mono hok hrun hr hr', fun s s' => governor_refuses⟩
  intro hopen p value hlast
  obtain ⟨rest, record, hfile, -⟩ := readLocked_open hopen
  rcases hok with hempty | ⟨latch, rest', r, hfile', hlatch, -⟩
  · rw [hempty] at hfile
    exact absurd hfile.symm (cons_ne_nil _ _)
  · -- the latch of the file is clear, and it is the one that was written last
    rw [hfile] at hfile'
    obtain rfl := (cons.inj hfile').1
    rw [LatchOK, hlast] at hlatch
    exact hlatch.2 hlatch.1.symm

/-! ## Complete calls -/

theorem readLocked_payload (h : encodeSafetyTripRecord sha r = .ok payload)
    (hutc : r.updatedAt.isUTC = true) (hseq : r.sequence < 2 ^ 64)
    (hlen : 1 + payload.length ≤ maxSafetyTripFileBytes) :
    readLocked sha json (latch :: payload) = statusOf latch r := by
  have hpos : 1 ≤ payload.length := by
    simp only [encodeSafetyTripRecord, bind_ok_iff, ok.injEq] at h
    obtain ⟨-, -, -, -, -, -, rfl⟩ := h
    simp
  have hre : readSafetyTripFile (latch :: payload) = .ok (latch :: payload) := by
    simp only [readSafetyTripFile, bind_ok_iff, failIf_ok_iff, length_cons]
    exact ⟨(), by omega, (), by omega, trivial⟩
  have hdec := @decode_payload sha json payload r h hutc hseq []
  rw [append_nil, all_nil, if_pos rfl] at hdec
  rw [readLocked, hre]
  dsimp only
  rw [drop_one, tail_cons, hdec]
  rfl

theorem writeRecord_complete {record : SafetyTripRecord} {done : List Write}
    (h : encodeSafetyTripRecord sha record = .ok payload)
    (hlen : 1 + payload.length ≤ maxSafetyTripFileBytes) :
    writeSafetyTripRecord sha ⟨latch :: rest, n + 2, done⟩ record =
      (⟨latch :: payload, n, done ++ [.record payload, .truncate (1 + payload.length)]⟩, none) := by
  rw [writeSafetyTripRecord, h]
  dsimp only
  rw [if_neg (Nat.not_lt.2 hlen)]
  simp [write]

theorem tripThen_complete {event : SafetyTripEvent} {now : Time}
    (hev : validateSafetyTripEvent event = .ok ())
    (hre : readLocked sha json (safetyTripLatchClear :: rest) = { state := .clear, record := r })
    (henc : encodeSafetyTripRecord sha (tripRecord r event now) = .ok payload)
    (hlen : 1 + payload.length ≤ maxSafetyTripFileBytes) :
    (tripThen sha json ⟨safetyTripLatchClear :: rest, 3, []⟩ event .zero now).1 =
      ⟨safetyTripLatchTripped :: payload, 0,
      [.latch safetyTripLatchTripped, .record payload, .truncate (1 + payload.length)]⟩ := by
  have hrec := @writeRecord_complete sha rest payload safetyTripLatchTripped 0 (tripRecord r event now)
    [.latch safetyTripLatchTripped] henc hlen
  have hze : (if Time.zero.isZero = true then now else Time.zero) = now := rfl
  rw [tripThen, hev]
  dsimp only
  rw [hre, if_neg noConfusion, if_neg Bool.false_ne_true, writeLatch_succ]
  dsimp only
  rw [hze, hrec]
  rfl

theorem reset_complete {note buildVersion : String} {now : Time}
    (hreq : validateSafetyResetRequest r.sequence note buildVersion = .ok ())
    (hre : readLocked sha json (safetyTripLatchTripped :: rest) =
      { state := .tripped, blocksActiveWork := true, record := r })
    (hze : r.sequence ≠ 0)
    (henc : encodeSafetyTripRecord sha (clearRecord r note buildVersion now) = .ok payload)
    (hlen : 1 + payload.length ≤ maxSafetyTripFileBytes) :
    (reset sha json ⟨safetyTripLatchTripped :: rest, 3, []⟩ r.sequence note buildVersion now).1 =
      ⟨safetyTripLatchClear :: payload, 0,
        [.record payload, .truncate (1 + payload.length), .latch safetyTripLatchClear]⟩ := by
  have hrec := @writeRecord_complete sha rest payload safetyTripLatchTripped 1
    (clearRecord r note buildVersion now)
    [] henc hlen
  rw [reset, hreq]
  dsimp only
  rw [hre, if_neg fun hne => hne rfl, if_neg (by simpa using hze), hrec]
  simp [writeSafetyTripLatch, write]

/-- **A valid record with short texts has a payload that fits.** -/
theorem encode_ok (hva : validateSafetyTripRecord r = .ok ())
    (hti : ∃ text, marshalTime r.updatedAt = .ok text)
    (hseq : r.sequence < 2 ^ 64) (htex : r.state.text.toList.length + r.reason.text.toList.length +
      r.detail.toList.length + r.peerID.toList.length + r.attemptID.toList.length +
      r.buildVersion.toList.length + r.resetNote.toList.length ≤ 300) :
    ∃ payload, encodeSafetyTripRecord sha r = .ok payload ∧
      1 + payload.length ≤ maxSafetyTripFileBytes := by
  obtain ⟨t, ht⟩ := hti
  have htl := marshalTime_length ht
  have hver : (jsonInt r.schemaVersion).length = 1 := by
    rw [valid_version hva]
    rfl
  have hnum : (jsonInt r.sequence).length ≤ 20 :=
    Nat.toDigits_length 10 r.sequence 20 (by omega) (by omega)
  have hst := jsonString_length r.state.text
  have h1 := membersLength_omitEmpty "reason" r.reason.text
  have h2 := membersLength_omitEmpty "detail" r.detail
  have h3 := membersLength_omitEmpty "peer_id" r.peerID
  have h4 := membersLength_omitEmpty "attempt_id" r.attemptID
  have h5 := membersLength_omitEmpty "build_version" r.buildVersion
  have h6 := membersLength_omitEmpty "reset_note" r.resetNote
  simp only [String.reduceToList, length_cons, length_nil] at h1 h2 h3 h4 h5 h6
  obtain ⟨text, hte⟩ : ∃ text, r.marshal = .ok text := by
    simp only [SafetyTripRecord.marshal, ht]
    exact ⟨_, rfl⟩
  obtain ⟨envelope, henv⟩ : ∃ envelope, marshalEnvelope r (sha.checksum text) = .ok envelope := by
    simp only [marshalEnvelope, hte]
    exact ⟨_, rfl⟩
  have hlen : text.length ≤ 2300 := by
    obtain ⟨t', ht', rfl⟩ := marshal_members hte
    rw [ht] at ht'
    obtain rfl := ok.inj ht'
    simp only [tripMembers, cons_append, jsonObject_length, membersLength_cons,
      membersLength_append, nil_append, hver, String.reduceToList, length_cons, length_nil]
    omega
  have hel : envelope.length ≤ text.length + 100 := by
    simp only [marshalEnvelope, hte, bind_ok_iff, ok.injEq] at henv
    obtain ⟨_, rfl, rfl⟩ := henv
    have hsum := checksum_length sha text
    rw [jsonObject_length]
    simp
    omega
  have hby := (utf8_length envelope).2
  refine ⟨utf8 envelope ++ [10], ?_, ?_⟩
  · simp only [encodeSafetyTripRecord, bind_ok_iff]
    exact ⟨(), hva, text, hte, envelope, henv, rfl⟩
  · rw [length_append, length_singleton]
    unfold maxSafetyTripFileBytes
    omega

/-! ## Runs of trips and resets -/

def constSha : Sha256 := fun _ => zeroDigest

def sampleTime : Time := ⟨second, true⟩

def operatorStop : SafetyTripEvent := { reason := .operator }

theorem sampleTime_ok : ∃ text, marshalTime sampleTime.toUTC = .ok text :=
  marshalTime_ok (by decide) (by decide)

/-- The file holds a complete record. -/
def Complete (w : World) (latch : UInt8) (r : SafetyTripRecord) : Prop :=
  ∃ payload, w.file = latch :: payload ∧ encodeSafetyTripRecord constSha r = .ok payload ∧
    1 + payload.length ≤ maxSafetyTripFileBytes ∧ r.updatedAt.isUTC = true ∧ r.sequence < 2 ^ 64

theorem Complete.read (h : Complete w latch r) :
    readLocked constSha json w.file = statusOf latch r := by
  obtain ⟨payload, hfi, henc, hlen, hutc, hseq⟩ := h
  rw [hfi]
  exact readLocked_payload henc hutc hseq hlen

theorem Complete.stored (h : Complete w latch r) : storedRecord constSha json w.file = .ok r := by
  obtain ⟨payload, hfi, henc, hlen, hutc, hseq⟩ := h
  have hdec := @decode_payload constSha json payload r henc hutc hseq []
  rw [append_nil, all_nil, if_pos rfl] at hdec
  rw [storedRecord, hfi]
  exact hdec

abbrev SampleRun (w : World) : Prop :=
  Reachable (World.step constSha envelopeDecoder) (Initial constSha) (fun _ _ => True) w

/-- The trip records of the sample are valid. -/
theorem trip_valid (hne : nextSequence r.sequence ≠ 0) :
    validateSafetyTripRecord (tripRecord r operatorStop sampleTime) = .ok () := by
  have hst : validateRecordState (tripRecord r operatorStop sampleTime) = .ok () := by
    rw [validateRecordState]
    show (do
      Except.failIf (operatorStop.reason.valid = false) _
      Except.failIf (nextSequence r.sequence = 0) _
      Except.failIf ("" ≠ "") _ : Except TripErr Unit) = .ok ()
    simp only [bind_ok_iff, failIf_ok_iff]
    exact ⟨(), by decide, (), hne, by decide⟩
  have hti : ¬ sampleTime.toUTC.isZero = true := by decide
  simp only [validateSafetyTripRecord, bind_ok_iff, failIf_ok_iff, mapError_ok_iff]
  exact ⟨(), not_not.2 rfl, (), hti, (), rfl, (), rfl, (), rfl, (), rfl, (), rfl, hst⟩

theorem clear_valid :
    validateSafetyTripRecord (clearRecord r "checked" "v1" sampleTime) = .ok () := by
  have hst : validateRecordState (clearRecord r "checked" "v1" sampleTime) = .ok () := by
    rw [validateRecordState]
    show (do
      Except.failIf ((SafetyTripReason.unknown "").text ≠ "" ∨ "" ≠ "" ∨ "" ≠ "" ∨ "" ≠ "") _
      Except.failIf (nextSequence r.sequence > 0 ∧ "checked" = "") _ : Except TripErr Unit) = .ok ()
    simp only [bind_ok_iff, failIf_ok_iff]
    exact ⟨(), by decide, fun h => absurd h.2 (by decide)⟩
  have hno : validateSafetyDiagnosticText "reset note" "checked" maxSafetyTripNoteLen true =
    .ok () := by decide +kernel
  have hbu : validateSafetyDiagnosticText "build version" "v1" maxSafetyTripBuildLen true = .ok () := by
    decide +kernel
  have hti : ¬ sampleTime.toUTC.isZero = true := by decide
  simp only [validateSafetyTripRecord, bind_ok_iff, failIf_ok_iff, mapError_ok_iff]
  exact ⟨(), not_not.2 rfl, (), hti, (), rfl, (), hno, (), hbu, (), rfl, (), rfl, hst⟩

theorem sample_trip (h : Complete w safetyTripLatchClear r) (hst : r.state = .clear)
    (hne : nextSequence r.sequence ≠ 0) :
    ∃ w', World.step constSha envelopeDecoder w (.trip operatorStop .zero sampleTime, 3) = some w' ∧
      Complete w' safetyTripLatchTripped (tripRecord r operatorStop sampleTime) := by
  obtain ⟨payload', henc', hlen'⟩ := @encode_ok constSha (tripRecord r operatorStop sampleTime)
    (trip_valid hne)
    sampleTime_ok (nextSequence_lt _) (by simp [tripRecord, operatorStop, RecordState.text,
      SafetyTripReason.text])
  have hre := @Complete.read envelopeDecoder r safetyTripLatchClear w h
  obtain ⟨payload, hfi, -⟩ := h
  refine ⟨_, rfl, payload', ?_, henc', hlen', rfl, nextSequence_lt _⟩
  have hcl : statusOf safetyTripLatchClear r = { state := .clear, record := r } := if_pos ⟨rfl, hst⟩
  rw [hfi, hcl] at hre
  show (tripThen constSha envelopeDecoder ⟨w.file, 3, []⟩ operatorStop .zero sampleTime).1.data = _
  rw [hfi, tripThen_complete (by decide +kernel) hre henc' hlen']

theorem sample_reset (h : Complete w safetyTripLatchTripped r) (hst : r.state = .tripped)
    (hze : r.sequence ≠ 0) :
    ∃ w', World.step constSha envelopeDecoder w (.reset r.sequence "checked" "v1" sampleTime, 3) =
      some w' ∧ Complete w' safetyTripLatchClear (clearRecord r "checked" "v1" sampleTime) ∧
      ∃ p, w'.lastLatch = some (p, safetyTripLatchClear) := by
  obtain ⟨payload', henc', hlen'⟩ := @encode_ok constSha (clearRecord r "checked" "v1" sampleTime)
    clear_valid
    sampleTime_ok (nextSequence_lt _) (by simp [clearRecord, RecordState.text, SafetyTripReason.text])
  have hre := @Complete.read envelopeDecoder r safetyTripLatchTripped w h
  obtain ⟨payload, hfi, -⟩ := h
  have htri : statusOf safetyTripLatchTripped r =
      { state := .tripped, blocksActiveWork := true, record := r } := by
    rw [statusOf, if_neg fun h => absurd h.1 (by decide), if_pos ⟨rfl, hst⟩]
  have hreq : validateSafetyResetRequest r.sequence "checked" "v1" = .ok () := by
    simp only [validateSafetyResetRequest, bind_ok_iff, failIf_ok_iff, mapError_ok_iff]
    exact ⟨(), hze, (), by decide +kernel, (), by decide +kernel, by decide +kernel⟩
  rw [hfi, htri] at hre
  have hrun := reset_complete hreq hre hze henc' hlen'
  have hstep : World.perform constSha envelopeDecoder w (.reset r.sequence "checked" "v1"
    sampleTime) 3 =
      ⟨safetyTripLatchClear :: payload', ⟨.reset r.sequence "checked" "v1" sampleTime, w.file,
        [.record payload', .truncate (1 + payload'.length),
        .latch safetyTripLatchClear]⟩ :: w.history⟩ := by
    rw [World.perform, Op.run, hfi, hrun]
  refine ⟨_, congrArg some hstep, ⟨payload', rfl, henc', hlen', rfl, nextSequence_lt _⟩, _,
    lastLatch_of_latch rfl⟩

/-- After `k` trips and resets the file is clear with the sequence `2 * k`. -/
theorem sample_run (k : ℕ) (hk : 2 * k < 2 ^ 64) :
    ∃ w r, SampleRun w ∧ Complete w safetyTripLatchClear r ∧ r.state = .clear ∧ r.sequence = 2 * k := by
  induction k with
  | zero =>
    obtain ⟨payload, henc, hlen⟩ := @encode_ok constSha (initialRecord sampleTime)
      (by decide +kernel) sampleTime_ok
      (Nat.two_pow_pos 64) (by decide)
    refine ⟨⟨safetyTripLatchClear :: payload, []⟩, initialRecord sampleTime,
      .start ⟨sampleTime, 2, ?_⟩, ⟨payload, rfl, henc, hlen, rfl, Nat.two_pow_pos 64⟩, rfl, rfl⟩
    rw [initializeSafetyTripFile, henc]
    simp [write, Write.apply, writeAt, Nat.add_comm 1]
  | succ k ih =>
    obtain ⟨w, r, hw, hc, hsta, hseq⟩ := ih (by omega)
    have hne : nextSequence r.sequence = 2 * k + 1 := by
      rw [nextSequence, hseq]
      omega
    obtain ⟨w₁, hst₁, hc₁⟩ := sample_trip hc hsta (by omega)
    obtain ⟨w₂, hst₂, hc₂, -⟩ := sample_reset hc₁ rfl (show nextSequence r.sequence ≠ 0 by omega)
    refine ⟨w₂, _, .step (.step hw trivial hst₁) trivial hst₂, hc₂, rfl, ?_⟩
    show nextSequence (nextSequence r.sequence) = 2 * (k + 1)
    rw [hne, nextSequence]
    omega

/-- A trip and its reset: the status is open again, by that reset. -/
theorem safety_latch_fail_closed_sample : ∃ w, SampleRun w ∧
    (readLocked constSha envelopeDecoder w.file).blocksActiveWork = false ∧
    ∃ p value, w.lastLatch = some (p, value) ∧ ClearedBy constSha envelopeDecoder p := by
  obtain ⟨w, r, hw, hc, hstate, hseq⟩ := sample_run 0 (by decide)
  have hnext : nextSequence r.sequence = 1 := by
    rw [hseq]
    rfl
  obtain ⟨w₁, hstep₁, hc₁⟩ := sample_trip hc hstate (by omega)
  obtain ⟨w₂, hstep₂, hc₂, p, hlast⟩ := sample_reset hc₁ rfl (show nextSequence r.sequence ≠ 0 by omega)
  have hw₂ : SampleRun w₂ := .step (.step hw trivial hstep₁) trivial hstep₂
  have hopen : (readLocked constSha envelopeDecoder w₂.file).blocksActiveWork = false := by
    rw [hc₂.read]
    rfl
  exact ⟨w₂, hw₂, hopen, p, _, hlast, (safety_latch_fail_closed hw₂).1 hopen p _ hlast⟩

/-- **The sequence wraps**: the reset of the trip with the sequence `2^64 - 1` stores the sequence
`0`. -/
theorem sequence_wraps :
    ∃ w act w' r r', SampleRun w ∧ World.step constSha envelopeDecoder w act = some w' ∧
    storedRecord constSha envelopeDecoder w.file = .ok r ∧
      storedRecord constSha envelopeDecoder w'.file = .ok r' ∧
    r'.sequence < r.sequence := by
  obtain ⟨w, r, hw, hc, hstate, hseq⟩ := sample_run (2 ^ 63 - 1) (by decide)
  have hnext : nextSequence r.sequence = 2 ^ 64 - 1 := by
    rw [nextSequence, hseq]
    rfl
  obtain ⟨w₁, hstep₁, hc₁⟩ := sample_trip hc hstate (by omega)
  obtain ⟨w₂, hstep₂, hc₂, -⟩ := sample_reset hc₁ rfl (show nextSequence r.sequence ≠ 0 by omega)
  refine ⟨w₁, _, w₂, _, _, .step hw trivial hstep₁, hstep₂, hc₁.stored, hc₂.stored, ?_⟩
  show nextSequence (nextSequence r.sequence) < nextSequence r.sequence
  rw [hnext]
  decide

end Winkyou.TripStore
