import Mathlib.Data.List.DropRight
import Winkyou.Proof.Json

/-!
# A frame determines its record

The text of a valid record can be read back: times (`marshalTime_injective`), envelopes
(`Envelope.marshal_injective`) and records (`Record.marshal_injective`). So a decoder with the
round trip of `FrameDecoder` exists (`frameDecoder`).
-/

namespace Winkyou

open List Except
open Except (bind_ok_iff failIf_ok_iff)

variable {r r' : Record} {text t : List Char} {m n : ℕ}

/-! ## Times -/

theorem digitChar_injective (hm : m < 10) (hn : n < 10) (h : Nat.digitChar m = Nat.digitChar n) :
    m = n := by
  have h1 := fromHexChar_digitChar (show m < 16 by omega)
  rw [h, fromHexChar_digitChar (show n < 16 by omega)] at h1
  exact (Option.some.inj h1).symm

theorem padded_injective {width : ℕ} (hm : m < 10 ^ width) (hn : n < 10 ^ width)
    (h : padded width m = padded width n) : m = n := by
  induction width generalizing m n with
  | zero => omega
  | succ width ih =>
    obtain ⟨h1, h2⟩ := append_inj' h rfl
    rw [pow_succ] at hm hn
    have hq := ih (m := m / 10) (n := n / 10) (by omega) (by omega) h1
    have hr := digitChar_injective (by omega) (by omega) (cons.inj h2).1
    omega

theorem padded_split {width : ℕ} {s : List Char} (hm : m < 10 ^ width) (hn : n < 10 ^ width)
    (h : padded width m ++ s = padded width n ++ t) : m = n ∧ s = t := by
  obtain ⟨h1, h2⟩ := append_inj h (by rw [padded_length, padded_length])
  exact ⟨padded_injective hm hn h1, h2⟩

/-- A text of known length is known without its trailing zeros. -/
theorem trimZeros_injective {l l' : List Char} (hlen : l.length = l'.length)
    (h : (l.reverse.dropWhile (· == '0')).reverse = (l'.reverse.dropWhile (· == '0')).reverse) :
    l = l' := by
  have hsp : ∀ k : List Char, ∃ n, k = k.rdropWhile (· == '0') ++ replicate n '0' := by
    intro k
    refine ⟨(k.rtakeWhile (· == '0')).length, ?_⟩
    rw [← eq_replicate_of_mem fun c hc => by simpa using mem_rtakeWhile_imp hc,
      rdropWhile_append_rtakeWhile]
  obtain ⟨n, hl⟩ := hsp l
  obtain ⟨n', hl'⟩ := hsp l'
  rw [show l.rdropWhile (· == '0') = l'.rdropWhile (· == '0') from h] at hl
  have hn : n = n' := by
    have h1 := congrArg length hl
    have h2 := congrArg length hl'
    rw [length_append, length_replicate] at h1 h2
    omega
  rw [hn] at hl
  exact hl.trans hl'.symm

theorem fractionText_injective (hm : m < 10 ^ 9) (hn : n < 10 ^ 9)
    (h : fractionText m = fractionText n) : m = n := by
  unfold fractionText at h
  split at h
  · split at h
    · omega
    · cases h
  · split at h
    · cases h
    · exact padded_injective hm hn (trimZeros_injective (by rw [padded_length, padded_length])
        (cons.inj h).2)

def civilDays (date : ℤ × ℤ × ℤ) : ℤ :=
  let y := if date.2.1 ≤ 2 then date.1 - 1 else date.1
  let mp := if date.2.1 ≤ 2 then date.2.1 + 9 else date.2.1 - 3
  146097 * (y / 400) + (365 * (y % 400) + y % 400 / 4 - y % 400 / 100) + ((153 * mp + 2) / 5 + date.2.2 - 1) - 306

theorem dayOfYear_bounds {doe yoe : ℤ} (h0 : 0 ≤ doe) (h1 : doe < 146097)
    (hy : yoe = (doe - doe / 1460 + doe / 36524 - doe / 146096) / 365) :
    0 ≤ doe - (365 * yoe + yoe / 4 - yoe / 100) ∧ doe - (365 * yoe + yoe / 4 - yoe / 100) ≤ 365 := by
  have hc : doe / 36524 = 0 ∨ doe / 36524 = 1 ∨ doe / 36524 = 2 ∨ doe / 36524 = 3 ∨
    doe / 36524 = 4 := by omega
  have he : doe / 146096 = 0 ∨ doe / 146096 = 1 := by omega
  have hg : yoe / 100 = 0 ∨ yoe / 100 = 1 ∨ yoe / 100 = 2 ∨ yoe / 100 = 3 := by omega
  -- in each century the cycle of leap years is regular
  rcases hc with hc | hc | hc | hc | hc <;> rcases he with he | he <;> rcases hg with hg | hg | hg |
    hg <;> rw [hc, he] at hy <;> omega

theorem civilDate_spec (days : ℤ) : civilDays (civilDate days) = days ∧
    1 ≤ (civilDate days).2.1 ∧ (civilDate days).2.1 ≤ 12 ∧ 1 ≤ (civilDate days).2.2 ∧
      (civilDate days).2.2 ≤ 31 := by
  have h0 : 0 ≤ (days + 306) % 146097 := by omega
  have h1 : (days + 306) % 146097 < 146097 := by omega
  have hera : days + 306 = 146097 * ((days + 306) / 146097) + (days + 306) % 146097 := by omega
  simp only [civilDate]
  generalize (days + 306) % 146097 = doe at *
  generalize (days + 306) / 146097 = era at *
  obtain ⟨hb0, hb1⟩ := dayOfYear_bounds h0 h1 rfl
  have hy : 0 ≤ (doe - doe / 1460 + doe / 36524 - doe / 146096) / 365 ∧
      (doe - doe / 1460 + doe / 36524 - doe / 146096) / 365 ≤ 399 := by omega
  generalize (doe - doe / 1460 + doe / 36524 - doe / 146096) / 365 = yoe at *
  generalize hdoy : doe - (365 * yoe + yoe / 4 - yoe / 100) = doy at *
  have hmp : 0 ≤ (5 * doy + 2) / 153 ∧ (5 * doy + 2) / 153 ≤ 11 := by omega
  have hday : 1 ≤ doy - (153 * ((5 * doy + 2) / 153) + 2) / 5 + 1 ∧
      doy - (153 * ((5 * doy + 2) / 153) + 2) / 5 + 1 ≤ 31 := by omega
  generalize (5 * doy + 2) / 153 = mp at *
  have hq : ∀ y, y = 400 * era + yoe → y / 400 = era ∧ y % 400 = yoe := by intro y hy'; omega
  refine ⟨?_, ?_, ?_, hday.1, hday.2⟩
  · simp only [civilDays]
    by_cases hm : mp < 10
    · simp only [hm, if_true, show ¬ (mp + 3 ≤ 2) by omega, if_false]
      obtain ⟨e1, e2⟩ := hq (400 * era + yoe + 0) (by omega)
      rw [e1, e2]
      omega
    · simp only [hm, if_false, show mp - 9 ≤ 2 by omega, if_true]
      obtain ⟨e1, e2⟩ := hq (400 * era + yoe + 1 - 1) (by omega)
      rw [e1, e2]
      omega
  · split <;> omega
  · split <;> omega

/-- The text of a time from its fields. -/
def timeText (year month day hours minutes seconds nanos : ℕ) : List Char :=
  '\x22' :: (padded 4 year ++ '-' :: (padded 2 month ++ '-' :: (padded 2 day ++
    'T' :: (padded 2 hours ++
    ':' :: (padded 2 minutes ++ ':' :: (padded 2 seconds ++ (fractionText nanos ++ ['Z', '\x22'])))))))

theorem timeText_injective {y d h i s y' m' d' h' i' s' n' : ℕ} (hy : y < 10000 ∧ y' < 10000)
    (hm : m < 100 ∧ m' < 100) (hd : d < 100 ∧ d' < 100) (hh : h < 100 ∧ h' < 100)
    (hi : i < 100 ∧ i' < 100) (hs : s < 100 ∧ s' < 100) (hn : n < 1000000000 ∧ n' < 1000000000)
    (he : timeText y m d h i s n = timeText y' m' d' h' i' s' n') :
    y = y' ∧ m = m' ∧ d = d' ∧ h = h' ∧ i = i' ∧ s = s' ∧ n = n' := by
  have w4 : (10 : ℕ) ^ 4 = 10000 := rfl
  have w2 : (10 : ℕ) ^ 2 = 100 := rfl
  have w9 : (10 : ℕ) ^ 9 = 1000000000 := rfl
  obtain ⟨e1, he⟩ := padded_split (w4 ▸ hy.1) (w4 ▸ hy.2) (cons.inj he).2
  obtain ⟨e2, he⟩ := padded_split (w2 ▸ hm.1) (w2 ▸ hm.2) (cons.inj he).2
  obtain ⟨e3, he⟩ := padded_split (w2 ▸ hd.1) (w2 ▸ hd.2) (cons.inj he).2
  obtain ⟨e4, he⟩ := padded_split (w2 ▸ hh.1) (w2 ▸ hh.2) (cons.inj he).2
  obtain ⟨e5, he⟩ := padded_split (w2 ▸ hi.1) (w2 ▸ hi.2) (cons.inj he).2
  obtain ⟨e6, he⟩ := padded_split (w2 ▸ hs.1) (w2 ▸ hs.2) (cons.inj he).2
  exact ⟨e1, e2, e3, e4, e5, e6, fractionText_injective (w9 ▸ hn.1) (w9 ▸
    hn.2) (append_cancel_right he)⟩

theorem marshalTime_text {t : Time} (h : marshalTime t = .ok text) :
    0 ≤ (civilDate (t.nanos / (24 * hour))).1 ∧ (civilDate (t.nanos / (24 * hour))).1 ≤ 9999 ∧
    text = timeText (civilDate (t.nanos / (24 * hour))).1.toNat
      (civilDate (t.nanos / (24 * hour))).2.1.toNat
      (civilDate (t.nanos / (24 * hour))).2.2.toNat (t.nanos % (24 * hour) / hour).toNat
      (t.nanos % (24 * hour) % hour / minute).toNat (t.nanos % (24 * hour) % minute / second).toNat
      (t.nanos % (24 * hour) % second).toNat := by
  unfold marshalTime at h
  simp only at h
  split at h
  · cases h
  · exact ⟨by omega, by omega, (ok.inj h).symm⟩

/-- **A time can be read back from its text.** -/
theorem marshalTime_injective {t u : Time} (ht : marshalTime t = .ok text)
    (hu : marshalTime u = .ok text) :
    t.nanos = u.nanos := by
  obtain ⟨ct, t1, t2, t3, t4⟩ := civilDate_spec (t.nanos / (24 * hour))
  obtain ⟨cu, u1, u2, u3, u4⟩ := civilDate_spec (u.nanos / (24 * hour))
  obtain ⟨yt0, yt1, rfl⟩ := marshalTime_text ht
  obtain ⟨yu0, yu1, h⟩ := marshalTime_text hu
  have hcl : ∀ z : ℤ, 0 ≤ z % (24 * hour) / hour ∧ z % (24 * hour) / hour < 24 ∧
      0 ≤ z % (24 * hour) % hour / minute ∧ z % (24 * hour) % hour / minute < 60 ∧
      0 ≤ z % (24 * hour) % minute / second ∧ z % (24 * hour) % minute / second < 60 ∧
      0 ≤ z % (24 * hour) % second ∧ z % (24 * hour) % second < 1000000000 := by
    intro z
    simp only [hour, minute, second, millisecond]
    omega
  have hk := hcl t.nanos
  have hk' := hcl u.nanos
  obtain ⟨e1, e2, e3, e4, e5, e6, e7⟩ := timeText_injective ⟨by omega, by omega⟩ ⟨by omega, by omega⟩
    ⟨by omega, by omega⟩ ⟨by omega, by omega⟩ ⟨by omega, by omega⟩ ⟨by omega, by omega⟩
    ⟨by omega, by omega⟩ h
  have hda : civilDate (t.nanos / (24 * hour)) = civilDate (u.nanos / (24 * hour)) :=
    Prod.ext (by omega) (Prod.ext (by omega) (by omega))
  have hdays : t.nanos / (24 * hour) = u.nanos / (24 * hour) := by rw [← ct, hda, cu]
  have f4 : t.nanos % (24 * hour) / hour = u.nanos % (24 * hour) / hour := by omega
  have f5 : t.nanos % (24 * hour) % hour / minute = u.nanos % (24 * hour) % hour / minute := by omega
  have f6 : t.nanos % (24 * hour) % minute / second = u.nanos % (24 * hour) % minute / second := by
    omega
  have f7 : t.nanos % (24 * hour) % second = u.nanos % (24 * hour) % second := by omega
  clear h e1 e2 e3 e4 e5 e6 e7 hk hk' hcl
  simp only [hour, minute, second, millisecond] at hdays f4 f5 f6 f7
  omega

/-! ## Envelopes -/

theorem isValue_envelope (e : Envelope) : IsValue e.marshal :=
  isValue_object (by simp [IsMember, isValue_int, isValue_bool])

theorem Envelope.marshal_injective {e e' : Envelope} (h : e.marshal = e'.marshal) : e = e' := by
  have hm := (jsonObject_split (by simp [IsMember, isValue_int, isValue_bool])
    (by simp [IsMember, isValue_int, isValue_bool]) (congrArg (· ++ []) h)).1
  simp only [cons.injEq, Prod.mk.injEq, true_and, and_true] at hm
  obtain ⟨h1, h2, h3, h4, h5, h6, h7⟩ := hm
  have hb : e.heavyweight = e'.heavyweight := by
    revert h7
    cases e.heavyweight <;> cases e'.heavyweight <;> decide
  cases e
  cases e'
  simp only [Envelope.mk.injEq]
  exact ⟨jsonInt_injective h1, jsonInt_injective h2, jsonInt_injective h3, jsonInt_injective h4,
    jsonInt_injective h5, jsonInt_injective h6, hb⟩

/-! ## Records -/

theorem unescaped_padded (width n : ℕ) : ∀ c ∈ padded width n, Unescaped c := by
  have hdi : ∀ d < 10, Unescaped (Nat.digitChar d) := by
    unfold Unescaped
    decide
  induction width generalizing n with
  | zero => exact fun c hc => nomatch hc
  | succ width ih =>
    rw [padded, forall_mem_append, forall_mem_singleton]
    exact ⟨ih _, hdi _ (Nat.mod_lt _ (by decide))⟩

theorem unescaped_fractionText (n : ℕ) : ∀ c ∈ fractionText n, Unescaped c := by
  intro c hc
  unfold fractionText at hc
  split at hc
  · cases hc
  · rcases mem_cons.1 hc with rfl | hc
    · exact .inl (by decide)
    · have hd := (dropWhile_sublist _).subset (mem_reverse.1 hc)
      exact unescaped_padded _ _ c (mem_reverse.1 hd)

theorem isValue_time {t : Time} (h : marshalTime t = .ok text) : IsValue text := by
  obtain ⟨-, -, rfl⟩ := marshalTime_text h
  have hma : ∀ c ∈ ['-', 'T', ':', 'Z'], Unescaped c := by
    simp [Unescaped]
  simp only [forall_mem_cons] at hma
  obtain ⟨hda, ht, hco, hz, hnil⟩ := hma
  have hpad := unescaped_padded
  rw [show ∀ y m d h i s n, timeText y m d h i s n =
    '\x22' :: ((padded 4 y ++ '-' :: (padded 2 m ++ '-' ::
    (padded 2 d ++ 'T' :: (padded 2 h ++ ':' :: (padded 2 i ++
      ':' :: (padded 2 s ++ (fractionText n ++ ['Z']))))))) ++
    ['\x22']) by simp [timeText]]
  apply isValue_unescaped
  simp only [forall_mem_append, forall_mem_cons]
  exact ⟨hpad _ _, hda, hpad _ _, hda, hpad _ _, ht, hpad _ _, hco, hpad _ _, hco, hpad _ _,
    unescaped_fractionText _, hz, hnil⟩

/-- The members of a record's object, with the texts of its times. -/
def recordMembers (r : Record) (recordedAt expiresAt : List Char) : List (String × List Char) :=
  [("schema_version", jsonInt r.schemaVersion), ("sequence", jsonInt r.sequence),
    ("type", jsonString r.type.text), ("recorded_at", recordedAt)] ++
  omitEmpty "record_class" r.recordClass.text ++
  omitEmpty "credential_id" r.credentialID ++
  omitEmpty "attempt_id" r.attemptID ++
  omitEmpty "context_digest" r.contextDigest ++
  omitEmpty "owner_instance_id" r.ownerInstanceID ++
  omitEmpty "scope" r.scope.text ++
  [("expires_at", expiresAt), ("envelope", r.envelope.marshal)] ++
  omitEmpty "reason" r.reason.text ++
  omitEmpty "reset_note" r.resetNote

theorem marshal_members (h : r.marshal = .ok text) :
    ∃ t u, marshalTime r.recordedAt = .ok t ∧ marshalTime r.expiresAt = .ok u ∧
      text = jsonObject (recordMembers r t u) := by
  simp only [Record.marshal, bind_ok_iff, ok.injEq] at h
  obtain ⟨t, ht, u, hu, rfl⟩ := h
  exact ⟨t, u, ht, hu, rfl⟩

theorem members_record {u : List Char} (ht : marshalTime r.recordedAt = .ok t)
    (hu : marshalTime r.expiresAt = .ok u) : Members (recordMembers r t u) := by
  simp [recordMembers, members_omitEmpty, IsMember, IsValue.string, isValue_int, isValue_time ht,
    isValue_time hu, isValue_envelope]

theorem isValue_record (h : r.marshal = .ok text) : IsValue text := by
  obtain ⟨t, u, ht, hu, rfl⟩ := marshal_members h
  exact isValue_object (members_record ht hu)

theorem lookup_omitEmpty (k key text : String) : (omitEmpty key text).lookup k =
    if k = key ∧ text ≠ "" then some (jsonString text) else none := by
  unfold omitEmpty
  by_cases ht : text = "" <;> by_cases hk : k = key <;> simp [ht, hk]

theorem jsonString_injective {s t : String} (h : jsonString s = jsonString t) : s = t :=
  (jsonString_split (t := []) ((append_nil _).trans (h.trans (append_nil _).symm))).1

/-- An optional string can be read back. -/
theorem optional_injective {s t : String}
    (h : (if s = "" then none else some (jsonString s)) = if t = "" then none
      else some (jsonString t)) :
    s = t := by
  split at h
  · split at h
    · simp [*]
    · cases h
  · split at h
    · cases h
    · exact jsonString_injective (Option.some.inj h)

theorem recordMembers_injective {u t' u' : List Char}
    (h : recordMembers r t u = recordMembers r' t' u') :
    r.schemaVersion = r'.schemaVersion ∧ r.sequence = r'.sequence ∧ r.type.text = r'.type.text ∧
      t = t' ∧
    r.recordClass.text = r'.recordClass.text ∧ r.credentialID = r'.credentialID ∧
      r.attemptID = r'.attemptID ∧
    r.contextDigest = r'.contextDigest ∧ r.ownerInstanceID = r'.ownerInstanceID ∧
      r.scope.text = r'.scope.text ∧
    u = u' ∧ r.envelope = r'.envelope ∧ r.reason.text = r'.reason.text ∧
      r.resetNote = r'.resetNote := by
  have hl : ∀ key, (recordMembers r t u).lookup key = (recordMembers r' t' u').lookup key := by
    intro key; rw [h]
  have l1 := hl "schema_version"
  have l2 := hl "sequence"
  have l3 := hl "type"
  have l4 := hl "recorded_at"
  have l5 := hl "record_class"
  have l6 := hl "credential_id"
  have l7 := hl "attempt_id"
  have l8 := hl "context_digest"
  have l9 := hl "owner_instance_id"
  have l10 := hl "scope"
  have l11 := hl "expires_at"
  have l12 := hl "envelope"
  have l13 := hl "reason"
  have l14 := hl "reset_note"
  simp [recordMembers, lookup_append, lookup_omitEmpty,
    lookup_cons] at l1 l2 l3 l4 l5 l6 l7 l8 l9 l10 l11 l12 l13 l14
  exact ⟨jsonInt_injective l1, Int.ofNat.inj (jsonInt_injective l2), jsonString_injective l3, l4,
    optional_injective l5, optional_injective l6, optional_injective l7, optional_injective l8,
    optional_injective l9, optional_injective l10, l11, Envelope.marshal_injective l12,
    optional_injective l13, optional_injective l14⟩

def knownTypes : List PairingRecordType :=
  [.init, .rebuildBaseline, .burnAndAdmit, .finish, .circuitReset]

def knownReasons : List TerminalReason :=
  [.none, .success, .cancelled, .expired, .protocolError, .scopeChanged, .carrierError]

theorem RecordClass.mem_of_valid {c : RecordClass} (h : c.valid = true) :
    c ∈ [RecordClass.ordinary, .hardNATCampaign] := by
  simpa [RecordClass.valid] using h

theorem TerminalReason.mem_of_valid {reason : TerminalReason} (h : reason.valid = true) :
    reason ∈ knownReasons := by
  cases reason <;> simp_all [TerminalReason.valid, knownReasons]

theorem scope_of_noAdmissionFields (h : r.noAdmissionFields = true) : r.scope = .empty := by
  simp only [Record.noAdmissionFields, Bool.and_eq_true, beq_iff_eq] at h
  exact h.1.1.2

/-- A valid record holds no unknown text of an enumeration. -/
theorem valid_known (h : validatePairingJournalRecord r = .ok ()) : r.type ∈ knownTypes ∧
    r.recordClass ∈ [RecordClass.ordinary, .hardNATCampaign] ∧ r.reason ∈ knownReasons ∧
    r.scope ∈ [Scope.machine, .empty] := by
  have hin : ∀ {e : RecordErr}, failIf (r.recordClass ≠ .ordinary ∨ r.credentialID ≠ "" ∨
    r.attemptID ≠ "" ∨
      ¬ r.noAdmissionFields ∨ r.reason ≠ .none ∨ r.resetNote ≠ "") e = .ok () →
      r.recordClass ∈ [RecordClass.ordinary, .hardNATCampaign] ∧ r.reason ∈ knownReasons ∧
        r.scope ∈ [Scope.machine, .empty] := by
    intro e he
    simp only [failIf_ok_iff, not_or, not_not] at he
    obtain ⟨hc, -, -, hf, hr, -⟩ := he
    rw [hc, hr, scope_of_noAdmissionFields hf]
    decide
  simp only [validatePairingJournalRecord, bind_ok_iff] at h
  obtain ⟨-, -, -, -, -, -, h⟩ := h
  unfold validateRecordFields at h
  split at h
  all_goals rename_i ht
  · exact ⟨by rw [ht]; decide, hin h⟩
  · exact ⟨by rw [ht]; decide, hin h⟩
  · simp only [validatePairingAdmissionRequest, bind_ok_iff, failIf_ok_iff, not_or, not_not] at h
    obtain ⟨-, ⟨-, hc, -, hs, -⟩, -, -, -, -, hr, -⟩ := h
    have hs' : r.scope = .machine := hs
    rw [ht, hr, hs']
    exact ⟨by decide, RecordClass.mem_of_valid hc, by decide, by decide⟩
  · simp only [bind_ok_iff, failIf_ok_iff, not_or, not_not] at h
    obtain ⟨-, hc, -, -, -, -, -, hr, hf, -⟩ := h
    rw [ht, scope_of_noAdmissionFields hf]
    exact ⟨by decide, RecordClass.mem_of_valid hc, TerminalReason.mem_of_valid hr, by decide⟩
  · simp only [bind_ok_iff, failIf_ok_iff, not_or, not_not] at h
    obtain ⟨-, hc, -, -, -, -, hf, hr⟩ := h
    rw [ht, scope_of_noAdmissionFields hf, hr]
    exact ⟨by decide, RecordClass.mem_of_valid hc, by decide, by decide⟩
  · cases h

section

variable (hv : validatePairingJournalRecord r = .ok ()) (hv' : validatePairingJournalRecord r' =
  .ok ()) (hu : r.expiresAt.isUTC = true) (hu' : r'.expiresAt.isUTC = true)

include hv hv' hu hu'

/-- **A valid record can be read back from its text.** -/
theorem Record.marshal_injective (h : r.marshal = .ok text) (h' : r'.marshal = .ok text) :
    r = r' := by
  obtain ⟨t, u, ht, hu1, rfl⟩ := marshal_members h
  obtain ⟨t', u', ht', hu1', he⟩ := marshal_members h'
  have hm : recordMembers r t u = recordMembers r' t' u' :=
    (jsonObject_split (members_record ht hu1) (members_record ht' hu1') (congrArg (· ++ []) he)).1
  obtain ⟨e1, e2, e3, rfl, e5, e6, e7, e8, e9, e10, rfl, e12, e13, e14⟩ := recordMembers_injective hm
  obtain ⟨k1, k2, k3, k4⟩ := valid_known hv
  obtain ⟨k1', k2', k3', k4'⟩ := valid_known hv'
  have hty : ∀ a ∈ knownTypes, ∀ b ∈ knownTypes, a.text = b.text → a = b := by decide
  have hcla : ∀ a ∈ [RecordClass.ordinary, .hardNATCampaign], ∀ b ∈ [RecordClass.ordinary,
    .hardNATCampaign],
      a.text = b.text → a = b := by decide
  have hrea : ∀ a ∈ knownReasons, ∀ b ∈ knownReasons, a.text = b.text → a = b := by decide
  have hsco : ∀ a ∈ [Scope.machine, .empty], ∀ b ∈ [Scope.machine, .empty], a.text = b.text →
    a = b := by
    decide
  have hti : ∀ {s s' : Time}, s.nanos = s'.nanos → s.isUTC = true → s'.isUTC = true → s = s' := by
    rintro ⟨_, _⟩ ⟨_, _⟩ rfl rfl rfl
    rfl
  have hrec := hti (marshalTime_injective ht ht') (valid_time hv).2 (valid_time hv').2
  have hexp := hti (marshalTime_injective hu1 hu1') hu hu'
  cases r
  cases r'
  simp only [Record.mk.injEq]
  exact ⟨e1, e2, hty _ k1 _ k1' e3, hrec, hcla _ k2 _ k2' e5, e6, e7, e8, e9, hsco _ k4 _ k4' e10,
    hexp, e12, hrea _ k3 _ k3' e13, e14⟩

/-! ## Frames -/

/-- **A frame determines its record and checksum.** -/
theorem marshalFrame_injective {checksum checksum' : List Char}
    (hc : ∀ c ∈ checksum, (fromHexChar c).isSome = true)
    (hc' : ∀ c ∈ checksum', (fromHexChar c).isSome = true) (h : marshalFrame r checksum = .ok text)
    (h' : marshalFrame r' checksum' = .ok text) : r = r' ∧ checksum = checksum' := by
  simp only [marshalFrame, bind_ok_iff, ok.injEq] at h h'
  obtain ⟨p, hp, rfl⟩ := h
  obtain ⟨p', hp', he⟩ := h'
  obtain ⟨rfl, hsum, -⟩ := sealed_split (isValue_record hp) (isValue_record hp') hc hc'
    (congrArg (· ++ []) he.symm)
  exact ⟨Record.marshal_injective hv hv' hu hu' hp hp', hsum⟩

end

/-- A record and a checksum with the frame text of some bytes. -/
def IsFrame (payload : Bytes) (p : Record × List Char) : Prop :=
  validatePairingJournalRecord p.1 = .ok () ∧ p.1.expiresAt.isUTC = true ∧
    (∀ c ∈ p.2, (fromHexChar c).isSome = true) ∧ ∃ text, marshalFrame p.1 p.2 = .ok text ∧
      utf8 text = payload

open Classical in
/-- **A decoder with the round trip**: it finds the record of a frame. -/
noncomputable def frameDecoder : FrameDecoder where
  decode payload :=
    if h : ∃ p, IsFrame payload p then .ok h.choose else .error (.plain "decode pairing journal frame")
  round_trip := by
    intro r checksum text hv hu _ hc ht
    have hc' : ∀ c ∈ checksum, (fromHexChar c).isSome = true := by simpa using hc
    have hex : ∃ p, IsFrame (utf8 text) p := ⟨(r, checksum), hv, hu, hc', text, ht, rfl⟩
    obtain ⟨hv2, hu2, hc2, text2, ht2, he⟩ := hex.choose_spec
    rw [utf8_injective he] at ht2
    obtain ⟨h1, h2⟩ := marshalFrame_injective hv2 hv hu2 hu hc2 hc' ht2 ht
    rw [dif_pos hex]
    exact congrArg ok (Prod.ext h1 h2)

end Winkyou
