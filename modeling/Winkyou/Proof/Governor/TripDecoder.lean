import Winkyou.Proof.Ledger.Decoder
import Winkyou.Spec.Governor.TripStore

/-!
# A trip record can be read back

* `utf8_comparable`: of two texts whose bytes start one input, one starts the other.
* `marshalEnvelope_split`: an envelope ends where its text ends, and determines its record and
  checksum.
* `envelopeDecoder`: so a decoder with the round trip of `EnvelopeDecoder` exists.
-/

namespace Winkyou.TripStore

open List
open Except (bind_ok_iff failIf_ok_iff mapError_ok_iff)

/-! ## Bytes -/

theorem utf8_cons (c : Char) (t : List Char) : utf8 (c :: t) = String.utf8EncodeChar c ++ utf8 t :=
  rfl

/-- The first character of an input is known from its bytes. -/
theorem utf8EncodeChar_split {c d : Char} {r r' : Bytes}
    (h : String.utf8EncodeChar c ++ r = String.utf8EncodeChar d ++ r') : c = d ∧ r = r' := by
  have hdec : ∀ (c : Char) (r : Bytes), (String.utf8EncodeChar c ++ r).toByteArray.utf8DecodeChar?
    0 = some c := by
    intro c r
    rw [toByteArray_append]
    exact ByteArray.utf8DecodeChar?_utf8EncodeChar_append
  have hc := hdec c r
  rw [h, hdec d r'] at hc
  obtain rfl := Option.some.inj hc
  exact ⟨rfl, append_cancel_left h⟩

theorem utf8_comparable {t u : List Char} {r r' : Bytes} (h : utf8 t ++ r = utf8 u ++ r') :
    t <+: u ∨ u <+: t := by
  induction t generalizing u with
  | nil => exact .inl (List.nil_prefix)
  | cons c t ih =>
    cases u with
    | nil => exact .inr (List.nil_prefix)
    | cons d u =>
      rw [utf8_cons, utf8_cons, append_assoc, append_assoc] at h
      obtain ⟨rfl, hre⟩ := utf8EncodeChar_split h
      exact (ih hre).imp (prefix_cons_inj c).2 (prefix_cons_inj c).2

/-! ## Records -/

/-- The members of a record's object after the first, with the text of its time. -/
def tripMembers (r : SafetyTripRecord) (updatedAt : List Char) : List (String × List Char) :=
  [("state", jsonString r.state.text), ("sequence", jsonInt r.sequence),
    ("updated_at", updatedAt)] ++ omitEmpty "reason" r.reason.text ++
    omitEmpty "detail" r.detail ++
    omitEmpty "peer_id" r.peerID ++
    omitEmpty "attempt_id" r.attemptID ++
    omitEmpty "build_version" r.buildVersion ++
    omitEmpty "reset_note" r.resetNote

variable {r r' : SafetyTripRecord} {t t' text text' checksum checksum' rest rest' : List Char}

theorem marshal_members (h : r.marshal = .ok text) : ∃ t, marshalTime r.updatedAt = .ok t ∧
    text = jsonObject (("schema_version", jsonInt r.schemaVersion) :: tripMembers r t) := by
  simp only [SafetyTripRecord.marshal, bind_ok_iff, mapError_ok_iff, Except.ok.injEq] at h
  obtain ⟨t, ht, rfl⟩ := h
  exact ⟨t, ht, rfl⟩

theorem members_record (ht : marshalTime r.updatedAt = .ok t) :
    Members (("schema_version", jsonInt r.schemaVersion) :: tripMembers r t) := by
  simp [tripMembers, members_omitEmpty, IsMember, IsValue.string, isValue_int, isValue_time ht]

theorem tripMembers_injective (h : tripMembers r t = tripMembers r' t') :
    r.state.text = r'.state.text ∧ r.sequence = r'.sequence ∧ t = t' ∧ r.reason.text =
      r'.reason.text ∧ r.detail = r'.detail ∧ r.peerID = r'.peerID ∧ r.attemptID = r'.attemptID ∧
      r.buildVersion = r'.buildVersion ∧ r.resetNote = r'.resetNote := by
  have hl : ∀ key, (tripMembers r t).lookup key = (tripMembers r' t').lookup key := by
    intro key
    rw [h]
  have l1 := hl "state"
  have l2 := hl "sequence"
  have l3 := hl "updated_at"
  have l4 := hl "reason"
  have l5 := hl "detail"
  have l6 := hl "peer_id"
  have l7 := hl "attempt_id"
  have l8 := hl "build_version"
  have l9 := hl "reset_note"
  simp [tripMembers, lookup_append, lookup_omitEmpty, lookup_cons] at l1 l2 l3 l4 l5 l6 l7 l8 l9
  exact ⟨jsonString_injective l1, Int.ofNat.inj (jsonInt_injective l2), l3, optional_injective l4,
    optional_injective l5, optional_injective l6, optional_injective l7, optional_injective l8,
    optional_injective l9⟩

/-! ## Valid records -/

section

variable (h : validateSafetyTripRecord r = .ok ())

include h

theorem valid_version : r.schemaVersion = safetyTripSchemaVersion := by
  simp only [validateSafetyTripRecord, bind_ok_iff, failIf_ok_iff] at h
  obtain ⟨-, hver, -⟩ := h
  exact not_not.1 hver

theorem valid_state : validateRecordState r = .ok () := by
  simp only [validateSafetyTripRecord, bind_ok_iff] at h
  obtain ⟨-, -, -, -, -, -, -, -, -, -, -, -, -, -, h⟩ := h
  exact h

theorem valid_tripped (hs : r.state = .tripped) : r.sequence ≠ 0 := by
  have hst := valid_state h
  rw [validateRecordState, hs] at hst
  simp only [bind_ok_iff, failIf_ok_iff] at hst
  obtain ⟨-, -, -, hze, -⟩ := hst
  exact hze

end

/-- The reasons that a valid record can have. -/
def knownReasons : List SafetyTripReason :=
  [.unknown "", .resourceExhausted, .writeFailures, .hardLimit, .cancellation,
  .staleGeneration, .operator]

theorem valid_known (h : validateSafetyTripRecord r = .ok ()) :
    r.state ∈ [RecordState.clear, .tripped] ∧ r.reason ∈ knownReasons := by
  have hst := valid_state h
  unfold validateRecordState at hst
  split at hst
  all_goals rename_i hs
  · simp only [bind_ok_iff, failIf_ok_iff, not_or, not_not] at hst
    obtain ⟨-, ⟨hrea, -⟩, -⟩ := hst
    rw [hs]
    refine ⟨by decide, ?_⟩
    revert hrea
    cases r.reason with
    | unknown text =>
      intro hrea
      rw [show text = "" from hrea]
      decide
    | _ => decide
  · simp only [bind_ok_iff, failIf_ok_iff] at hst
    obtain ⟨-, hrea, -⟩ := hst
    rw [hs]
    refine ⟨by decide, ?_⟩
    revert hrea
    cases r.reason with
    | unknown text => exact fun h => absurd rfl h
    | _ => decide
  · exact absurd hst (by simp)

section

variable (hv : validateSafetyTripRecord r = .ok ()) (hv' : validateSafetyTripRecord r' = .ok ())
  (hu : r.updatedAt.isUTC = true) (hu' : r'.updatedAt.isUTC = true)

include hv hv' hu hu'

theorem fields_injective (ht : marshalTime r.updatedAt = .ok t)
    (ht' : marshalTime r'.updatedAt = .ok t') (h : tripMembers r t = tripMembers r' t') :
    r = r' := by
  obtain ⟨e1, e2, rfl, e4, e5, e6, e7, e8, e9⟩ := tripMembers_injective h
  have hsta : ∀ a ∈ [RecordState.clear, .tripped], ∀ b ∈ [RecordState.clear, .tripped],
    a.text = b.text → a = b := by
    decide
  have hrea : ∀ a ∈ knownReasons, ∀ b ∈ knownReasons, a.text = b.text → a = b := by decide
  have hst := hsta _ (valid_known hv).1 _ (valid_known hv').1 e1
  have hreas := hrea _ (valid_known hv).2 _ (valid_known hv').2 e4
  have hver := (valid_version hv).trans (valid_version hv').symm
  have hti : r.updatedAt = r'.updatedAt := by
    have hna := marshalTime_injective ht ht'
    cases hr : r.updatedAt
    cases hr' : r'.updatedAt
    simp_all
  cases r
  cases r'
  simp only [SafetyTripRecord.mk.injEq]
  exact ⟨hver, hst, e2, hti, hreas, e5, e6, e7, e8, e9⟩

/-! ## Envelopes -/

/-- **An envelope ends where its text ends**, and determines its record and its checksum. -/
theorem marshalEnvelope_split (hc : ∀ c ∈ checksum, (fromHexChar c).isSome = true)
    (hc' : ∀ c ∈ checksum', (fromHexChar c).isSome = true)
    (h : marshalEnvelope r checksum = .ok text) (h' : marshalEnvelope r' checksum' = .ok text')
    (heq : text ++ rest = text' ++ rest') : r = r' ∧ checksum = checksum' ∧ rest = rest' := by
  simp only [marshalEnvelope, bind_ok_iff, Except.ok.injEq] at h h'
  obtain ⟨p, hp, rfl⟩ := h
  obtain ⟨p', hp', rfl⟩ := h'
  obtain ⟨t, ht, rfl⟩ := marshal_members hp
  obtain ⟨t', ht', rfl⟩ := marshal_members hp'
  obtain ⟨hrec, hsum, hre⟩ := sealed_split (isValue_object (members_record ht))
    (isValue_object (members_record ht')) hc hc' heq
  obtain ⟨hmem, -⟩ := jsonObject_split (members_record ht) (members_record ht') (congrArg (· ++
    []) hrec)
  exact ⟨fields_injective hv hv' hu hu' ht ht' (List.cons.inj hmem).2, hsum, hre⟩

end

/-- The envelope at the start of some bytes. -/
def IsEnvelope (payload : Bytes) (p : SafetyTripRecord × List Char × Bytes) : Prop :=
  validateSafetyTripRecord p.1 = .ok () ∧ p.1.updatedAt.isUTC = true ∧
    (∀ c ∈ p.2.1, (fromHexChar c).isSome = true) ∧
    ∃ text, marshalEnvelope p.1 p.2.1 = .ok text ∧ utf8 text ++ p.2.2 = payload

theorem isEnvelope_unique {payload : Bytes} {p q : SafetyTripRecord × List Char × Bytes}
    (hp : IsEnvelope payload p) (hq : IsEnvelope payload q) : p = q := by
  obtain ⟨r, checksum, rest⟩ := p
  obtain ⟨r', checksum', rest'⟩ := q
  obtain ⟨hv, hu, hc, text, ht, hby⟩ := hp
  obtain ⟨hv', hu', hc', text', ht', hby'⟩ := hq
  dsimp only at *
  have hall := hby.trans hby'.symm
  -- one of the texts starts with the other, and then they are the same
  rcases utf8_comparable hall with ⟨x, rfl⟩ | ⟨x, rfl⟩
  · obtain ⟨rfl, rfl, hx⟩ := marshalEnvelope_split hv hv' hu hu' hc hc' ht ht' (append_nil _).symm
    subst hx
    rw [append_nil] at hall
    rw [append_cancel_left hall]
  · obtain ⟨rfl, rfl, hx⟩ := marshalEnvelope_split hv' hv hu' hu hc' hc ht' ht (append_nil _).symm
    subst hx
    rw [append_nil] at hall
    rw [append_cancel_left hall]

open Classical in
/-- **A decoder with the round trip**: it finds the envelope at the start of its input. -/
noncomputable def envelopeDecoder : EnvelopeDecoder where
  decode payload :=
    if h : ∃ p, IsEnvelope payload p then .ok h.choose else .error (.plain "decode envelope")
  round_trip := by
    intro r checksum text rest hv hu _ hc ht
    have hown : IsEnvelope (utf8 text ++ rest) (r, checksum, rest) := ⟨hv, hu, hc, text, ht, rfl⟩
    have hex : ∃ p, IsEnvelope (utf8 text ++ rest) p := ⟨_, hown⟩
    rw [dif_pos hex]
    exact congrArg Except.ok (isEnvelope_unique hex.choose_spec hown)

end Winkyou.TripStore
