import Mathlib.Tactic
import Mathlib.Data.Nat.Digits.Defs
import Winkyou.Spec.Ledger.Frame

/-!
# The text codecs

* `base64Decode_encode`: decoding an encoded byte string gives it back.
* Lengths of the JSON texts of a record, from its members (`jsonObject_length`), and of
  their bytes (`utf8_length`).
-/

namespace Winkyou

open List Except
open Except (bind_ok_iff failIf_ok_iff)
open Option (bind_eq_bind bind_some)

variable {n : ℕ} {sha : Sha256} {frame : Bytes}

/-! ## `base64` -/

theorem base64Value_char (h : n < 64) : base64Value (base64Char n) = some n := by
  revert n
  decide

theorem base64Char_not_lineEnd (h : n < 64) : base64Char n ≠ '\r' ∧ base64Char n ≠ '\n' := by
  revert n
  decide

theorem base64Encode_no_lineEnd (bs : Bytes) : ∀ c ∈ base64Encode bs, c ≠ '\r' ∧ c ≠ '\n' := by
  have hlt : ∀ a : UInt8, a.toNat < 256 := fun a => a.toNat_lt
  fun_induction base64Encode bs with
  | case1 => simp
  | case2 a =>
    have ha := hlt a
    simp only [mem_cons, not_mem_nil, or_false, forall_eq_or_imp, forall_eq]
    exact ⟨base64Char_not_lineEnd (by omega), base64Char_not_lineEnd (by omega)⟩
  | case3 a b =>
    have ha := hlt a
    have hb := hlt b
    simp only [mem_cons, not_mem_nil, or_false, forall_eq_or_imp, forall_eq]
    exact ⟨base64Char_not_lineEnd (by omega), base64Char_not_lineEnd (by omega),
      base64Char_not_lineEnd (by omega)⟩
  | case4 a b c rest ih =>
    have ha := hlt a
    have hb := hlt b
    have hc := hlt c
    simp only [mem_cons, forall_eq_or_imp]
    exact ⟨base64Char_not_lineEnd (by omega), base64Char_not_lineEnd (by omega),
      base64Char_not_lineEnd (by omega), base64Char_not_lineEnd (by omega), ih⟩

theorem ofNat_eq_of_toNat {a : UInt8} (h : n = a.toNat) : UInt8.ofNat n = a := by
  rw [h, UInt8.ofNat_toNat]

theorem base64Quanta_encode (bs : Bytes) : base64Quanta (base64Encode bs) = some bs := by
  have hlt : ∀ a : UInt8, a.toNat < 256 := fun a => a.toNat_lt
  fun_induction base64Encode bs with
  | case1 => rfl
  | case2 a =>
    have ha := hlt a
    simp only [base64Quanta, base64Value_char (show a.toNat / 4 < 64 by omega),
      base64Value_char (show a.toNat % 4 * 16 < 64 by omega), bind_eq_bind, bind_some]
    rw [ofNat_eq_of_toNat (a := a) (by omega)]
  | case3 a b =>
    have ha := hlt a
    have hb := hlt b
    simp only [base64Quanta, base64Value_char (show a.toNat / 4 < 64 by omega),
      base64Value_char (show a.toNat % 4 * 16 + b.toNat / 16 < 64 by omega),
      base64Value_char (show b.toNat % 16 * 4 < 64 by omega), bind_eq_bind, bind_some]
    rw [ofNat_eq_of_toNat (a := a) (by omega), ofNat_eq_of_toNat (a := b) (by omega)]
  | case4 a b c rest ih =>
    have ha := hlt a
    have hb := hlt b
    have hc := hlt c
    simp only [base64Quanta, base64Value_char (show a.toNat / 4 < 64 by omega),
      base64Value_char (show a.toNat % 4 * 16 + b.toNat / 16 < 64 by omega),
      base64Value_char (show b.toNat % 16 * 4 + c.toNat / 64 < 64 by omega),
      base64Value_char (show c.toNat % 64 < 64 by omega), ih, bind_eq_bind, bind_some]
    rw [ofNat_eq_of_toNat (a := a) (by omega), ofNat_eq_of_toNat (a := b) (by omega),
      ofNat_eq_of_toNat (a := c) (by omega)]

/-- **Decoding an encoded byte string gives it back.** -/
theorem base64Decode_encode (bs : Bytes) : base64Decode (base64Encode bs) = some bs := by
  unfold base64Decode
  rw [filter_eq_self.2, base64Quanta_encode]
  intro c hc
  obtain ⟨h1, h2⟩ := base64Encode_no_lineEnd bs c hc
  simp [h1, h2]

/-- Sixteen bytes make an opaque id. -/
theorem validatePairingOpaqueID_encode {bs : Bytes} (h : bs.length = 16) (field : String) :
    validatePairingOpaqueID field (String.ofList (base64Encode bs)) = .ok () := by
  simp [validatePairingOpaqueID, base64Decode_encode, h]

/-! ## `hex` -/

theorem fromHexChar_digitChar (h : n < 16) : fromHexChar (Nat.digitChar n) = some n := by
  revert n
  decide

theorem hexDecode_encode (bs : Bytes) : hexDecode (hexEncode bs) = some bs := by
  induction bs with
  | nil => rfl
  | cons b bs ih =>
    have hb : b.toNat < 256 := b.toNat_lt
    simp only [hexEncode, flatMap_cons, cons_append, nil_append, hexDecode] at ih ⊢
    rw [fromHexChar_digitChar (by omega), fromHexChar_digitChar (by omega), ih]
    simp only [bind_eq_bind, bind_some]
    rw [ofNat_eq_of_toNat (a := b) (by omega)]

theorem hexEncode_isHex (bs : Bytes) :
    (hexEncode bs).all (fun c => (fromHexChar c).isSome) = true := by
  simp only [hexEncode, all_eq_true, mem_flatMap]
  rintro c ⟨b, -, hc⟩
  have hb : b.toNat < 256 := b.toNat_lt
  simp only [mem_cons, not_mem_nil, or_false] at hc
  rcases hc with rfl | rfl
  · rw [fromHexChar_digitChar (by omega)]; rfl
  · rw [fromHexChar_digitChar (by omega)]; rfl

/-! ## `binary.BigEndian` -/

theorem uint32_putUint32 (h : n < 4294967296) :
    ∃ a b c d, putUint32 n = [a, b, c, d] ∧ uint32 a b c d = n := by
  refine ⟨_, _, _, _, rfl, ?_⟩
  simp only [uint32, UInt8.toNat_ofNat']
  omega

/-! ## Lengths -/

theorem jsonEscape_length (c : Char) : (jsonEscape c).length ≤ 6 := by
  unfold jsonEscape
  dsimp only
  repeat' split
  all_goals simp

theorem jsonString_length (s : String) : (jsonString s).length ≤ 6 * s.toList.length + 2 := by
  have h : (s.toList.flatMap jsonEscape).length ≤ 6 * s.toList.length := by
    induction s.toList with
    | nil => simp
    | cons c l ih =>
      have := jsonEscape_length c
      simp only [flatMap_cons, length_append, length_cons]
      omega
  simp only [jsonString, length_cons, length_append, length_nil]
  omega

/-- The text that a list of members adds to an object. -/
def membersLength (ms : List (String × List Char)) : ℕ :=
  (ms.map fun m => m.1.toList.length + m.2.length + 4).sum

@[simp] theorem membersLength_nil : membersLength [] = 0 := rfl

@[simp] theorem membersLength_cons (m : String × List Char) (ms : List (String × List Char)) :
    membersLength (m :: ms) = m.1.toList.length + m.2.length + 4 + membersLength ms := by
  simp [membersLength]

@[simp] theorem membersLength_append (ms ms' : List (String × List Char)) :
    membersLength (ms ++ ms') = membersLength ms + membersLength ms' := by
  simp [membersLength]

/-- **The length of an object**: a quoted key, a colon and a separator for each member. -/
theorem jsonObject_length (m : String × List Char) (ms : List (String × List Char)) :
    (jsonObject (m :: ms)).length = 1 + membersLength (m :: ms) := by
  have h : ((((m :: ms).map fun m => '\x22' :: (m.1.toList ++ '\x22' :: ':' :: m.2)).intersperse
      [',']).flatten).length + 1 = membersLength (m :: ms) := by
    induction ms generalizing m with
    | nil => simp; omega
    | cons m' ms ih =>
      have := ih m'
      simp only [map_cons, membersLength_cons, intersperse_cons_cons, flatten_cons,
        length_append, length_cons, length_nil] at this ⊢
      omega
  simp only [jsonObject, length_cons, length_append, length_nil]
  omega

theorem padded_length (width n : ℕ) : (padded width n).length = width := by
  induction width generalizing n with
  | zero => rfl
  | succ width ih => simp [padded, ih]

theorem fractionText_length (nanos : ℕ) : (fractionText nanos).length ≤ 10 := by
  unfold fractionText
  split
  · simp
  · have h := (dropWhile_sublist (· == '0') (l := (padded 9 nanos).reverse)).length_le
    rw [length_reverse, padded_length] at h
    simp only [length_cons, length_reverse]
    omega

theorem marshalTime_length {t : Time} {text : List Char} (h : marshalTime t = .ok text) :
    text.length ≤ 32 := by
  unfold marshalTime at h
  simp only at h
  split at h
  · cases h
  · obtain rfl := ok.inj h
    have := fractionText_length (t.nanos % (24 * hour) % second).toNat
    simp only [length_cons, length_append, padded_length, length_nil]
    omega

/-- A character takes one to four bytes. -/
theorem utf8_length (text : List Char) :
    text.length ≤ (utf8 text).length ∧ (utf8 text).length ≤ 4 * text.length := by
  induction text with
  | nil => simp [utf8]
  | cons c l ih =>
    have h1 := c.utf8Size_pos
    have h2 := c.utf8Size_le_four
    have hc : (String.utf8EncodeChar c).length = c.utf8Size := by simp
    simp only [utf8, flatMap_cons, length_append, length_cons, hc] at ih ⊢
    omega

/-! ## Frames -/

theorem membersLength_omitEmpty (key text : String) :
    membersLength (omitEmpty key text) ≤ key.toList.length + 6 * text.toList.length + 6 := by
  have := jsonString_length text
  unfold omitEmpty
  split
  · simp
  · simp only [membersLength_cons, membersLength_nil]
    omega

variable {x : Record}

theorem encode_valid (h : encodePairingJournalFrame sha x = .ok frame) :
    validatePairingJournalRecord x = .ok () := by
  simp only [encodePairingJournalFrame, bind_ok_iff] at h
  obtain ⟨⟨⟩, h, -⟩ := h
  exact h

theorem encode_length (h : encodePairingJournalFrame sha x = .ok frame) :
    4 < frame.length ∧ frame.length ≤ 4 + maxPairingLedgerFrameBytes := by
  simp only [encodePairingJournalFrame, bind_ok_iff, failIf_ok_iff, ok.injEq] at h
  obtain ⟨-, -, p, -, text, -, -, hlen, rfl⟩ := h
  simp only [putUint32, length_append, length_cons, length_nil]
  omega

theorem valid_time (h : validatePairingJournalRecord x = .ok ()) :
    x.recordedAt.nanos ≠ 0 ∧ x.recordedAt.isUTC = true := by
  simp only [validatePairingJournalRecord, bind_ok_iff, failIf_ok_iff] at h
  obtain ⟨-, -, -, -, -, h, -⟩ := h
  simpa using h

theorem checksum_length (sha : Sha256) (record : List Char) :
    (sha.checksum record).length = 64 := by
  have hhex : ∀ bs : Bytes, (hexEncode bs).length = bs.length * 2 := by simp [hexEncode, length_flatMap]
  rw [Sha256.checksum, hhex, Digest.size]

theorem marshalFrame_length {r : Record} {record checksum text : List Char}
    (hr : r.marshal = .ok record) (h : marshalFrame r checksum = .ok text) :
    text.length = record.length + checksum.length + 25 := by
  simp only [marshalFrame, hr, bind_ok_iff, ok.injEq] at h
  obtain ⟨_, rfl, rfl⟩ := h
  rw [jsonObject_length]
  simp
  omega

/-- **Every frame has 200 bytes at least.** -/
theorem encode_length_ge {r : Record} (h : encodePairingJournalFrame sha r = .ok frame) :
    200 ≤ frame.length := by
  simp only [encodePairingJournalFrame, bind_ok_iff, failIf_ok_iff, ok.injEq] at h
  obtain ⟨-, -, record, hrec, text, hte, -, -, rfl⟩ := h
  have htl := marshalFrame_length hrec hte
  rw [checksum_length] at htl
  have henv : 100 ≤ r.envelope.marshal.length := by
    rw [Envelope.marshal, jsonObject_length]
    simp
    omega
  simp only [Record.marshal, bind_ok_iff, ok.injEq] at hrec
  obtain ⟨t1, -, t2, -, rfl⟩ := hrec
  have := (utf8_length text).1
  simp only [cons_append, jsonObject_length, membersLength_cons, membersLength_append] at htl
  simp only [putUint32, length_append, length_cons, length_nil]
  omega

/-- `MarshalJSON` has no error for a time of the years 1 to 9500. -/
theorem marshalTime_ok {t : Time} (h0 : 0 ≤ t.nanos) (h1 : t.nanos < 3470000 * (24 * hour)) :
    ∃ text, marshalTime t = .ok text := by
  have hd : 0 ≤ t.nanos / (24 * hour) ∧ t.nanos / (24 * hour) < 3470000 := by
    simp only [hour, minute, second, millisecond] at h1 ⊢
    omega
  have hye : 0 ≤ (civilDate (t.nanos / (24 * hour))).1 ∧
      (civilDate (t.nanos / (24 * hour))).1 ≤ 9999 := by
    generalize t.nanos / (24 * hour) = d at hd
    simp only [civilDate]
    split <;> omega
  unfold marshalTime
  simp only
  rw [if_neg (by omega)]
  exact ⟨_, rfl⟩

/-- The characters of a record's texts. -/
def Record.textLength (r : Record) : ℕ :=
  r.type.text.toList.length + r.recordClass.text.toList.length + r.credentialID.toList.length +
    r.attemptID.toList.length + r.contextDigest.toList.length + r.ownerInstanceID.toList.length +
    r.scope.text.toList.length + r.reason.text.toList.length + r.resetNote.toList.length

/-- **A valid record with short texts has a frame.** -/
theorem encode_ok {r : Record} (hv : validatePairingJournalRecord r = .ok ())
    (ht : ∃ text, marshalTime r.recordedAt = .ok text)
    (he : ∃ text, marshalTime r.expiresAt = .ok text) (hseq : r.sequence < 10 ^ 19)
    (henv : r.envelope.marshal.length ≤ 300) (hte : r.textLength ≤ 300) :
    ∃ frame, encodePairingJournalFrame sha r = .ok frame := by
  obtain ⟨t1, ht1⟩ := ht
  obtain ⟨t2, ht2⟩ := he
  have hl1 := marshalTime_length ht1
  have hl2 := marshalTime_length ht2
  have hver : (jsonInt r.schemaVersion).length = 1 := by
    simp only [validatePairingJournalRecord, bind_ok_iff, failIf_ok_iff] at hv
    obtain ⟨-, hver, -⟩ := hv
    rw [not_not.1 hver]
    rfl
  have hnum : (jsonInt r.sequence).length ≤ 19 := Nat.toDigits_length 10 r.sequence 19 (by omega) hseq
  have hty := jsonString_length r.type.text
  have h1 := membersLength_omitEmpty "record_class" r.recordClass.text
  have h2 := membersLength_omitEmpty "credential_id" r.credentialID
  have h3 := membersLength_omitEmpty "attempt_id" r.attemptID
  have h4 := membersLength_omitEmpty "context_digest" r.contextDigest
  have h5 := membersLength_omitEmpty "owner_instance_id" r.ownerInstanceID
  have h6 := membersLength_omitEmpty "scope" r.scope.text
  have h7 := membersLength_omitEmpty "reason" r.reason.text
  have h8 := membersLength_omitEmpty "reset_note" r.resetNote
  simp only [String.reduceToList, length_cons, length_nil] at h1 h2 h3 h4 h5 h6 h7 h8
  obtain ⟨record, hrec⟩ : ∃ record, r.marshal = .ok record := by
    simp only [Record.marshal, ht1, ht2]
    exact ⟨_, rfl⟩
  have hlen : record.length ≤ 2600 := by
    have hrec' := hrec
    simp only [Record.marshal, bind_ok_iff, ht1, ht2, ok.injEq] at hrec'
    obtain ⟨_, rfl, _, rfl, rfl⟩ := hrec'
    unfold Record.textLength at hte
    simp only [cons_append, jsonObject_length, membersLength_cons, membersLength_append,
      nil_append, membersLength_nil, hver, String.reduceToList, length_cons, length_nil]
    omega
  obtain ⟨text, htext⟩ : ∃ text, marshalFrame r (sha.checksum record) = .ok text := by
    simp only [marshalFrame, hrec]
    exact ⟨_, rfl⟩
  have htl := marshalFrame_length hrec htext
  rw [checksum_length] at htl
  obtain ⟨hu1, hu2⟩ := utf8_length text
  have hmax : maxPairingLedgerFrameBytes = 16384 := rfl
  refine ⟨putUint32 (utf8 text).length ++ utf8 text, ?_⟩
  simp only [encodePairingJournalFrame, bind_ok_iff, failIf_ok_iff]
  exact ⟨(), hv, record, hrec, text, htext, (), by omega, rfl⟩

/-! ## A digest -/

def zeroDigest : Digest := ⟨List.replicate 32 0, List.length_replicate⟩

end Winkyou
