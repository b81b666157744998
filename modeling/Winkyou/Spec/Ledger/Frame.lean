import Winkyou.Spec.Ledger.Record

/-!
# Journal frames (`pairing_ledger_format.go`)

A frame is a big-endian length and a JSON object that holds a record and the SHA-256
of the record's own JSON text. `json.Marshal` is written out for the two types. SHA-256
is a parameter, and so is the JSON decoder, of which only the round trip with the
encoder is known (`FrameDecoder`).

Times are marshalled in UTC: the ledger writes no other.
-/

namespace Winkyou

/-! ## `json.Marshal` -/

/-- `encoding/json`: a string, with HTML characters and line separators escaped. -/
def jsonEscape (c : Char) : List Char :=
  let n := c.toNat
  let hex (k : ℕ) := Nat.digitChar (n / k % 16)
  if n = 0x22 ∨ n = 0x5C then ['\x5c', c]
  else if n = 0x08 then ['\x5c', 'b']
  else if n = 0x0C then ['\x5c', 'f']
  else if n = 0x0A then ['\x5c', 'n']
  else if n = 0x0D then ['\x5c', 'r']
  else if n = 0x09 then ['\x5c', 't']
  else if n < 0x20 ∨ n = 0x3C ∨ n = 0x3E ∨ n = 0x26 ∨ n = 0x2028 ∨ n = 0x2029 then
    ['\x5c', 'u', hex 4096, hex 256, hex 16, hex 1]
  else [c]

def jsonString (s : String) : List Char :=
  '\x22' :: (s.toList.flatMap jsonEscape ++ ['\x22'])

def jsonInt : ℤ → List Char
  | .ofNat n => Nat.toDigits 10 n
  | .negSucc n => '-' :: Nat.toDigits 10 (n + 1)

def jsonBool (b : Bool) : List Char := if b then "true".toList else "false".toList

/-- An object, from its members in order. -/
def jsonObject (members : List (String × List Char)) : List Char :=
  let texts := members.map fun m => '\x22' :: (m.1.toList ++ '\x22' :: ':' :: m.2)
  '\x7b' :: ((texts.intersperse [',']).flatten ++ ['\x7d'])

/-- A string field with `omitempty`. -/
def omitEmpty (key text : String) : List (String × List Char) :=
  if text = "" then [] else [(key, jsonString text)]

/-- `Time.Date`: the year, month and day of a day number (day 0 is January 1, year 1),
counted in 400-year cycles from March 1, year 0. -/
def civilDate (days : ℤ) : ℤ × ℤ × ℤ :=
  let d := days + 306
  let doe := d % 146097
  let yoe := (doe - doe / 1460 + doe / 36524 - doe / 146096) / 365
  let doy := doe - (365 * yoe + yoe / 4 - yoe / 100)
  let mp := (5 * doy + 2) / 153
  let month := if mp < 10 then mp + 3 else mp - 9
  (400 * (d / 146097) + yoe + (if month ≤ 2 then 1 else 0), month, doy - (153 * mp + 2) / 5 + 1)

/-- The decimal digits of a number, padded to a width. -/
def padded : ℕ → ℕ → List Char
  | 0, _ => []
  | width + 1, n => padded width (n / 10) ++ [Nat.digitChar (n % 10)]

/-- The fractional second, without trailing zeros. -/
def fractionText (nanos : ℕ) : List Char :=
  if nanos = 0 then []
  else '.' :: ((padded 9 nanos).reverse.dropWhile (· == '0')).reverse

/-- `Time.MarshalJSON`: RFC 3339 with nanoseconds, in UTC. -/
def marshalTime (t : Time) : Except RecordErr (List Char) :=
  let (year, month, day) := civilDate (t.nanos / (24 * hour))
  let clock := t.nanos % (24 * hour)
  if year < 0 ∨ year > 9999 then
    .error (.plain "Time.MarshalJSON: year outside of range [0,9999]")
  else
    .ok ('\x22' :: (padded 4 year.toNat ++ '-' :: (padded 2 month.toNat ++ '-' :: (padded 2 day.toNat ++
      'T' :: (padded 2 (clock / hour).toNat ++ ':' :: (padded 2 (clock % hour / minute).toNat ++
      ':' :: (padded 2 (clock % minute / second).toNat ++ (fractionText (clock % second).toNat ++
      ['Z', '\x22']))))))))

def Envelope.marshal (e : Envelope) : List Char :=
  jsonObject [("sockets", jsonInt e.sockets), ("targets", jsonInt e.targets),
    ("packets_per_second", jsonInt e.packetsPerSecond), ("packets", jsonInt e.packets),
    ("five_tuples", jsonInt e.fiveTuples), ("duration_ms", jsonInt e.durationMillis),
    ("heavyweight", jsonBool e.heavyweight)]

/-- `json.Marshal(record)`. `omitempty` has no effect on a struct, so the expiry and the
envelope are always written. -/
def Record.marshal (r : Record) : Except RecordErr (List Char) := do
  let recordedAt ← marshalTime r.recordedAt
  let expiresAt ← marshalTime r.expiresAt
  .ok (jsonObject (
    [("schema_version", jsonInt r.schemaVersion), ("sequence", jsonInt r.sequence),
      ("type", jsonString r.type.text), ("recorded_at", recordedAt)] ++
    omitEmpty "record_class" r.recordClass.text ++
    omitEmpty "credential_id" r.credentialID ++
    omitEmpty "attempt_id" r.attemptID ++
    omitEmpty "context_digest" r.contextDigest ++
    omitEmpty "owner_instance_id" r.ownerInstanceID ++
    omitEmpty "scope" r.scope.text ++
    [("expires_at", expiresAt), ("envelope", r.envelope.marshal)] ++
    omitEmpty "reason" r.reason.text ++
    omitEmpty "reset_note" r.resetNote))

/-- `json.Marshal(pairingJournalFrame{…})`. -/
def marshalFrame (r : Record) (checksum : List Char) : Except RecordErr (List Char) := do
  let record ← r.marshal
  .ok (jsonObject [("record", record), ("checksum", '\x22' :: (checksum ++ ['\x22']))])

def utf8 (text : List Char) : Bytes := text.flatMap String.utf8EncodeChar

/-! ## Frames -/

structure Digest where
  bytes : Bytes
  size : bytes.length = 32

/-- A `sha256.Sum256`: any function to digests. -/
abbrev Sha256 := Bytes → Digest

/-- `hex.EncodeToString(checksum[:])`. -/
def Sha256.checksum (sha : Sha256) (record : List Char) : List Char :=
  hexEncode (sha (utf8 record)).bytes

def encodePairingJournalFrame (sha : Sha256) (r : Record) : Except RecordErr Bytes := do
  validatePairingJournalRecord r
  let recordPayload ← r.marshal
  let envelopeText ← marshalFrame r (sha.checksum recordPayload)
  let envelopePayload := utf8 envelopeText
  .failIf (envelopePayload.length = 0 ∨ envelopePayload.length > maxPairingLedgerFrameBytes)
    (.plain ("pairing journal frame exceeds " ++ toString maxPairingLedgerFrameBytes ++ " bytes"))
  .ok (putUint32 envelopePayload.length ++ envelopePayload)

/-- The JSON decoder of a frame body (unknown fields and trailing data are errors), with
the round trip of the records the ledger writes: valid, with every time in UTC and a
sequence that fits a `uint64`. -/
structure FrameDecoder where
  decode : Bytes → Except RecordErr (Record × List Char)
  round_trip : ∀ {r checksum text}, validatePairingJournalRecord r = .ok () → r.expiresAt.isUTC →
    r.sequence < 2 ^ 64 → (checksum.all fun c => (fromHexChar c).isSome) →
    marshalFrame r checksum = .ok text → decode (utf8 text) = .ok (r, checksum)

def decodePairingJournalFrame (sha : Sha256) (json : FrameDecoder) (payload : Bytes) :
    Except RecordErr Record := do
  let (record, checksum) ← json.decode payload
  validatePairingJournalRecord record
  let recordPayload ← record.marshal
  .failIf (hexDecode checksum ≠ some (sha (utf8 recordPayload)).bytes)
    (.plain "pairing journal checksum mismatch")
  .ok record

/-- The loop of `decodePairingJournal`, with the records read so far. -/
def decodeFrames (sha : Sha256) (json : FrameDecoder) (data : Bytes) (records : List Record) :
    Except RecordErr (List Record) :=
  match data with
  | [] => .ok records
  | a :: b :: c :: d :: rest =>
    let bodyLength := uint32 a b c d
    if bodyLength ≤ 0 ∨ bodyLength > maxPairingLedgerFrameBytes then
      .error (.plain ("pairing journal frame length " ++ toString bodyLength ++ " is invalid"))
    else if bodyLength > rest.length then
      .error (.plain "pairing journal frame body is truncated")
    else
      match decodePairingJournalFrame sha json (rest.take bodyLength) with
      | .error e => .error e
      | .ok record =>
        let records := records ++ [record]
        if records.length > maxPairingLedgerRecords then
          .error (.plain ("pairing journal exceeds " ++ toString maxPairingLedgerRecords ++ " records"))
        else decodeFrames sha json (rest.drop bodyLength) records
  | _ => .error (.plain "pairing journal has a truncated length prefix")
  termination_by data.length
  decreasing_by simp only [List.length_cons, List.length_drop]; omega

def decodePairingJournal (sha : Sha256) (json : FrameDecoder) (data : Bytes) :
    Except RecordErr (List Record) :=
  if data.length = 0 then .error (.plain "pairing journal is empty")
  else decodeFrames sha json data []

end Winkyou
