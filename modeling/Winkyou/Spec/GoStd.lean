import Mathlib.Data.List.AList
import Mathlib.Data.Nat.Notation
import Mathlib.Data.Int.Notation
import Mathlib.Data.String.Basic

/-!
# The parts of Go's standard library that the program uses

Times and durations, the Unicode classes behind `strings.TrimSpace`, and the
`encoding/hex` and `encoding/base64` codecs. A Go string is a Lean `String`: every
string modelled here is rejected by its validator, or replaced by the JSON decoder,
when it is not valid UTF-8.
-/

namespace Winkyou

abbrev Bytes := List UInt8

/-- A Go map with string keys; its entries stand in iteration order. -/
abbrev GoMap (β : Type) := AList fun _ : String => β

/-- The values of a map, in iteration order. -/
def GoMap.values {β : Type} (m : GoMap β) : List β := m.entries.map Sigma.snd

/-! ## Times and durations -/

/-- A `time.Duration`, in nanoseconds. -/
abbrev Duration := ℤ

def nanosecond : Duration := 1
def millisecond : Duration := 1000000
def second : Duration := 1000 * millisecond
def minute : Duration := 60 * second
def hour : Duration := 60 * minute

/-- A `time.Time` without a monotonic reading: nanoseconds since the zero time
(January 1, year 1), and whether its location is UTC. -/
structure Time where
  nanos : ℤ
  isUTC : Bool
  deriving DecidableEq, Repr

namespace Time

/-- The zero `time.Time{}`; its location is UTC. -/
def zero : Time := ⟨0, true⟩

def isZero (t : Time) : Bool := t.nanos == 0

def before (t u : Time) : Bool := decide (t.nanos < u.nanos)

def after (t u : Time) : Bool := decide (u.nanos < t.nanos)

def add (t : Time) (d : Duration) : Time := ⟨t.nanos + d, t.isUTC⟩

def sub (t u : Time) : Duration := t.nanos - u.nanos

/-- `t.UTC()`: the same instant in UTC. -/
def toUTC (t : Time) : Time := ⟨t.nanos, true⟩

variable {t u : Time} {d : Duration}

@[simp] theorem zero_nanos : Time.zero.nanos = 0 := rfl
@[simp] theorem add_nanos : (t.add d).nanos = t.nanos + d := rfl
@[simp] theorem toUTC_nanos : t.toUTC.nanos = t.nanos := rfl
/-- `IsZero` reads the instant alone. -/
@[simp] theorem isZero_iff : t.isZero = true ↔ t.nanos = 0 := by simp [isZero]
@[simp] theorem isZero_eq_false_iff : t.isZero = false ↔ t.nanos ≠ 0 := by simp [isZero]
@[simp] theorem before_iff : t.before u = true ↔ t.nanos < u.nanos := by simp [before]
@[simp] theorem after_iff : t.after u = true ↔ u.nanos < t.nanos := by simp [after]

end Time

/-! ## Machine integers -/

/-- The value of a Go `int` (64 bits) after an operation whose exact result is `n`. -/
def int64 (n : ℤ) : ℤ := Int.bmod n (2 ^ 64)

/-! ## `Duration.String` -/

/-- `fmtFrac`: the fraction `v / 10 ^ prec` without its trailing zeros, and the integer part. -/
def fmtFrac (v : ℕ) : ℕ → List Char × ℕ
  | 0 => ([], v)
  | prec + 1 => loop v (prec + 1) []
where
  /-- The digits from the last one on; a zero is printed only before a printed digit. -/
  loop (v : ℕ) : ℕ → List Char → List Char × ℕ
    | 0, [] => ([], v)
    | 0, digits => ('.' :: digits, v)
    | n + 1, digits =>
      loop (v / 10) n (if digits = [] ∧ v % 10 = 0 then [] else Nat.digitChar (v % 10) :: digits)

/-- The number `v / 10 ^ prec` followed by a unit. -/
def fmtUnit (v prec : ℕ) (unit : List Char) : List Char :=
  Nat.toDigits 10 (fmtFrac v prec).2 ++ (fmtFrac v prec).1 ++ unit

def durationString (d : Duration) : String :=
  let u := d.natAbs
  let neg := if d < 0 then ['-'] else []
  String.ofList <|
    if u = 0 then ['0', 's']
    else if u < 1000 then neg ++ fmtUnit u 0 ['n', 's']
    else if u < 1000000 then neg ++ fmtUnit u 3 ['µ', 's']
    else if u < 1000000000 then neg ++ fmtUnit u 6 ['m', 's']
    else
      -- the whole seconds are split into hours, minutes and seconds
      let frac := (fmtFrac u 9).1
      let secs := (fmtFrac u 9).2
      let last := Nat.toDigits 10 (secs % 60) ++ frac ++ ['s']
      let mins := secs / 60
      if mins = 0 then neg ++ last
      else if mins / 60 = 0 then neg ++ Nat.toDigits 10 (mins % 60) ++ ['m'] ++ last
      else neg ++ Nat.toDigits 10 (mins / 60) ++ ['h'] ++ Nat.toDigits 10 (mins % 60) ++ ['m'] ++ last

/-! ## Character classes -/

def isSpace (c : Char) : Bool :=
  let n := c.toNat
  (9 ≤ n && n ≤ 13) || n == 32 || n == 0x85 || n == 0xA0 || n == 0x1680 ||
    (0x2000 ≤ n && n ≤ 0x200A) || n == 0x2028 || n == 0x2029 || n == 0x202F || n == 0x205F ||
    n == 0x3000

/-- `unicode.IsControl`: category Cc. -/
def isControl (c : Char) : Bool :=
  let n := c.toNat
  n ≤ 0x1F || (0x7F ≤ n && n ≤ 0x9F)

def trimSpace (s : String) : String :=
  String.ofList ((s.toList.dropWhile isSpace).reverse.dropWhile isSpace).reverse

/-! ## `encoding/hex` -/

/-- `hex.EncodeToString`: two lowercase digits a byte. -/
def hexEncode (bs : Bytes) : List Char :=
  bs.flatMap fun b => [Nat.digitChar (b.toNat / 16), Nat.digitChar (b.toNat % 16)]

/-- The value of a hexadecimal digit of either case. -/
def fromHexChar (c : Char) : Option ℕ :=
  let n := c.toNat
  if 48 ≤ n ∧ n ≤ 57 then some (n - 48)
  else if 97 ≤ n ∧ n ≤ 102 then some (n - 97 + 10)
  else if 65 ≤ n ∧ n ≤ 70 then some (n - 65 + 10)
  else none

def hexDecode : List Char → Option Bytes
  | [] => some []
  | [_] => none
  | hi :: lo :: rest => do
    let h ← fromHexChar hi
    let l ← fromHexChar lo
    let bs ← hexDecode rest
    some (UInt8.ofNat (16 * h + l) :: bs)

/-! ## `base64.RawURLEncoding` -/

/-- The URL-safe alphabet. -/
def base64Char (n : ℕ) : Char :=
  if n < 26 then Char.ofNat (65 + n)
  else if n < 52 then Char.ofNat (97 + (n - 26))
  else if n < 62 then Char.ofNat (48 + (n - 52))
  else if n = 62 then '-' else '_'

def base64Value (c : Char) : Option ℕ :=
  let n := c.toNat
  if 65 ≤ n ∧ n ≤ 90 then some (n - 65)
  else if 97 ≤ n ∧ n ≤ 122 then some (n - 97 + 26)
  else if 48 ≤ n ∧ n ≤ 57 then some (n - 48 + 52)
  else if c = '-' then some 62
  else if c = '_' then some 63
  else none

def base64Encode : Bytes → List Char
  | [] => []
  | [a] => [base64Char (a.toNat / 4), base64Char (a.toNat % 4 * 16)]
  | [a, b] =>
    [base64Char (a.toNat / 4), base64Char (a.toNat % 4 * 16 + b.toNat / 16),
      base64Char (b.toNat % 16 * 4)]
  | a :: b :: c :: rest =>
    base64Char (a.toNat / 4) :: base64Char (a.toNat % 4 * 16 + b.toNat / 16) ::
      base64Char (b.toNat % 16 * 4 + c.toNat / 64) :: base64Char (c.toNat % 64) ::
      base64Encode rest

/-- The quanta of `base64.RawURLEncoding.DecodeString`. The decoder is not strict: the
unused low bits of a short last quantum are dropped. -/
def base64Quanta : List Char → Option Bytes
  | [] => some []
  | [_] => none
  | [w, x] => do
    let w ← base64Value w
    let x ← base64Value x
    some [UInt8.ofNat (w * 4 + x / 16)]
  | [w, x, y] => do
    let w ← base64Value w
    let x ← base64Value x
    let y ← base64Value y
    some [UInt8.ofNat (w * 4 + x / 16), UInt8.ofNat (x % 16 * 16 + y / 4)]
  | w :: x :: y :: z :: rest => do
    let w ← base64Value w
    let x ← base64Value x
    let y ← base64Value y
    let z ← base64Value z
    let bs ← base64Quanta rest
    some (UInt8.ofNat (w * 4 + x / 16) :: UInt8.ofNat (x % 16 * 16 + y / 4) ::
      UInt8.ofNat (y % 4 * 64 + z) :: bs)

/-- `base64.RawURLEncoding.DecodeString`: the Go decoder skips line ends. -/
def base64Decode (cs : List Char) : Option Bytes :=
  base64Quanta (cs.filter fun c => c != '\r' && c != '\n')

/-! ## `strconv` -/

/-- `strconv.FormatUint(n, 10)`. -/
def formatUint (n : ℕ) : String := String.ofList (Nat.toDigits 10 n)

/-- `strconv.ParseUint(s, 10, 64)`. -/
def parseUint (s : String) : Option ℕ :=
  let n := Nat.ofDigitChars 10 s.toList 0
  if s.toList ≠ [] ∧ s.toList.all Char.isDigit ∧ n < 2 ^ 64 then some n else none

theorem formatUint_injective : Function.Injective formatUint := by
  intro m n h
  have hdigits : Nat.toDigits 10 m = Nat.toDigits 10 n := String.ofList_injective h
  simpa using congrArg (Nat.ofDigitChars 10 · 0) hdigits

theorem parseUint_formatUint {n : ℕ} (h : n < 2 ^ 64) : parseUint (formatUint n) = some n := by
  have hval : Nat.ofDigitChars 10 (Nat.toDigits 10 n) 0 = n := by simp
  have hdig : (Nat.toDigits 10 n).all Char.isDigit := by
    rw [List.all_eq_true]
    intro c hc
    exact Nat.isDigit_of_mem_toDigits (by decide) (by decide) hc
  simpa [parseUint, formatUint, hval, hdig] using h

/-! ## `binary.BigEndian` -/

def putUint32 (n : ℕ) : Bytes :=
  [UInt8.ofNat (n / 16777216), UInt8.ofNat (n / 65536), UInt8.ofNat (n / 256), UInt8.ofNat n]

/-- `binary.BigEndian.Uint32` of four bytes. -/
def uint32 (a b c d : UInt8) : ℕ :=
  a.toNat * 16777216 + b.toNat * 65536 + c.toNat * 256 + d.toNat

end Winkyou
