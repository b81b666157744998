import Winkyou.Spec.GoStd

/-!
# The observation file of an unbuffered store (`solver/store/observation.go`)

Calls of `Record` run concurrently. Each has two steps: the locked part, and the append to the file.
-/

namespace Winkyou.ObservationStore

variable {α : Type}

def newline : UInt8 := 10

/-- `json.Marshal` and `json.Unmarshal` of observations. -/
structure JsonCodec (α : Type) where
  marshal : α → Bytes
  unmarshal : Bytes → Option α
  round_trip : ∀ obs, unmarshal (marshal obs) = some obs
  no_newline : ∀ obs, newline ∉ marshal obs
  unmarshal_nil : unmarshal [] = none

/-- The bytes that `appendToFile` appends. -/
def JsonCodec.line (codec : JsonCodec α) (obs : α) : Bytes := codec.marshal obs ++ [newline]

def observationMemoryLimit : ℕ := 1000

def trimObservationHistory (observations : List α) (limit : ℕ) : List α :=
  if limit = 0 ∨ observations.length ≤ limit then observations
    else observations.drop (observations.length - limit)

/-- The loop of `splitLines`, with the bytes since the last newline. -/
def splitLinesFrom (line : Bytes) : Bytes → List Bytes
  | [] => if line.isEmpty then [] else [line]
  | b :: data =>
    if b = newline then line :: splitLinesFrom [] data else splitLinesFrom (line ++ [b]) data

def splitLines (data : Bytes) : List Bytes := splitLinesFrom [] data

/-- `LoadFromFile` of a fresh store; a missing file is read as an empty one. -/
def loadFromFile (codec : JsonCodec α) (data : Bytes) : List α :=
  trimObservationHistory
    ((splitLines data).filterMap fun line => if line.isEmpty then none
      else codec.unmarshal line) observationMemoryLimit

/-- What the operating system does with an append. -/
structure Outcome where
  /-- The number of bytes that reach the file. -/
  written : ℕ
  /-- `MkdirAll`, `OpenFile`, `Write` or `Close` reports an error. -/
  err : Bool

/-- `appendJSONLine` reports success. -/
def Outcome.ok (o : Outcome) (data : Bytes) : Bool := !o.err && data.length ≤ o.written

def appendJSONLine (file data : Bytes) (o : Outcome) : Bytes := file ++ data.take o.written

structure Store (α : Type) where
  observations : List α := []
  file : Bytes := []
  /-- The calls of `Record` before their append. -/
  pending : List α := []
  /-- All observations, in the order of the locked parts. -/
  recorded : List α := []
  /-- The observations whose append reported success, in order. -/
  appended : List α := []

inductive Action (α : Type)
  /-- The locked part of `Record`. -/
  | record (obs : α)
  /-- `appendToFile` of a call. -/
  | append (i : ℕ) (o : Outcome)

def Store.step (codec : JsonCodec α) (s : Store α) : Action α → Option (Store α)
  | .record obs => some { s with
      observations := trimObservationHistory (s.observations ++ [obs]) observationMemoryLimit
      pending := s.pending ++ [obs], recorded := s.recorded ++ [obs] }
  | .append i o => do
    let obs ← s.pending[i]?
    some { s with
      file := appendJSONLine s.file (codec.line obs) o
      pending := s.pending.eraseIdx i
      appended := if o.ok (codec.line obs) then s.appended ++ [obs] else s.appended }

end Winkyou.ObservationStore
