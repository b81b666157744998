import Winkyou.Spec.GoStd

/-!
# The framed stream adapter (`transport/framedstream/adapter.go`)

One direction of a stream between two adapters: the calls of `WritePacket` on one side and those of
`ReadPacket` on the other. Each side runs one call at a time, under its mutex; the calls of the two
sides interleave.

* A `Write` of the connection transfers its bytes piece by piece and may fail before the last one;
  `io.ReadFull` takes them piece by piece and may fail before it has all. A deadline or the end of a
  context shows only there.
* `stream` is what was written and not yet taken by `io.ReadFull`; the buffer of `bufio.Reader` is
  part of it.
* `History` records what happened and is read by no call.
-/

namespace Winkyou.Framed

def defaultMaxFrameSize : ℕ := 64 * 1024

/-- The maximum of `NewWithMaxFrameSize`. -/
def normalizeMaxFrameSize (maxFrameSize : ℤ) : ℕ :=
  if maxFrameSize ≤ 0 then defaultMaxFrameSize else maxFrameSize.toNat

/-- What a `WritePacket` has yet to write. -/
inductive Writing
  /-- In `conn.Write(lenBuf[:])`. -/
  | header (pkt rest : Bytes)
  /-- In `conn.Write(pkt)`. -/
  | payload (pkt rest : Bytes)
  deriving DecidableEq

/-- What a `ReadPacket` has read. -/
inductive Reading
  /-- In `io.ReadFull(a.reader, lenBuf[:])`. -/
  | header (dst : ℕ) (got : Bytes)
  /-- In `io.ReadFull(a.reader, dst[:frameLen])`. -/
  | payload (frameLen : ℕ) (got : Bytes)
  deriving DecidableEq

/-- What the current `Write` has yet to transfer. -/
def Writing.rest : Writing → Bytes
  | .header _ rest | .payload _ rest => rest

/-- How many bytes the current `io.ReadFull` still wants. -/
def Reading.wants : Reading → ℕ
  | .header _ got => 4 - got.length
  | .payload frameLen got => frameLen - got.length

inductive WriteError
  | frameTooLarge (length max : ℕ)
  | deadline
  | stream
  deriving DecidableEq

inductive ReadError
  | deadline
  | stream
  | oversizedFrame (frameLen max : ℕ)
  | destinationTooSmall (need have_ : ℕ)
  deriving DecidableEq

structure History where
  /-- The packets with at least one byte whose `WritePacket` returned nil. -/
  completed : List Bytes := []
  /-- The packets whose `WritePacket` stopped inside the frame. -/
  torn : List Bytes := []
  writeErrors : List WriteError := []
  /-- What `ReadPacket` returned without an error. -/
  returned : List Bytes := []
  readErrors : List ReadError := []
  /-- A `ReadPacket` stopped inside a frame. -/
  readTorn : Bool := false
  /-- Every byte that was transferred, and every byte that was taken. -/
  written : Bytes := []
  consumed : Bytes := []
  deriving DecidableEq

structure Stream where
  /-- `maxFrameSize` of the two adapters. -/
  writeMax : ℕ
  readMax : ℕ
  stream : Bytes := []
  writing : Option Writing := none
  reading : Option Reading := none
  history : History := {}
  deriving DecidableEq

inductive Action
  /-- `WritePacket` up to its first `Write`; the deadline may not be accepted. -/
  | writePacket (pkt : Bytes) (deadlineSet : Bool)
  /-- The connection transfers bytes of the current `Write`. -/
  | transfer (n : ℕ)
  /-- The current `Write` fails. -/
  | writeFails
  | readPacket (dst : ℕ) (deadlineSet : Bool)
  /-- `io.ReadFull` gets bytes. -/
  | receive (n : ℕ)
  | readFails

namespace Stream

/-- The length of a packet as a `uint32`, in four bytes. -/
def lenBuf (pkt : Bytes) : Bytes := putUint32 (pkt.length % 4294967296)

def frameLen : Bytes → ℕ
  | [a, b, c, d] => uint32 a b c d
  | _ => 0

def writeError (s : Stream) (e : WriteError) : Stream :=
  { s with writing := none, history := { s.history with writeErrors := s.history.writeErrors ++ [e] } }

def writePacket (s : Stream) (pkt : Bytes) (deadlineSet : Bool) : Stream :=
  if pkt.length = 0 then s
  else if s.writeMax < pkt.length then s.writeError (.frameTooLarge pkt.length s.writeMax)
  else if !deadlineSet then s.writeError .deadline
  else { s with writing := some (.header pkt (lenBuf pkt)) }

/-- `bytes` go onto the stream. -/
def put (s : Stream) (bytes : Bytes) (writing : Option Writing) : Stream :=
  { s with
    stream := s.stream ++ bytes, writing := writing
    history := { s.history with written := s.history.written ++ bytes } }

def transfer (s : Stream) (n : ℕ) : Writing → Stream
  | .header pkt rest =>
    s.put (rest.take n) (some (if rest.drop n = [] then .payload pkt pkt
      else .header pkt (rest.drop n)))
  | .payload pkt rest =>
    if rest.drop n = [] then
      let s := s.put (rest.take n) none
      { s with history := { s.history with completed := s.history.completed ++ [pkt] } }
    else s.put (rest.take n) (some (.payload pkt (rest.drop n)))

def writeFails (s : Stream) : Writing → Stream
  | .header pkt rest =>
    let s := s.writeError .stream
    if rest = lenBuf pkt then s else { s with history := { s.history with torn := s.history.torn ++ [pkt] } }
  | .payload pkt _ =>
    let s := s.writeError .stream
    { s with history := { s.history with torn := s.history.torn ++ [pkt] } }

/-- `ReadPacket` returns an error; `torn` if it has taken a part of a frame. -/
def readError (s : Stream) (e : ReadError) (torn : Bool) : Stream :=
  { s with
    reading := none
    history := { s.history with readErrors := s.history.readErrors ++ [e], readTorn := s.history.readTorn || torn } }

def readReturns (s : Stream) (pkt : Bytes) : Stream :=
  { s with reading := none, history := { s.history with returned := s.history.returned ++ [pkt] } }

def readPacket (s : Stream) (dst : ℕ) (deadlineSet : Bool) : Stream :=
  if dst = 0 then s.readReturns []
  else if !deadlineSet then s.readError .deadline false
  else { s with reading := some (.header dst []) }

/-- `ReadPacket` after it has the header. -/
def readHeader (s : Stream) (dst : ℕ) (lenBuf : Bytes) : Stream :=
  if s.readMax < frameLen lenBuf then s.readError (.oversizedFrame (frameLen lenBuf) s.readMax) true
  else if dst < frameLen lenBuf then s.readError (.destinationTooSmall (frameLen lenBuf) dst) true
  -- `io.ReadFull` of an empty slice returns at once
  else if frameLen lenBuf = 0 then s.readReturns []
  else { s with reading := some (.payload (frameLen lenBuf) []) }

/-- `bytes` come from the stream. -/
def take (s : Stream) (n : ℕ) : Stream :=
  { s with
    stream := s.stream.drop n, history := { s.history with consumed := s.history.consumed ++ s.stream.take n } }

def receive (s : Stream) (n : ℕ) : Reading → Stream
  | .header dst got =>
    let got := got ++ s.stream.take n
    if got.length = 4 then (s.take n).readHeader dst got
      else { s.take n with reading := some (.header dst got) }
  | .payload frameLen got =>
    let got := got ++ s.stream.take n
    if got.length = frameLen then (s.take n).readReturns got
      else { s.take n with reading := some (.payload frameLen got) }

def readFails (s : Stream) : Reading → Stream
  | .header _ got => s.readError .stream (got ≠ [])
  | .payload _ _ => s.readError .stream true

def step (s : Stream) : Action → Option Stream
  | .writePacket pkt deadlineSet =>
    if s.writing.isSome then none else some (s.writePacket pkt deadlineSet)
  | .transfer n => do
    let w ← s.writing
    if 0 < n && n ≤ w.rest.length then some (s.transfer n w) else none
  | .writeFails => do
    let w ← s.writing
    return s.writeFails w
  | .readPacket dst deadlineSet =>
    if s.reading.isSome then none else some (s.readPacket dst deadlineSet)
  | .receive n => do
    let r ← s.reading
    if 0 < n && n ≤ s.stream.length && n ≤ r.wants then some (s.receive n r) else none
  | .readFails => do
    let r ← s.reading
    return s.readFails r

structure Initial (s : Stream) : Prop where
  stream : s.stream = []
  writing : s.writing = none
  reading : s.reading = none
  history : s.history = {}

/-- The packet of the `WritePacket` that is in progress. -/
def inProgress (s : Stream) : List Bytes :=
  match s.writing with
  | some (.header pkt _) | some (.payload pkt _) => [pkt]
  | none => []

end Stream

end Winkyou.Framed
