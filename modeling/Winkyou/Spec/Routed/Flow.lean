import Winkyou.Spec.Ledger.Frame

/-!
# One flow of the TCP forwarder (`tcpFlow` of `tcp_forward.go`)

A flow object and the tasks that work on it. Each section under one of its locks is one step; so are
each transmission and each call of the local connection.

* The tasks that exist once for a flow are fields: the opener (`handleAccepted` or `handleOpen`),
  `readLocal` and `writeLocal`. A task inside the part of `send` that holds `sendMu` is the field
  `sending`.
* The other tasks are given by a `Code`: the handlers of frames, `fail` and `shutdown`.
* `source`, `written` and `halfClosed` are the local connection; `history`, `admitted`, `acked` and
  `failed` record what happened and are read by no section.
-/

namespace Winkyou.Routed

inductive DataType
  | streamOpen
  | streamOpenOK
  | streamOpenError
  | streamData
  | streamFIN
  | streamReset
  | streamACK
  deriving DecidableEq

/-- The value of the constant in `data_frame.go`. -/
def DataType.value : DataType → ℕ
  | .streamOpen => 2
  | .streamOpenOK => 3
  | .streamOpenError => 4
  | .streamData => 5
  | .streamFIN => 6
  | .streamReset => 7
  | .streamACK => 8

structure Frame where
  type : DataType
  sequence : ℕ
  payload : Bytes := []
  deriving DecidableEq

def dataBytes (frames : List Frame) : Bytes :=
  frames.flatMap fun frame => if frame.type = .streamData then frame.payload else []

def tcpReadBufferSize : ℕ := 32 <<< 10
def tcpInboundQueueSize : ℕ := 64
def maxStreamErrorLength : ℕ := 1024

/-- The texts of the forwarder's errors. -/
def ErrTCPForwarderClosed : String := "routed dataplane: TCP forwarder closed"
def ErrTCPOpenRejected : String := "routed dataplane: TCP open rejected"
def ErrTCPFlowProtocol : String := "routed dataplane: TCP flow protocol error"

def isOpenResultFrame (type : DataType) : Bool := type = .streamOpenOK || type = .streamOpenError

def compactStreamError (cause : String) : Bytes :=
  let message := trimSpace cause
  let message := if message = "" then "stream reset" else message
  (utf8 message.toList).take maxStreamErrorLength

/-! ## Tasks -/

/-- What `conn.Read` returned besides its bytes. -/
inductive ReadEnd
  | more
  | eof
  | failed (err : String)
  deriving DecidableEq

/-- A call of `send`. -/
inductive Call
  | streamOpen
  | streamOpenOK
  /-- By `readLocal`; what the read returned decides how it goes on. -/
  | data (payload : Bytes) (after : ReadEnd)
  | fin
  | reset (cause : String)
  deriving DecidableEq

def Call.frame (call : Call) (sequence : ℕ) : Frame :=
  match call with
  | .streamOpen => ⟨.streamOpen, sequence, []⟩
  | .streamOpenOK => ⟨.streamOpenOK, sequence, []⟩
  | .data payload _ => ⟨.streamData, sequence, payload⟩
  | .fin => ⟨.streamFIN, sequence, []⟩
  | .reset cause => ⟨.streamReset, sequence, compactStreamError cause⟩

/-- Where the loop of `send` is: before the check at its head, before a transmission, in the
`select`. -/
inductive SendPoint
  | head
  | transmit
  | wait
  deriving DecidableEq

structure Sending where
  call : Call
  sequence : ℕ
  point : SendPoint
  deriving DecidableEq

/-- `handleAccepted`, or `handleOpen` from its `send` on. -/
inductive Opener
  /-- Calls `send` with OPEN or OPEN_OK. -/
  | lock
  | sending
  /-- In the `select` of `handleAccepted`. -/
  | await
  | start
  /-- Between the two tasks that `start` starts. -/
  | startWriter
  | returned
  deriving DecidableEq

inductive Reader
  | off
  | read
  | lockData (payload : Bytes) (after : ReadEnd)
  | lockFIN
  | sending
  /-- The read failed; `done` is looked at next. -/
  | readError (err : String)
  | markLocalFIN
  | returned
  deriving DecidableEq

inductive Writer
  | off
  /-- In the `select`. -/
  | take
  | write (payload : Bytes)
  | closeWrite
  | markRemoteFIN
  | returned
  deriving DecidableEq

/-- The next section of another task at the flow. -/
inductive Code
  | acknowledge (sequence : ℕ)
  | enqueueSequenced (frame : Frame)
  | observeSequence (frame : Frame)
  /-- A duplicate of an OPEN result. -/
  | shouldAcknowledgeOpenResult (frame : Frame)
  /-- The frame has the expected sequence. -/
  | expected (frame : Frame)
  | completeOpenFrame (frame : Frame)
  /-- `sendACK`, and `shutdown` after it. -/
  | sendACK (frame : Frame) (shutdown : Bool)
  | fail (cause : String)
  | lockReset (cause : String)
  | shutdown
  | closeDone
  | closeConn
  | removeFlow
  deriving DecidableEq

/-! ## State -/

structure Flow where
  initiator : Bool
  recvSeq : ℕ
  sending : Option Sending := none
  sendSeq : ℕ := 0
  pendingSeq : ℕ := 0
  pendingACK : Bool := false
  opened : Bool := false
  openTerminal : Bool := false
  /-- `openResult` carries nil exactly when this is OPEN_OK. -/
  openResultType : Option DataType := none
  localFIN : Bool := false
  remoteFIN : Bool := false
  remoteFINQueued : Bool := false
  /-- The channel; an entry keeps the sequence of its frame. -/
  inbound : List Frame := []
  done : Bool := false
  /-- `startOnce` and `closeOnce` have been used. -/
  started : Bool := false
  closing : Bool := false
  opener : Opener := .lock
  reader : Reader := .off
  writer : Writer := .off
  connClosed : Bool := false
  /-- The bytes read from the local connection. -/
  source : Bytes := []
  /-- The bytes written to it, and whether its write side was closed. -/
  written : Bytes := []
  halfClosed : Bool := false
  /-- The frames that a `send` took a sequence for, in order. -/
  history : List Frame := []
  /-- The frames admitted to `inbound`, in order. -/
  admitted : List Frame := []
  /-- The frames that an ACK was made for. -/
  acked : List Frame := []
  /-- A `send` has returned an error after it took a sequence. -/
  failed : Bool := false
  deriving DecidableEq

def newTCPFlow (initiator : Bool) (recvSeq : ℕ) : Flow := { initiator, recvSeq }

namespace Flow

/-! ## Acknowledgements -/

def beginPending (f : Flow) (sequence : ℕ) : Flow :=
  { f with pendingSeq := sequence, pendingACK := false }

def clearPending (f : Flow) (sequence : ℕ) : Flow :=
  if f.pendingSeq = sequence then { f with pendingSeq := 0, pendingACK := false } else f

def acknowledge (f : Flow) (sequence : ℕ) : Flow :=
  if f.pendingSeq ≠ sequence || f.pendingACK then f else { f with pendingACK := true }

/-- What `finishAcknowledged` and `finishAcknowledgedAtDeadline` look at. -/
def acknowledged (f : Flow) (sequence : ℕ) : Bool := f.pendingSeq = sequence && f.pendingACK

/-! ## Received sequences -/

inductive SequenceObservation
  | expected
  | duplicate
  | future

def observeSequence (f : Flow) (sequence : ℕ) : Flow × SequenceObservation :=
  let want := f.recvSeq + 1
  if sequence < want then (f, .duplicate)
  else if sequence > want then (f, .future)
  else ({ f with recvSeq := sequence }, .expected)

inductive EnqueueError
  | refused (err : String)
  | queueFull

/-- `enqueue`; when `done` is closed and the channel has room, `pickDone` is the choice of the
`select`. -/
def enqueue (f : Flow) (frame : Frame) (pickDone : Bool) : Except EnqueueError Flow :=
  if !f.opened then
    .error (.refused s!"{ErrTCPFlowProtocol}: frame {frame.type.value} before OPEN_OK")
  else if f.remoteFIN || f.remoteFINQueued then
    .error (.refused s!"{ErrTCPFlowProtocol}: frame {frame.type.value} after FIN")
  else if f.inbound.length < tcpInboundQueueSize then
    if f.done && pickDone then .error (.refused ErrTCPForwarderClosed)
    else
      .ok { f with
        inbound := f.inbound ++ [frame]
        admitted := f.admitted ++ [frame]
        remoteFINQueued := f.remoteFINQueued || frame.type = .streamFIN }
  else if f.done then .error (.refused ErrTCPForwarderClosed)
  else .error .queueFull

/-- `enqueueSequenced`: the flow and whether to acknowledge, or the error. -/
def enqueueSequenced (f : Flow) (frame : Frame) (pickDone : Bool) :
    Except EnqueueError (Flow × Bool) :=
  let want := f.recvSeq + 1
  if frame.sequence < want then .ok (f, true)
  else if frame.sequence > want then .ok (f, false)
  else do
    let f ← f.enqueue frame pickDone
    return ({ f with recvSeq := frame.sequence }, true)

/-! ## The OPEN result -/

/-- `completeOpen`; a local result has no type. -/
def completeOpen (f : Flow) (resultType : Option DataType) : Flow × Bool :=
  if f.openTerminal then (f, false)
  else
    ({ f with
      openTerminal := true, openResultType := resultType, opened :=
        f.opened || resultType = some .streamOpenOK }, true)

def completeOpenLocally (f : Flow) : Flow × Bool := f.completeOpen none

def completeOpenFrame (f : Flow) (frameType : DataType) : Flow × Bool :=
  f.completeOpen (some frameType)

def shouldAcknowledgeOpenResult (f : Flow) (frameType : DataType) : Bool :=
  f.openTerminal && f.openResultType = some frameType

def markOpened (f : Flow) : Flow := { f with opened := true }

/-! ## `send` -/

/-- How `readLocal` goes on after what a read returned has been sent. -/
def afterRead : ReadEnd → Reader
  | .more => .read
  | .eof => .lockFIN
  | .failed err => .readError err

/-- `send` returns to its caller. -/
def returnSend (f : Flow) (call : Call) (ok : Bool) : Flow × List Code :=
  match call, ok with
  | .streamOpen, true => ({ f with opener := .await }, [])
  | .streamOpen, false => ({ f with opener := .returned }, [.shutdown])
  | .streamOpenOK, true => ({ f with opener := .start }, [])
  | .streamOpenOK, false => ({ f with opener := .returned }, [.shutdown])
  | .data _ after, true => ({ f with reader := afterRead after }, [])
  | .data _ _, false => ({ f with reader := .returned }, [.shutdown])
  | .fin, true => ({ f with reader := .markLocalFIN }, [])
  | .fin, false => ({ f with reader := .returned }, [.shutdown])
  | .reset _, _ => (f, [.shutdown])

/-- The caller is inside `send`. -/
def enterSend (f : Flow) : Call → Flow
  | .streamOpen | .streamOpenOK => { f with opener := .sending }
  | .data _ _ | .fin => { f with reader := .sending }
  | .reset _ => f

/-- `send` takes `sendMu`, looks at `done` and takes a sequence. -/
def lockSend (f : Flow) (call : Call) : Option (Flow × List Code) :=
  match f.sending with
  | some _ => none
  | none =>
    if f.done then some (f.returnSend call false)
    else
      let sequence := f.sendSeq + 1
      let f := (f.enterSend call).beginPending sequence
      some ({ f with
        sending := some ⟨call, sequence, .head⟩
        history := f.history ++ [call.frame sequence] }, [])

/-- `send` leaves `sendMu`; an acknowledged sequence counts as sent. -/
def unlockSend (f : Flow) (s : Sending) (ok : Bool) : Flow × List Code :=
  let f := if ok then { f with sendSeq := s.sequence } else { f with failed := true }
  returnSend { f.clearPending s.sequence with sending := none } s.call ok

inductive SendEvent
  /-- `finishAcknowledged`. -/
  | check
  /-- `endpoint.Send`; without success nothing is sent. -/
  | transmit (ok : Bool)
  | retry
  | deadline
  | done
  | cancelled

/-- A step of the task that holds `sendMu`; `cancelled` is the forwarder's context. -/
def stepSend (f : Flow) (closed : Bool) (event : SendEvent) :
    Option (Flow × List Frame × List Code) := do
  let s ← f.sending
  let leave (ok : Bool) : Option (Flow × List Frame × List Code) :=
    some ((f.unlockSend s ok).1, [], (f.unlockSend s ok).2)
  match s.point, event with
  | .head, .check =>
    if f.acknowledged s.sequence then leave true
    else some ({ f with sending := some { s with point := .transmit } }, [], [])
  | .transmit, .transmit ok =>
    some ({ f with sending := some { s with point := .wait } }, if ok then [s.call.frame s.sequence]
      else [], [])
  | .wait, .check => if f.acknowledged s.sequence then leave true else some (f, [], [])
  | .wait, .retry => some ({ f with sending := some { s with point := .head } }, [], [])
  | .wait, .deadline => leave (f.acknowledged s.sequence)
  | .wait, .done => if f.done then leave false else none
  | .wait, .cancelled => if closed then leave false else none
  | _, _ => none

/-! ## The opener -/

inductive OpenEvent
  | lock
  /-- The cases of the `select` of `handleAccepted`. -/
  | result
  | listenerDone (err : String)
  | forwarderDone
  | flowDone
  | deadline
  | start

/-- `handleAccepted` goes on with the result in `openResult`. -/
def takeOpenResult (f : Flow) : Flow × List Code :=
  if f.openResultType = some .streamOpenOK then ({ f with opener := .start }, [])
  else ({ f with opener := .returned }, [.shutdown])

def stepOpener (f : Flow) (closed : Bool) (event : OpenEvent) : Option (Flow × List Code) :=
  match f.opener, event with
  | .lock, .lock => f.lockSend (if f.initiator then .streamOpen else .streamOpenOK)
  | .await, .result => if f.openTerminal then some f.takeOpenResult else none
  | .await, .listenerDone err =>
    some ({ (f.completeOpenLocally).1 with opener := .returned }, [.fail err])
  | .await, .forwarderDone =>
    if closed then some ({ f with opener := .returned }, [.shutdown]) else none
  | .await, .flowDone => if f.done then some ({ f with opener := .returned }, []) else none
  | .await, .deadline =>
    if f.openTerminal then some f.takeOpenResult
    else some ({ (f.completeOpenLocally).1 with opener := .returned }, [.shutdown])
  | .start, .start =>
    if f.started then some ({ f with opener := .returned }, [])
    else if closed then some ({ f with started := true, opener := .returned }, [.shutdown])
    else some ({ f with started := true, reader := .read, opener := .startWriter }, [])
  | .startWriter, .start =>
    if closed then some ({ f with opener := .returned }, [.shutdown])
    else some ({ f with writer := .take, opener := .returned }, [])
  | _, _ => none

/-! ## `readLocal` and `writeLocal` -/

inductive ReadEvent
  /-- `conn.Read` returns. -/
  | read (payload : Bytes) (result : ReadEnd)
  | lock
  | step

def stepReader (f : Flow) (event : ReadEvent) : Option (Flow × List Code) :=
  match f.reader, event with
  | .read, .read payload result =>
    if tcpReadBufferSize < payload.length || (f.connClosed && payload ≠ []) then none
    else if payload = [] then some ({ f with reader := afterRead result }, [])
    else some ({ f with reader := .lockData payload result, source := f.source ++ payload }, [])
  | .lockData payload after, .lock => f.lockSend (.data payload after)
  | .lockFIN, .lock => f.lockSend .fin
  | .readError err, .step => some ({ f with reader := .returned }, if f.done then [] else [.fail err])
  | .markLocalFIN, .step =>
    some ({ f with localFIN := true, reader := .returned }, if f.remoteFIN then [.shutdown] else [])
  | _, _ => none

inductive WriteEvent
  | done
  | take
  /-- `conn.Write` took this many bytes. -/
  | wrote (n : ℕ)
  | writeFailed (n : ℕ) (err : String)
  | closedWrite
  /-- `CloseWrite` found the connection closed, which is no error here. -/
  | alreadyClosed
  | closeFailed (err : String)
  | step

def stepWriter (f : Flow) (event : WriteEvent) : Option (Flow × List Code) :=
  match f.writer, event with
  | .take, .done => if f.done then some ({ f with writer := .returned }, []) else none
  | .take, .take =>
    match f.inbound with
    | [] => none
    | frame :: rest =>
      if frame.type = .streamFIN then some ({ f with inbound := rest, writer := .closeWrite }, [])
      else
        let writer := if frame.payload = [] then .take else .write frame.payload
        some ({ f with inbound := rest, writer := writer }, [])
  | .write payload, .wrote n =>
    if n = 0 || payload.length < n || f.connClosed then none
    else
      let writer := if payload.drop n = [] then .take else .write (payload.drop n)
      some ({ f with written := f.written ++ payload.take n, writer := writer }, [])
  | .write payload, .writeFailed n err =>
    some ({ f with written := f.written ++ payload.take n, writer := .returned }, [.fail err])
  | .closeWrite, .closedWrite => some ({ f with halfClosed := true, writer := .markRemoteFIN }, [])
  | .closeWrite, .alreadyClosed =>
    if f.connClosed then some ({ f with writer := .markRemoteFIN }, []) else none
  | .closeWrite, .closeFailed err => some ({ f with writer := .returned }, [.fail err])
  | .markRemoteFIN, .step =>
    some ({ f with remoteFIN := true, writer := .take }, if f.localFIN then [.shutdown] else [])
  | _, _ => none

/-- What can happen to a flow by its field tasks. -/
inductive Event
  | send (event : SendEvent)
  | opener (event : OpenEvent)
  | reader (event : ReadEvent)
  | writer (event : WriteEvent)

/-- The flow, the frames sent and the tasks that go on. -/
def stepEvent (f : Flow) (closed : Bool) : Event → Option (Flow × List Frame × List Code)
  | .send event => f.stepSend closed event
  | .opener event => (f.stepOpener closed event).map fun (f, codes) => (f, [], codes)
  | .reader event => (f.stepReader event).map fun (f, codes) => (f, [], codes)
  | .writer event => (f.stepWriter event).map fun (f, codes) => (f, [], codes)

/-! ## The other tasks -/

def ackOf (frame : Frame) : Frame := ⟨.streamACK, frame.sequence, []⟩

/-- A step of a task at the flow. `choice` is the outcome of `endpoint.Send`, or the choice of the
`select` of `enqueue`; `removeFlow` is a section of the forwarder. -/
def stepCode (f : Flow) (closed : Bool) (code : Code) (choice : Bool) :
    Option (Flow × List Frame × List Code) :=
  match code with
  | .acknowledge sequence => some (f.acknowledge sequence, [], [])
  | .enqueueSequenced frame =>
    match f.enqueueSequenced frame choice with
    | .ok (f, shouldACK) => some (f, [], if shouldACK then [.sendACK frame false] else [])
    | .error .queueFull => some (f, [], [])
    | .error (.refused err) => some (f, [], [if closed then .shutdown else .fail err])
  | .observeSequence frame =>
    match f.observeSequence frame.sequence with
    | (f, .duplicate) =>
      some (f, [], [if isOpenResultFrame frame.type then .shouldAcknowledgeOpenResult frame
        else .sendACK frame false])
    | (f, .future) => some (f, [], [])
    | (f, .expected) => some (f, [], [.expected frame])
  | .shouldAcknowledgeOpenResult frame =>
    some (f, [], if f.shouldAcknowledgeOpenResult frame.type then [.sendACK frame false] else [])
  | .expected frame =>
    match frame.type with
    | .streamOpenOK =>
      if !f.initiator then some (f, [], [.fail s!"{ErrTCPFlowProtocol}: responder received OPEN_OK"])
      else some (f, [], [.completeOpenFrame frame])
    | .streamOpenError =>
      if !f.initiator || f.opened then some (f, [],
        [.fail s!"{ErrTCPFlowProtocol}: unexpected OPEN_ERROR"])
      else some (f, [], [.completeOpenFrame frame])
    | .streamReset => some (f, [], [.sendACK frame true])
    | _ => some (f, [], [])
  | .completeOpenFrame frame =>
    match f.completeOpenFrame frame.type with
    | (f, true) => some (f, [], [.sendACK frame (frame.type = .streamOpenError)])
    | (f, false) => some (f, [], [])
  | .sendACK frame shutdown =>
    some ({ f with acked := f.acked ++ [frame] }, if choice then [ackOf frame] else [],
      if shutdown then [.shutdown] else [])
  | .fail cause => some ((f.completeOpenLocally).1, [], [.lockReset cause])
  | .lockReset cause => (f.lockSend (.reset cause)).map fun (f, codes) => (f, [], codes)
  | .shutdown =>
    if f.closing then some (f, [], [])
    else some ({ (f.completeOpenLocally).1 with closing := true }, [], [.closeDone])
  | .closeDone => some ({ f with done := true }, [], [.closeConn])
  | .closeConn => some ({ f with connClosed := true }, [], [.removeFlow])
  | .removeFlow => some (f, [], [])

end Flow

end Winkyou.Routed
