import Winkyou.Spec.GoStd

/-!
# The receive queue of a signal relay (`solver/strategy/signalrelay/transport.go`)

Calls of `deliver` run next to `ReadPacket`, `Close` and the remote close. Each operation on
`recvCh` or on `closed` is one step; `closeCh` only ends a `ReadPacket` that takes no packet.
-/

namespace Winkyou.SignalRelay

structure Packet where
  data : Bytes
  receivedAt : Time

/-- The next operation of a `deliver` call. -/
inductive Point
  | load
  /-- The outer `select`. -/
  | trySend
  /-- The inner `select`. -/
  | tryReceive
  | send

/-- Who takes a packet out of `recvCh`. -/
inductive Taker
  | readPacket
  | deliver

structure Transport where
  /-- The capacity of `recvCh`. -/
  queueSize : ℕ
  recvCh : List Packet := []
  closed : Bool := false
  /-- The `deliver` calls that have not returned. -/
  calls : List (Point × Packet) := []
  /-- The packets of the `deliver` calls that found the transport open and data to deliver, in
  order. -/
  accepted : List Packet := []
  /-- The packets that were taken out of `recvCh`, in order. -/
  taken : List (Taker × Packet) := []

def defaultQueueSize : ℕ := 256

def newSignalTransport (queueSize : ℤ) : Transport where
  queueSize := if queueSize ≤ 0 then defaultQueueSize else queueSize.toNat

/-- A send on `recvCh`; none when there is no room. -/
def Transport.push (t : Transport) (pkt : Packet) : Option Transport :=
  if t.recvCh.length < t.queueSize then
    some { t with recvCh := t.recvCh ++ [pkt] }
  else none

/-- A receive from `recvCh` that does not wait. -/
def Transport.take (t : Transport) (taker : Taker) : Transport :=
  match t.recvCh with
  | [] => t
  | pkt :: rest => { t with recvCh := rest, taken := t.taken ++ [(taker, pkt)] }

/-- The next operation of a `deliver` call, and the one after it unless the call returns; none when
it has to wait. -/
def Transport.deliver (t : Transport) (pkt : Packet) : Point → Option (Transport × Option Point)
  | .load => some <|
    if t.closed || pkt.data.isEmpty then (t, none)
    else ({ t with accepted := t.accepted ++ [pkt] }, some .trySend)
  | .trySend => some <| match t.push pkt with
    | some t => (t, none)
    | none => (t, some .tryReceive)
  | .tryReceive => some (t.take .deliver, some .send)
  | .send => (t.push pkt).map (·, none)

inductive Action
  /-- `deliver` is called. -/
  | call (data : Bytes) (receivedAt now : Time)
  /-- A call takes its next step. -/
  | step (i : ℕ)
  /-- `ReadPacket` receives a packet. -/
  | readPacket
  /-- `Close` or the remote close stores `closed`. -/
  | close

def Action.isCall (a : Action) : Bool := a matches .call ..

def Transport.step (t : Transport) : Action → Option Transport
  | .call data receivedAt now =>
    some { t with calls := t.calls ++ [(.load, ⟨data, if receivedAt.isZero then now else receivedAt⟩)] }
  | .step i => do
    let (point, pkt) ← t.calls[i]?
    let (t, next) ← t.deliver pkt point
    some { t with calls := t.calls.take i ++ (next.map (·, pkt)).toList ++ t.calls.drop (i + 1) }
  | .readPacket => if t.recvCh.isEmpty then none else some (t.take .readPacket)
  | .close => some { t with closed := true }

end Winkyou.SignalRelay
