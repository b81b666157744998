import Winkyou.Lib.Transition
import Winkyou.Spec.Solver.SignalRelay

/-!
# Delivery to a signal relay

A `deliver` that finds the queue full takes a packet out of it and then waits for room. Alone it
finds the room that it made (`deliver_never_waits`); another `deliver` can take that room between
the two steps (`deliver_waits_for_reader`).
-/

namespace Winkyou.SignalRelay

open List
open Transition (Reachable)

variable {t t' : Transport} {pkt : Packet} {point : Point} {next : Option Point} {a : Action}

structure QueueOK (t : Transport) : Prop where
  pos : 0 < t.queueSize
  room : t.recvCh.length ≤ t.queueSize

/-- The packet of a call that is past its first check. -/
def waiting : Point × Packet → List Packet
  | (.load, _) => []
  | (_, pkt) => [pkt]

/-- At most one call runs, it finds room when it waits for it, and no packet is lost. -/
structure Alone (t : Transport) : Prop where
  one : t.calls = [] ∨ ∃ c, t.calls = [c]
  room : ∀ c ∈ t.calls, c.1 = .send → t.recvCh.length < t.queueSize
  kept : t.taken.map (·.2) ++ t.recvCh ++ t.calls.flatMap waiting = t.accepted

/-- **A receive** moves the oldest packet to the packets taken out. -/
theorem take_spec (t : Transport) (taker : Taker) : (t.take taker).recvCh = t.recvCh.tail ∧
    (t.take taker).taken.map (·.2) ++ (t.take taker).recvCh = t.taken.map (·.2) ++ t.recvCh ∧
    (t.take taker).calls = t.calls ∧ (t.take taker).accepted = t.accepted ∧
    (t.take taker).queueSize = t.queueSize := by
  unfold Transport.take
  split <;> simp [*]

theorem QueueOK.take (h : QueueOK t) (taker : Taker) : QueueOK (t.take taker) := by
  obtain ⟨hrecv, -, -, -, hsize⟩ := take_spec t taker
  refine ⟨hsize ▸ h.pos, ?_⟩
  rw [hrecv, hsize]
  exact (tail_sublist _).length_le.trans h.room

theorem push_eq_some (hp : t.push pkt = some t') :
    t.recvCh.length < t.queueSize ∧ t' = { t with recvCh := t.recvCh ++ [pkt] } := by
  unfold Transport.push at hp
  split_ifs at hp with hroom
  exact ⟨hroom, (Option.some.inj hp).symm⟩

/-- What a step of a `deliver` call does with its packet and with the queue. -/
structure Delivers (t : Transport) (pkt : Packet) (point : Point) (t' : Transport)
    (next : Option Point) : Prop where
  calls : t'.calls = t.calls
  room : next = some .send → t'.recvCh.length < t'.queueSize
  /-- The call returns at its check, or with its packet last in the queue. -/
  last : next = none →
    point = .load ∧ (t.closed = true ∨ pkt.data = []) ∨ t'.recvCh = t.recvCh ++ [pkt]
  /-- It goes on to take a packet out only when the queue is full, and takes one out only there. -/
  full : next = some .tryReceive → t.recvCh.length = t.queueSize
  taken : t'.taken = t.taken ∨ point = .tryReceive
  kept : t.taken.map (·.2) ++ t.recvCh ++ waiting (point, pkt) = t.accepted →
    t'.taken.map (·.2) ++ t'.recvCh ++ (next.map (·, pkt)).toList.flatMap waiting = t'.accepted

theorem QueueOK.push (h : QueueOK t) (hp : t.push pkt = some t')
    (hpoint : waiting (point, pkt) = [pkt]) :
    QueueOK t' ∧ Delivers t pkt point t' none := by
  obtain ⟨hroom, rfl⟩ := push_eq_some hp
  refine ⟨⟨h.pos, ?_⟩, rfl, nofun, fun _ => .inr rfl, nofun, .inl rfl, fun hkept => ?_⟩
  · rw [length_append]
    exact hroom
  · simpa [hpoint] using hkept

/-- **One step of a call.** -/
theorem QueueOK.deliver (h : QueueOK t) (hd : t.deliver pkt point = some (t', next)) :
    QueueOK t' ∧ Delivers t pkt point t' next := by
  cases point with
  | load =>
    simp only [Transport.deliver] at hd
    split_ifs at hd with hcheck
    · cases hd
      exact ⟨h, rfl, nofun, fun _ => .inl ⟨rfl, by simpa using hcheck⟩, nofun, .inl rfl, id⟩
    · cases hd
      refine ⟨{ h with }, rfl, nofun, nofun, nofun, .inl rfl, fun hkept => ?_⟩
      rw [← hkept]
      simp [waiting]
  | trySend =>
    simp only [Transport.deliver] at hd
    split at hd
    · cases hd
      exact h.push ‹_› rfl
    · rename_i hnone
      cases hd
      have hfull : t.queueSize ≤ t.recvCh.length := by simpa [Transport.push] using hnone
      exact ⟨h, rfl, nofun, nofun, fun _ => le_antisymm h.room hfull, .inl rfl, id⟩
  | tryReceive =>
    cases hd
    obtain ⟨hrecv, hkept, hcalls, haccepted, hsize⟩ := take_spec t .deliver
    refine ⟨h.take _, hcalls, fun _ => ?_, nofun, nofun, .inr rfl, fun hk => ?_⟩
    · have hpos := h.pos
      have hroom := h.room
      rw [hrecv, hsize, length_tail]
      omega
    · rw [hkept, haccepted, ← hk]
      rfl
  | send =>
    obtain ⟨t₁, hp, ⟨⟩⟩ := Option.map_eq_some_iff.1 hd
    exact h.push hp rfl

/-- **One step.** -/
theorem QueueOK.step (h : QueueOK t) (hs : t.step a = some t') :
    QueueOK t' ∧ ((a.isCall = true → t.calls = []) → Alone t → Alone t') := by
  cases a with
  | call =>
    cases hs
    refine ⟨{ h with }, fun hone halone => ?_⟩
    have hnil := hone rfl
    exact ⟨.inr ⟨_, by rw [hnil]; rfl⟩, by simp [hnil], by simpa [hnil, waiting] using halone.kept⟩
  | step i =>
    simp only [Transport.step, Option.bind_eq_bind, Option.bind_eq_some_iff] at hs
    obtain ⟨⟨point, pkt⟩, hc, ⟨t₁, next⟩, hd, ⟨⟩⟩ := hs
    obtain ⟨hq, hdel⟩ := h.deliver hd
    refine ⟨{ hq with }, fun _ halone => ?_⟩
    obtain ⟨c, hone⟩ := halone.one.resolve_left fun hnil => by simp [hnil] at hc
    have hkept := halone.kept
    have hcalls := hdel.calls
    rw [hone] at hc hcalls hkept
    cases i with
    | zero =>
      obtain rfl : c = (point, pkt) := Option.some.inj hc
      have hkept := hdel.kept (by simpa using hkept)
      simp only [hcalls]
      cases next with
      | none => exact ⟨.inl rfl, nofun, hkept⟩
      | some point =>
        refine ⟨.inr ⟨_, rfl⟩, fun c' hmem hsend => ?_, hkept⟩
        obtain rfl := mem_singleton.1 hmem
        exact hdel.room (congrArg some hsend)
    | succ i => cases hc
  | readPacket =>
    simp only [Transport.step] at hs
    split_ifs at hs
    cases hs
    obtain ⟨hrecv, hkept, hcalls, haccepted, hsize⟩ := take_spec t .readPacket
    refine ⟨h.take _, fun _ halone => ⟨hcalls ▸ halone.one, fun c hc hsend => ?_, ?_⟩⟩
    · rw [hrecv, hsize]
      exact (tail_sublist _).length_le.trans_lt (halone.room c (hcalls ▸ hc) hsend)
    · rw [hkept, hcalls, haccepted]
      exact halone.kept
  | close =>
    cases hs
    exact ⟨{ h with }, fun _ halone => { halone with }⟩

theorem newSignalTransport_ok (queueSize : ℤ) : QueueOK (newSignalTransport queueSize) := by
  refine ⟨?_, Nat.zero_le _⟩
  simp only [newSignalTransport, defaultQueueSize]
  split <;> omega

/-- **A `deliver` alone never waits for the reader.** Whatever runs, the queue keeps its bound, and
a call puts its packet last and takes one out only after it found the queue full. When the calls run
one after the other, none has to wait, and the packets that were taken out, those in the queue and
that of the call that runs are the accepted ones in their order. -/
theorem deliver_never_waits (queueSize : ℤ) :
    (∀ t, Reachable Transport.step (· = newSignalTransport queueSize) (fun _ _ => True) t →
      t.recvCh.length ≤ t.queueSize ∧
      ∀ c ∈ t.calls, ∀ t' next, t.deliver c.2 c.1 = some (t', next) → Delivers t c.2 c.1 t' next) ∧
    ∀ t, Reachable Transport.step (· = newSignalTransport queueSize)
      (fun t a => a.isCall = true → t.calls = []) t → (∀ c ∈ t.calls, (t.deliver c.2 c.1).isSome) ∧
      t.taken.map (·.2) ++ t.recvCh ++ t.calls.flatMap waiting = t.accepted := by
  refine ⟨fun t h => ?_, fun t h => ?_⟩
  · have hq : QueueOK t := by
      refine h.invariant ?_ fun t a t' _ ht _ hs => (ht.step hs).1
      rintro _ rfl
      exact newSignalTransport_ok queueSize
    exact ⟨hq.room, fun c _ t' next hd => (hq.deliver hd).2⟩
  · obtain ⟨hq, halone⟩ : QueueOK t ∧ Alone t := by
      refine h.invariant (P := fun t => QueueOK t ∧ Alone t) ?_ fun t a t' _ ht hone hs =>
        ⟨(ht.1.step hs).1, (ht.1.step hs).2 hone ht.2⟩
      rintro _ rfl
      exact ⟨newSignalTransport_ok queueSize, .inl rfl, nofun, rfl⟩
    refine ⟨fun ⟨point, pkt⟩ hc => ?_, halone.kept⟩
    cases point with
    | send => simp [Transport.deliver, Transport.push, halone.room _ hc rfl]
    | _ => rfl

/-- A queue of one packet after three deliveries in turn: the first packet was dropped for the
second, which was read while the third waited. -/
def drained : Transport where
  queueSize := 1
  calls := [(.tryReceive, ⟨[3], .zero⟩)]
  accepted := [⟨[1], .zero⟩, ⟨[2], .zero⟩, ⟨[3], .zero⟩]
  taken := [(.deliver, ⟨[1], .zero⟩), (.readPacket, ⟨[2], .zero⟩)]

theorem deliver_never_waits_drained : (∀ c ∈ drained.calls, (drained.deliver c.2 c.1).isSome) ∧
    drained.taken.map (·.2) ++ drained.recvCh ++ drained.calls.flatMap waiting = drained.accepted := by
  let acts : List Action := [.call [1] .zero .zero, .step 0, .step 0, .call [2] .zero .zero,
    .step 0, .step 0, .step 0, .step 0, .call [3] .zero .zero, .step 0, .step 0, .readPacket]
  have hrun : Transition.runFrom Transport.step (fun t a => a.isCall = true →
    t.calls = []) (newSignalTransport 1) acts = some drained := rfl
  exact (deliver_never_waits 1).2 drained (.of_run (.start rfl) hrun)

theorem waits_step (hcalls : t.calls = [(.send, pkt)]) (hfull : t.queueSize ≤ t.recvCh.length)
    (hr : a ≠ .readPacket) (hc : a.isCall = false) (hs : t.step a = some t') :
    t'.calls = [(.send, pkt)] ∧ t'.queueSize ≤ t'.recvCh.length := by
  cases a with
  | call => cases hc
  | readPacket => exact absurd rfl hr
  | step i => cases i <;> simp [Transport.step, Transport.deliver, Transport.push, hcalls,
      not_lt.2 hfull] at hs
  | close =>
    cases hs
    exact ⟨hcalls, hfull⟩

/-- A queue of one packet after the second of two deliveries took the room that the first made. -/
def crowded : Transport where
  queueSize := 1
  recvCh := [⟨[3], .zero⟩]
  calls := [(.send, ⟨[2], .zero⟩)]
  accepted := [⟨[1], .zero⟩, ⟨[2], .zero⟩, ⟨[3], .zero⟩]
  taken := [(.deliver, ⟨[1], .zero⟩)]

/-- **Two deliveries to a full queue**: one of them waits, whatever happens without a read and a
further `deliver`. -/
theorem deliver_waits_for_reader :
    Reachable Transport.step (· = newSignalTransport 1) (fun _ _ => True) crowded ∧
    ∀ t, Reachable Transport.step (· = crowded) (fun _ a => a ≠ .readPacket ∧ a.isCall = false) t →
      ∃ pkt, t.calls = [(.send, pkt)] ∧ t.deliver pkt .send = none := by
  constructor
  · let acts : List Action := [.call [1] .zero .zero, .step 0, .step 0, .call [2] .zero .zero,
      .call [3] .zero .zero, .step 0, .step 0, .step 0, .step 1, .step 1]
    have hrun : Transition.runFrom Transport.step (fun _ _ => True) (newSignalTransport 1) acts =
      some crowded := rfl
    exact .of_run (.start rfl) hrun
  · intro t h
    obtain ⟨hcalls, hfull⟩ := h.invariant
      (P := fun t => t.calls = [(.send, ⟨[2], .zero⟩)] ∧ t.queueSize ≤ t.recvCh.length)
      (fun _ h0 => h0 ▸ ⟨rfl, le_rfl⟩) fun t a t' _ ht ha hs => waits_step ht.1 ht.2 ha.1 ha.2 hs
    exact ⟨_, hcalls, by simp [Transport.deliver, Transport.push, hfull]⟩

end Winkyou.SignalRelay
