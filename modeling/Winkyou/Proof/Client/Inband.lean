import Mathlib.Data.List.Induction
import Winkyou.Proof.Client.PeerStatus
import Winkyou.Spec.Client.Inband

/-!
# Whose clock the health of a peer is judged by

A message is judged by the time of its sender: its peer keeps this time as that of the last sign of
life, and the health rules of all peers are applied at it. `SameVerdict` and `Inbound.Synced` say
that this time and the receiver's agree on what is fresh.
-/

namespace Winkyou.Client

open List

/-- A message, with the receiver's time at which it is handled. -/
structure Inbound where
  msg : InbandMessage
  now : Time

variable {me : String} {e : EnginePeers} {p q : PeerStatus} {msg : InbandMessage}
  {now seen t : Time} {xs : List Inbound}

def EnginePeers.handleAll (me : String) (e : EnginePeers) (xs : List Inbound) : EnginePeers :=
  xs.foldl (fun e x => e.handleInband me x.msg x.now) e

/-- A time is within the last health window. -/
def Fresh (ts now : Time) : Prop := timestampFreshAt ts now inbandHealthWindow = true

theorem fresh_iff {ts : Time} :
    Fresh ts now ↔ ts.nanos ≠ 0 ∧ ts.nanos ≤ now.nanos ∧ now.nanos ≤ ts.nanos + inbandHealthWindow := by
  have hsub : now.sub ts ≤ inbandHealthWindow ↔ now.nanos ≤ ts.nanos + inbandHealthWindow := by
    show now.nanos - ts.nanos ≤ (inbandHealthWindow : ℤ) ↔ _
    omega
  rw [Fresh, timestampFreshAt, Bool.and_eq_true, Bool.and_eq_true, Bool.not_eq_true',
    Time.isZero_eq_false_iff,
    Bool.not_eq_true', Time.after, decide_eq_false_iff_not, decide_eq_true_iff, hsub, not_lt, and_assoc]

/-- The times kept of a peer are fresh at one time exactly when they are at the other. -/
def SameVerdict (q : PeerStatus) (seen now : Time) : Prop :=
  (Fresh q.lastInbandHeartbeatAt seen ↔ Fresh q.lastInbandHeartbeatAt now) ∧
    (Fresh q.lastInbandPathHealthAt seen ↔ Fresh q.lastInbandPathHealthAt now)

/-- At `t`, the time of the message is fresh exactly when the time at which it was handled is. -/
def Inbound.Synced (t : Time) (x : Inbound) : Prop := Fresh (x.msg.seenAt x.now) t ↔ Fresh x.now t

theorem applyHealth_congr (h : SameVerdict q seen now) :
    q.applyHealth seen = q.applyHealth now := by
  have hc : q.healthControl seen = q.healthControl now := by
    unfold PeerStatus.healthControl
    rw [Bool.eq_iff_iff.2 h.1]
  unfold PeerStatus.applyHealth
  dsimp only
  rw [hc, Bool.eq_iff_iff.2 h.2]

/-- A message is taken when it is for this node, from a peer it has, and says something. -/
def InbandMessage.Taken (me : String) (e : EnginePeers) (msg : InbandMessage) : Prop :=
  msg.isFor me = true ∧ (∃ p ∈ e.peers, p.nodeID = msg.sender) ∧ msg.changes = true

/-- What becomes of a peer when a message is taken. -/
def PeerStatus.afterInband (msg : InbandMessage) (now : Time) (p : PeerStatus) : PeerStatus :=
  (if p.nodeID = msg.sender then p.noteInband msg (msg.seenAt now) else p).applyHealth (msg.seenAt now)

open PeerStatus (afterInband applyHealth noteInband)

theorem handleInband_taken (h : msg.Taken me e) :
    (e.handleInband me msg now).peers = e.peers.map (·.afterInband msg now) := by
  have hany : e.peers.any (·.nodeID = msg.sender) = true := by simpa using h.2.1
  simp only [EnginePeers.handleInband, h.1, hany, h.2.2, Bool.and_self, if_true, EnginePeers.modify,
    map_map]
  rfl

theorem handleInband_ignored (h : ¬ msg.Taken me e) : e.handleInband me msg now = e := by
  rw [EnginePeers.handleInband, if_neg]
  intro hc
  simp only [Bool.and_eq_true, any_eq_true, decide_eq_true_eq] at hc
  exact h ⟨hc.1.1, hc.1.2, hc.2⟩

/-! ## The time of the last sign of life -/

/-- A kind of message and the time that a peer keeps of it. -/
structure Sign where
  flag : InbandMessage → Bool
  time : PeerStatus → Time
  changes : ∀ msg, flag msg = true → msg.changes = true
  time_after : ∀ msg now p, time (afterInband msg now p) =
    if p.nodeID = msg.sender ∧ flag msg = true then msg.seenAt now else time p

theorem applyHealth_times : (p.applyHealth now).lastInbandHeartbeatAt = p.lastInbandHeartbeatAt ∧
    (p.applyHealth now).lastInbandPathHealthAt = p.lastInbandPathHealthAt := by
  unfold applyHealth
  dsimp only
  split_ifs <;> exact ⟨rfl, rfl⟩

def heartbeatSign : Sign where
  flag := (·.heartbeat)
  time := (·.lastInbandHeartbeatAt)
  changes msg h := by simp [InbandMessage.changes, h]
  time_after msg now p := by
    rw [afterInband, applyHealth_times.1, noteInband]
    split_ifs <;> simp_all

def pathHealthSign : Sign where
  flag := (·.pathHealth)
  time := (·.lastInbandPathHealthAt)
  changes msg h := by simp [InbandMessage.changes, h]
  time_after msg now p := by
    rw [afterInband, applyHealth_times.2, noteInband]
    split_ifs <;> simp_all

theorem afterInband_nodeID : (p.afterInband msg now).nodeID = p.nodeID := by
  rw [afterInband, applyHealth_nodeID, noteInband]
  split_ifs <;> rfl

/-- A message of the kind that a node sent to this one. -/
def Sign.Heard (s : Sign) (me id : String) (x : Inbound) : Prop :=
  x.msg.isFor me = true ∧ x.msg.sender = id ∧ s.flag x.msg = true

theorem time_handleInband (s : Sign) (x : Inbound)
    (hp : p ∈ (e.handleInband me x.msg x.now).peers) :
    ∃ p₀ ∈ e.peers, p.nodeID = p₀.nodeID ∧ ((s.Heard me p.nodeID x ∧ s.time p = x.msg.seenAt x.now) ∨
      (¬ s.Heard me p.nodeID x ∧ s.time p = s.time p₀)) := by
  by_cases ht : x.msg.Taken me e
  · rw [handleInband_taken ht, mem_map] at hp
    obtain ⟨p₀, hp₀, rfl⟩ := hp
    refine ⟨p₀, hp₀, afterInband_nodeID, ?_⟩
    rw [afterInband_nodeID, s.time_after]
    split_ifs with hc
    · exact .inl ⟨⟨ht.1, hc.1.symm, hc.2⟩, rfl⟩
    · exact .inr ⟨fun hh => hc ⟨hh.2.1.symm, hh.2.2⟩, rfl⟩
  · rw [handleInband_ignored ht] at hp
    exact ⟨p, hp, rfl, .inr ⟨fun hh => ht ⟨hh.1, ⟨p, hp, hh.2.1.symm⟩, s.changes _ hh.2.2⟩, rfl⟩⟩

/-- The messages of a node come in the order of the receiver's clock, none of them after `t`, and
their own times agree with that clock on what is fresh. -/
structure Timely (id : String) (xs : List Inbound) (t : Time) : Prop where
  mono : xs.Pairwise fun x y => x.msg.sender = id → y.msg.sender = id → x.now.nanos ≤ y.now.nanos
  clock : ∀ x ∈ xs, x.msg.sender = id → 0 < x.now.nanos ∧ x.now.nanos ≤ t.nanos
  sync : ∀ x ∈ xs, x.msg.sender = id → x.Synced t

theorem Timely.of_append {id : String} {ys : List Inbound} (h : Timely id (xs ++ ys) t) :
    Timely id xs t where
  mono := (pairwise_append.1 h.mono).1
  clock x hx := h.clock x (mem_append_left _ hx)
  sync x hx := h.sync x (mem_append_left _ hx)

/-- **A peer is healthy exactly when it was heard within the window.** -/
theorem fresh_iff_heard (s : Sign) {id : String}
    (h0 : ∀ p ∈ e.peers, p.nodeID = id → s.time p = .zero) (hxs : Timely id xs t) :
    ∀ p ∈ (e.handleAll me xs).peers, p.nodeID = id →
      (Fresh (s.time p) t ↔ ∃ x ∈ xs, s.Heard me id x ∧ Fresh x.now t) := by
  -- the messages are handled from the first on, so the induction takes off the last
  induction xs using reverseRecOn with
  | nil =>
    intro p hp hid
    rw [h0 p hp hid]
    exact ⟨nofun, nofun⟩
  | append_singleton xs x ih =>
    rintro p hp rfl
    rw [EnginePeers.handleAll, foldl_append] at hp
    have hx : x ∈ xs ++ [x] := mem_append_right _ mem_cons_self
    obtain ⟨p₀, hp₀, hid, ⟨hh, htime⟩ | ⟨hno, htime⟩⟩ := time_handleInband s x hp
    · have hs : Fresh (x.msg.seenAt x.now) t ↔ Fresh x.now t := hxs.sync x hx hh.2.1
      rw [htime, hs]
      refine ⟨fun hf => ⟨x, hx, hh, hf⟩, fun ⟨y, hy, hy', hf⟩ => ?_⟩
      rcases mem_append.1 hy with hy | hy
      · -- the last message is at least as fresh
        have hle := (pairwise_append.1 hxs.mono).2.2 y hy x mem_cons_self hy'.2.1 hh.2.1
        have hclock := hxs.clock x hx hh.2.1
        rw [fresh_iff] at hf ⊢
        omega
      · rwa [← mem_singleton.1 hy]
    · rw [htime, ih hxs.of_append p₀ hp₀ hid.symm]
      constructor
      · exact fun ⟨y, hy, h⟩ => ⟨y, mem_append_left _ hy, h⟩
      · rintro ⟨y, hy, h⟩
        rcases mem_append.1 hy with hy | hy
        · exact ⟨y, hy, h⟩
        · exact absurd (mem_singleton.1 hy ▸ h.1) hno

/-- **Health is judged per peer and by the receiver's clock**, when the times of the messages agree
with it on what is fresh: a message leaves every other peer as the health rules have it at the
receiver's time, and a peer is healthy exactly when it was heard within the window. -/
theorem peer_health_local :
    (∀ msg : InbandMessage, ¬ msg.Taken me e → e.handleInband me msg t = e) ∧
    (∀ (msg : InbandMessage) (i : ℕ) q, msg.Taken me e → e.peers[i]? = some q → q.nodeID ≠ msg.sender →
      SameVerdict q (msg.seenAt t) t → (e.handleInband me msg t).peers[i]? = some (q.applyHealth t)) ∧
    ∀ p ∈ (e.handleAll me xs).peers, Timely p.nodeID xs t →
      (∀ p₀ ∈ e.peers, p₀.nodeID = p.nodeID →
        p₀.lastInbandHeartbeatAt = .zero ∧ p₀.lastInbandPathHealthAt = .zero) →
      (Fresh p.lastInbandHeartbeatAt t ↔ ∃ x ∈ xs, heartbeatSign.Heard me p.nodeID x ∧ Fresh x.now t) ∧
      (Fresh p.lastInbandPathHealthAt t ↔ ∃ x ∈ xs, pathHealthSign.Heard me p.nodeID x ∧
        Fresh x.now t) := by
  refine ⟨fun msg h => handleInband_ignored h, ?_, fun p hp hxs h0 => ⟨?_, ?_⟩⟩
  · intro msg i q htaken hq hne hsame
    rw [handleInband_taken htaken, getElem?_map, hq, Option.map_some, afterInband, if_neg hne,
      applyHealth_congr hsame]
  · exact fresh_iff_heard heartbeatSign (fun p hp hid => (h0 p hp hid).1) hxs p hp rfl
  · exact fresh_iff_heard pathHealthSign (fun p hp hid => (h0 p hp hid).2) hxs p hp rfl

/-- A peer that was heard at a time. -/
def heardPeer (nodeID : String) (heardAt : Time) : PeerStatus :=
  { nodeID := nodeID, publicKey := nodeID, state := .connected, controlState := .degraded, dataState := .alive
    lastInbandHeartbeatAt := heardAt, lastInbandPathHealthAt := heardAt }

/-- A heartbeat of "b", whose clock is an hour ahead, takes the health of "c" away. -/
theorem heartbeat_disconnects_other :
    let e : EnginePeers := ⟨[heardPeer "b" ⟨100 * second, true⟩,
      heardPeer "c" ⟨100 * second, true⟩], []⟩
    let msg : InbandMessage :=
      { sender := "b", target := "a", sentAt := ⟨3701 * second, true⟩, heartbeat := true }
    let now : Time := ⟨101 * second, true⟩
    (e.peers.map (·.applyHealth now)).map (fun p => (p.controlState, p.dataState)) =
        [(.degraded, .alive), (.degraded, .alive)] ∧
      (e.handleInband "a" msg now).peers.map (fun p => (p.controlState, p.dataState)) =
        [(.degraded, .stale), (.disconnected, .stale)] := by
  decide

theorem peer_health_local_unstamped :
    let e : EnginePeers := ⟨[heardPeer "b" .zero, heardPeer "c" .zero], []⟩
    let xs : List Inbound := [⟨{ sender := "b", target := "a", heartbeat := true },
      ⟨100 * second, true⟩⟩]
    ∀ p ∈ (e.handleAll "a" xs).peers, Fresh p.lastInbandHeartbeatAt ⟨101 * second, true⟩ ↔
      ∃ x ∈ xs, heartbeatSign.Heard "a" p.nodeID x ∧ Fresh x.now ⟨101 * second, true⟩ :=
  fun p hp => (peer_health_local.2.2 p hp ⟨pairwise_singleton _ _, by
    simp only [mem_singleton, forall_eq]
    exact fun _ => by decide, by
    simp only [mem_singleton, forall_eq, Inbound.Synced, Fresh]
    exact fun _ => by decide⟩ (by simp [heardPeer])).1

end Winkyou.Client
