import Mathlib.Data.List.Basic
import Winkyou.Spec.Client.PeerStatus

/-!
# When a disconnected peer is reported so

The clean-up of a peer computes the states anew before the peer is removed from the tunnel, so a
handshake that the tunnel still reports connects the peer again, and a fresh path health does too.
`Silent` excludes both, and then the states that the clean-up wrote stay (`Down`, kept by each event
in `down_step`) in every later report.
-/

namespace Winkyou.Client

open List

variable {e e₀ : EnginePeers} {id : String} {p p₀ : PeerStatus} {stats : TunnelStats} {now : Time}

/-- The peer `p₀` as its clean-up leaves it. -/
structure Down (p₀ p : PeerStatus) : Prop where
  publicKey : p.publicKey = p₀.publicKey
  pathHealth : p.lastInbandPathHealthAt = p₀.lastInbandPathHealthAt
  state : p.state = .disconnected
  dataState : p.dataState = .failed

/-- The tunnel reports no handshake with the peer, and no in-band message calls its path healthy. -/
structure Silent (p₀ : PeerStatus) (stats : TunnelStats) (now : Time) : Prop where
  handshake : ∀ t, stats p₀.publicKey = some t → t.lastHandshake.isZero = true
  pathHealth : timestampFreshAt p₀.lastInbandPathHealthAt now inbandHealthWindow = false

@[simp] theorem syncTunnel_nodeID : (p.syncTunnel stats).nodeID = p.nodeID := by
  unfold PeerStatus.syncTunnel
  split
  · rfl
  · dsimp only
    split_ifs <;> rfl

@[simp] theorem applyHealth_nodeID : (p.applyHealth now).nodeID = p.nodeID := by
  unfold PeerStatus.applyHealth
  dsimp only
  split_ifs <;> rfl

theorem Down.syncTunnel (h : Down p₀ p) (hs : Silent p₀ stats now) :
    Down p₀ (p.syncTunnel stats) := by
  unfold PeerStatus.syncTunnel
  split
  · exact h
  rename_i t ht
  rw [h.publicKey] at ht
  rw [if_pos (hs.handshake t ht)]
  refine ⟨h.publicKey, h.pathHealth, h.state, ?_⟩
  dsimp only
  split_ifs
  · rfl
  · exact h.dataState

theorem Down.applyHealth (h : Down p₀ p) (hs : Silent p₀ stats now) :
    Down p₀ (p.applyHealth now) := by
  unfold PeerStatus.applyHealth
  dsimp only
  split_ifs with herr hfr hst
  · exact ⟨h.publicKey, h.pathHealth, h.state, rfl⟩
  · rw [h.pathHealth, hs.pathHealth] at hfr
    cases hfr
  · simp [h.dataState] at hst
  · exact ⟨h.publicKey, h.pathHealth, h.state, h.dataState⟩

/-- The node is down in an engine that was `e₀` before the clean-up, and it was not counted. -/
structure NodeDown (e₀ : EnginePeers) (id : String) (e : EnginePeers) : Prop where
  down : ∀ p ∈ e.peers, p.nodeID = id → ∃ p₀ ∈ e₀.peers, p₀.nodeID = id ∧ Down p₀ p
  uncounted : id ∉ e.counted

/-- What may happen after the clean-up of a node: no handshake with it and no message from it, and
at each recomputation its peer is silent. -/
def PeerEvent.Leaves (e₀ : EnginePeers) (id : String) : PeerEvent → Prop
  | .recompute stats now => ∀ p₀ ∈ e₀.peers, p₀.nodeID = id → Silent p₀ stats now
  | .handshake nodeID | .change nodeID _ => nodeID ≠ id

/-- A recomputation keeps a silent node down, and counts without it. -/
theorem nodeDown_recompute (hsil : PeerEvent.Leaves e₀ id (.recompute stats now))
    (h : ∀ p ∈ e.peers, p.nodeID = id → ∃ p₀ ∈ e₀.peers, p₀.nodeID = id ∧ Down p₀ p) :
    NodeDown e₀ id (e.updateStatusCounters stats now) := by
  have hdo : ∀ p ∈ (e.updateStatusCounters stats now).peers, p.nodeID = id →
      ∃ p₀ ∈ e₀.peers, p₀.nodeID = id ∧ Down p₀ p := by
    intro p hp hid
    obtain ⟨q, hq, rfl⟩ := mem_map.1 hp
    rw [applyHealth_nodeID, syncTunnel_nodeID] at hid
    obtain ⟨p₀, hp₀, hid₀, hd⟩ := h q hq hid
    have hs := hsil p₀ hp₀ hid₀
    exact ⟨p₀, hp₀, hid₀, (hd.syncTunnel hs).applyHealth hs⟩
  refine ⟨hdo, fun hcou => ?_⟩
  obtain ⟨p, hp, hid⟩ := mem_map.1 hcou
  obtain ⟨hp, hcon⟩ := mem_filter.1 hp
  obtain ⟨p₀, -, -, hd⟩ := hdo p hp hid
  simp [hd.state] at hcon

theorem nodeDown_modify {nodeID : String} {change : PeerStatus → PeerStatus} (h : NodeDown e₀ id e)
    (hne : nodeID ≠ id) (hcha : ∀ p : PeerStatus, p.nodeID = nodeID → (change p).nodeID = nodeID) :
    NodeDown e₀ id (e.modify nodeID change) := by
  refine ⟨?_, h.uncounted⟩
  intro p hp hid
  obtain ⟨q, hq, rfl⟩ := mem_map.1 hp
  split_ifs at hid ⊢ with hq'
  · exact absurd ((hcha q hq').symm.trans hid) hne
  · exact h.down q hq hid

theorem nodeDown_step (h : NodeDown e₀ id e) {event : PeerEvent} (hlea : event.Leaves e₀ id) :
    NodeDown e₀ id (e.step event) := by
  cases event with
  | recompute stats now => exact nodeDown_recompute hlea h.down
  | handshake nodeID => exact nodeDown_modify h hlea fun p hp => hp
  | change nodeID change => exact nodeDown_modify h hlea fun p hp => rfl

theorem nodeDown_cleanupPeer (hsil : PeerEvent.Leaves e₀ id (.recompute stats now)) :
    NodeDown e₀ id (e₀.cleanupPeer id stats now) := by
  refine nodeDown_recompute hsil ?_
  intro p hp hid
  obtain ⟨q, hq, rfl⟩ := mem_map.1 hp
  split_ifs at hid ⊢ with hq'
  · exact ⟨q, hq, hq', rfl, rfl, rfl, rfl⟩
  · exact absurd hid hq'

/-- **A node that is silent at its clean-up and after it is reported disconnected**, whatever
happens to the others. -/
theorem disconnected_peer_reported (e : EnginePeers) (id : String) (stats : TunnelStats)
    (now : Time) (events : List PeerEvent) (hcleanup : PeerEvent.Leaves e id (.recompute stats now))
    (hlater : ∀ event ∈ events, PeerEvent.Leaves e id event) :
    (∀ p ∈ (events.foldl EnginePeers.step (e.cleanupPeer id stats now)).peers, p.nodeID = id →
      p.state = .disconnected ∧ p.dataState ≠ .alive ∧ p.dataState ≠ .bound) ∧
      id ∉ (events.foldl EnginePeers.step (e.cleanupPeer id stats now)).counted := by
  have hdown : NodeDown e id (events.foldl EnginePeers.step (e.cleanupPeer id stats now)) :=
    List.foldlRecOn events EnginePeers.step (nodeDown_cleanupPeer hcleanup)
      fun _ h event hevent => nodeDown_step h (hlater event hevent)
  refine ⟨?_, hdown.uncounted⟩
  intro p hp hid
  obtain ⟨p₀, -, -, hd⟩ := hdown.down p hp hid
  rw [hd.state, hd.dataState]
  exact ⟨rfl, nofun, nofun⟩

def samplePeer : PeerStatus where
  nodeID := "b"
  publicKey := "key"
  state := .connected
  controlState := .connected
  dataState := .alive

/-- The tunnel reports another peer, whose handshake is counted, and none for `b`. -/
def otherStats : TunnelStats :=
  fun key => if key = "other" then some { lastHandshake := ⟨hour, true⟩ } else none

theorem disconnected_peer_reported_sample :
    let e : EnginePeers := ⟨[samplePeer, { samplePeer with nodeID := "c", publicKey := "other" }], []⟩
    let later := [PeerEvent.handshake "c", .recompute otherStats ⟨hour, true⟩].foldl EnginePeers.step
      (e.cleanupPeer "b" otherStats ⟨hour, true⟩)
    later.counted = ["c"] ∧ "b" ∉ later.counted := by
  have hsilent : PeerEvent.Leaves ⟨[samplePeer,
    { samplePeer with nodeID := "c", publicKey := "other" }], []⟩ "b"
      (.recompute otherStats ⟨hour, true⟩) := by
    intro p hp hid
    rcases mem_pair.1 hp with rfl | rfl
    · exact ⟨nofun, rfl⟩
    · exact absurd hid (by decide)
  refine ⟨by decide, (disconnected_peer_reported _ _ _ _ _ hsilent fun event hevent => ?_).2⟩
  rcases mem_pair.1 hevent with rfl | rfl
  · exact nofun
  · exact hsilent

/-- **The tunnel still reports the handshake when the peer is cleaned up.** The peer is connected
again, and so it stays after it was removed from the tunnel. -/
theorem disconnected_peer_connected_again :
    let reports : TunnelStats := fun _ => some { lastHandshake := ⟨1, true⟩ }
    let e := (EnginePeers.mk [samplePeer] []).cleanupPeer "b" reports ⟨hour, true⟩
    let later := e.step (.recompute (fun _ => none) ⟨2 * hour, true⟩)
    later.counted = ["b"] ∧ ∀ p ∈ later.peers, p.state = .connected ∧ p.dataState = .alive := by
  decide

end Winkyou.Client
