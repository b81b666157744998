import Mathlib.Logic.Relation
import Mathlib.Data.List.Chain
import Mathlib.Data.List.Nodup
import Winkyou.Spec.Mesh.Network

/-!
# Flooding reaches every node once

A broadcast is told apart by its key, the origin and the sequence number. While it is on its way,
every copy carries the path that it has taken, all of whose nodes have seen it, and a hop limit that
has lost one for each of them. A node that does not flood any further because the limit is used up
is at the end of a path as long as the network is large, so that every node has seen the message
already.

* `Acts`: what any call does to a router, for every key.
* `NetworkOK`: what all runs keep: whatever was seen or sent was seen by its origin.
* `SpreadOK`: what all runs keep from the moment a broadcast is sent.
* `flood_exactly_once`: the broadcast reaches every node once.
-/

namespace Winkyou.Mesh

open List Function AList
open Router (floodTargets relay send)
open Except (bind_ok_iff failIf_ok_iff mapError_ok_iff)

variable {path : List String} {a : NetworkAction}

def Message.key (m : Message) : SeenKey := ⟨m.fromNode, m.seq⟩

def Router.seenKeys (r : Router) : List SeenKey := r.seen.map Prod.fst

variable {r : Router} {msg m : Message} {now : Time} {peer u v : String} {k : SeenKey}
  {nodes : List String} {w w' : Network} {c : Copy}

/-! ## What a call can do -/

/-- What a call does: nothing, or it marks the message with the key `k` as seen, and whatever it
delivers or sends to its neighbors is that message. -/
structure Acts (r : Router) (call : Router × Effects) (k : SeenKey) : Prop where
  nodeID : call.1.nodeID = r.nodeID
  closed : call.1.closed = r.closed
  neighbors : call.1.neighbors = r.neighbors
  effect : (call.1.seenKeys = r.seenKeys ∧ call.2.delivered = [] ∧ call.2.sent = []) ∨
    (k ∉ r.seenKeys ∧ call.1.seenKeys = k :: r.seenKeys ∧ (∀ m ∈ call.2.delivered, m.key = k) ∧
      ∀ s ∈ call.2.sent, s.1 ∈ r.neighbors ∧ s.2.key = k)

theorem Acts.carried {call : Router × Effects} (h : Acts r call k) :
    (∀ m ∈ call.2.delivered, m.key = k ∧ k ∉ r.seenKeys ∧ k ∈ call.1.seenKeys) ∧
      ∀ s ∈ call.2.sent, s.1 ∈ r.neighbors ∧ s.2.key = k ∧ k ∉ r.seenKeys ∧ k ∈ call.1.seenKeys := by
  rcases h.effect with ⟨-, hdel, hsent⟩ | ⟨hno, hke, hdel, hsent⟩
  · simp [hdel, hsent]
  · have hin : k ∈ call.1.seenKeys := hke ▸ mem_cons_self
    exact ⟨fun m hm => ⟨hdel m hm, hno, hin⟩, fun s hs => ⟨(hsent s hs).1, (hsent s hs).2, hno, hin⟩⟩

theorem markSeen_eq (hexp : r.NoExpiry now) (hop : r.closed = false) :
    r.markSeen msg now = if msg.key ∈ r.seenKeys then (r, some .duplicate)
      else ({ r with seen := (msg.key, now.add r.seenTTL) :: r.seen }, none) := by
  have hli : r.seen.filter (fun e => e.2.after now) = r.seen := filter_eq_self.2 hexp
  unfold Router.markSeen
  rw [if_neg (by rw [hop]; exact Bool.false_ne_true), hli]
  rfl

theorem deliverThen_quiet (msg : Message) (next : Effects) :
    Router.deliverThen quiet msg next = ⟨msg :: next.delivered, next.sent, next.err⟩ := rfl

theorem flood_quiet (r : Router) (peer : String) (msg : Message) :
    r.flood quiet peer msg = ⟨[], (r.floodTargets peer msg).map fun p => (p, msg), none⟩ := by
  simp [Router.flood, quiet]

theorem mem_floodTargets (hop : r.closed = false) :
    v ∈ r.floodTargets peer msg ↔ v ∈ r.neighbors ∧ v ≠ peer ∧ v ∉ msg.pathVector := by
  simp [floodTargets, hop, AList.mem_keys]

theorem lookup_mem {d next : String} (h : r.lookup d = .ok next) : next ∈ r.neighbors := by
  unfold Router.lookup at h
  split at h
  · cases h
  split at h
  · rename_i hso
    cases h
    exact lookup_isSome.1 hso
  · dsimp only at h
    split at h
    · cases h
    · split at h <;> cases h
      rename_i hno
      rw [← lookup_isSome]
      simpa [Option.isSome_iff_ne_none] using hno

/-- The sends of a call go to neighbors, and its messages have the key. -/
def Effects.Carry (fx : Effects) (r : Router) (k : SeenKey) : Prop :=
  (∀ m ∈ fx.delivered, m.key = k) ∧ ∀ s ∈ fx.sent, s.1 ∈ r.neighbors ∧ s.2.key = k

theorem carry_nothing (e : Option RouterErr) : Effects.Carry ⟨[], [], e⟩ r k :=
  ⟨fun _ h => absurd h not_mem_nil, fun _ h => absurd h not_mem_nil⟩

theorem carry_flood (hkey : msg.key = k) : (r.flood quiet peer msg).Carry r k := by
  rw [flood_quiet]
  refine ⟨fun _ h => absurd h not_mem_nil, forall_mem_map.2 fun p hp => ⟨?_, hkey⟩⟩
  unfold floodTargets at hp
  split at hp
  · cases hp
  · exact AList.mem_keys.2 (mem_of_mem_filter hp)

theorem carry_forward (hkey : msg.key = k) : (r.forward quiet msg).Carry r k := by
  unfold Router.forward
  split
  · exact carry_nothing _
  · rename_i next hne
    refine ⟨fun _ h => absurd h not_mem_nil, ?_⟩
    intro s hs
    rw [mem_singleton.1 hs]
    exact ⟨lookup_mem hne, hkey⟩

theorem carry_deliver (hkey : msg.key = k) : (Router.deliver quiet msg).Carry r k := by
  exact ⟨forall_mem_singleton.2 hkey, fun _ h => absurd h not_mem_nil⟩

theorem carry_deliverThen {next : Effects} (hkey : msg.key = k) (h : next.Carry r k) :
    (Router.deliverThen quiet msg next).Carry r k := by
  rw [deliverThen_quiet]
  exact ⟨forall_mem_cons.2 ⟨hkey, h.1⟩, h.2⟩

/-- What a relay sends on and delivers has the key of the message. -/
theorem carry_relay (hkey : msg.key = k) : (r.relay quiet peer msg).Carry r k := by
  unfold relay
  split
  · exact carry_nothing _
  dsimp only
  split
  · exact carry_nothing _
  split
  · refine carry_deliverThen hkey ?_
    split
    · exact carry_nothing _
    · exact carry_flood hkey
  · split
    · exact carry_deliver hkey
    · split
      · exact carry_nothing _
      · exact carry_forward hkey

theorem acts_nothing (e : Option RouterErr) : Acts r (r, ⟨[], [], e⟩) k :=
  ⟨rfl, rfl, rfl, .inl ⟨rfl, rfl, rfl⟩⟩

theorem acts_mark {r' : Router} {fx : Effects} (hid : r'.nodeID = r.nodeID)
    (hclo : r'.closed = r.closed) (hnei : r'.neighbors = r.neighbors)
    (hke : r'.seenKeys = r.seenKeys) (hse : k ∉ r.seenKeys) (hfx : fx.Carry r' k) (expiry : Time) :
    Acts r ({ r' with seen := (k, expiry) :: r'.seen }, fx) k := by
  refine ⟨hid, hclo, hnei, .inr ⟨hse, ?_, hfx.1, ?_⟩⟩
  · rw [← hke]
    rfl
  · rw [← hnei]
    exact hfx.2

/-- **An inbound message** acts for its own key. -/
theorem acts_handleInbound (hexp : r.NoExpiry now) (hop : r.closed = false) :
    Acts r (r.handleInbound quiet peer msg now) msg.key := by
  unfold Router.handleInbound
  split
  · exact acts_nothing _
  split
  · exact acts_nothing _
  split
  · exact acts_nothing _
  split
  · exact acts_nothing _
  · rw [markSeen_eq hexp hop]
    by_cases hse : msg.key ∈ r.seenKeys
    · rw [if_pos hse]
      exact acts_nothing _
    · rw [if_neg hse]
      exact acts_mark rfl rfl rfl rfl hse (carry_relay rfl) _

theorem prepare_ok (h : r.prepare msg = .ok m) :
    m.fromNode = r.nodeID ∧ m.seq = (if msg.seq = 0 then r.seq + 1 else msg.seq) ∧
      m.hopLimit = (if msg.hopLimit = 0 then defaultHopLimit else msg.hopLimit) ∧
        m.toNode = msg.toNode ∧
      r.fillPath msg.pathVector = .ok m.pathVector ∧ m.validate = .ok () := by
  simp only [Router.prepare, bind_ok_iff, failIf_ok_iff, mapError_ok_iff, ne_eq, Decidable.not_not] at h
  obtain ⟨_, hfr, path, hpa, ⟨⟩, hva, hret⟩ := h
  cases hret
  exact ⟨hfr, rfl, rfl, rfl, hpa, hva⟩

theorem takeSeq_spec (r : Router) (msg : Message) :
    (r.takeSeq msg).nodeID = r.nodeID ∧ (r.takeSeq msg).closed = r.closed ∧
      (r.takeSeq msg).neighbors = r.neighbors ∧ (r.takeSeq msg).seen = r.seen := by
  unfold Router.takeSeq
  split <;> exact ⟨rfl, rfl, rfl, rfl⟩

theorem acts_send (msg : Message) (hexp : r.NoExpiry now) (hop : r.closed = false) :
    ∃ k : SeenKey, k.origin = r.nodeID ∧ Acts r (r.send quiet msg now) k := by
  obtain ⟨hid, hclo, hnei, hse⟩ := takeSeq_spec r msg
  have hke : (r.takeSeq msg).seenKeys = r.seenKeys := congrArg (map Prod.fst) hse
  unfold send
  generalize r.takeSeq msg = taken at *
  rcases hpr : r.prepare msg with e | m
  · exact ⟨⟨r.nodeID, 0⟩, rfl, hid, hclo, hnei, .inl ⟨hke, rfl, rfl⟩⟩
  refine ⟨m.key, (prepare_ok hpr).1, ?_⟩
  have hexp' : taken.NoExpiry now := fun e he => hexp e (hse ▸ he)
  dsimp only
  rw [markSeen_eq hexp' (hclo.trans hop), hke]
  by_cases hnew : m.key ∈ r.seenKeys
  · rw [if_pos hnew]
    exact ⟨hid, hclo, hnei, .inl ⟨hke, rfl, rfl⟩⟩
  · rw [if_neg hnew]
    dsimp only
    split
    · exact acts_mark hid hclo hnei hke hnew (carry_deliverThen rfl (carry_flood rfl)) _
    · split
      · exact acts_mark hid hclo hnei hke hnew (carry_deliver rfl) _
      · exact acts_mark hid hclo hnei hke hnew (carry_forward rfl) _

/-! ## The network -/

/-- The node has seen the message with this key. -/
def Network.Seen (w : Network) (u : String) (k : SeenKey) : Prop := k ∈ (w.router u).seenKeys

instance (w : Network) (u : String) (k : SeenKey) : Decidable (w.Seen u k) :=
  inferInstanceAs (Decidable (k ∈ (w.router u).seenKeys))

/-- What all runs keep: whatever was seen, delivered or sent was seen by its origin. -/
structure NetworkOK (nodes : List String) (w : Network) : Prop where
  nodup : nodes.Nodup
  nodeID : ∀ u ∈ nodes, (w.router u).nodeID = u ∧ trimSpace u = u ∧ u ≠ ""
  running : ∀ u ∈ nodes, (w.router u).closed = false
  peers : ∀ u ∈ nodes, ∀ v, w.Adjacent u v → v ∈ nodes ∧ v ≠ u ∧ w.Adjacent v u
  origin : ∀ u ∈ nodes, ∀ k, w.Seen u k → k.origin ∈ nodes ∧ w.Seen k.origin k
  sent : ∀ c ∈ w.sent, c.sender ∈ nodes ∧ w.Adjacent c.sender c.receiver ∧ c.msg.fromNode ∈ nodes ∧
    w.Seen c.msg.fromNode c.msg.key
  inflight : w.inflight ⊆ w.sent
  delivered : ∀ u ∈ nodes, ∀ m ∈ w.delivered u, w.Seen u m.key

/-- The network with some copies taken out, after a call at a node. -/
def Network.after (w : Network) (rest : List Copy) (node : String) (call : Router × Effects) :
    Network :=
  { w with inflight := rest }.absorb node call

variable {rest : List Copy} {node : String} {call : Router × Effects}

theorem after_router (w : Network) (rest : List Copy) (node : String) (call : Router × Effects)
    (u : String) : (w.after rest node call).router u = if u = node then call.1 else w.router u := by
  show update w.router node call.1 u = _
  rw [update_apply]

theorem after_delivered (w : Network) (rest : List Copy) (node : String) (call : Router × Effects)
    (u : String) : (w.after rest node call).delivered u =
      if u = node then w.delivered node ++ call.2.delivered else w.delivered u := by
  show update w.delivered node (w.delivered node ++ call.2.delivered) u = _
  rw [update_apply]

theorem mem_after_delivered (hm : m ∈ (w.after rest node call).delivered u) :
    m ∈ w.delivered u ∨ u = node ∧ m ∈ call.2.delivered := by
  rw [after_delivered] at hm
  split at hm
  · rename_i heq
    exact (mem_append.1 hm).imp (fun h => heq ▸ h) fun h => ⟨heq, h⟩
  · exact .inl hm

theorem after_seen_self : (w.after rest node call).Seen node k ↔ k ∈ call.1.seenKeys := by
  rw [Network.Seen, after_router, if_pos rfl]

/-- What the call keeps of its router is kept at every node. -/
theorem after_kept {β : Type} {f : Router → β} (hf : f call.1 = f (w.router node)) (u : String) :
    f ((w.after rest node call).router u) = f (w.router u) := by
  rw [after_router]
  split
  · rename_i heq
    rw [hf, heq]
  · rfl

section After

variable (h : Acts (w.router node) call k)

include h

theorem after_adjacent (u v : String) : (w.after rest node call).Adjacent u v ↔ w.Adjacent u v := by
  unfold Network.Adjacent
  rw [after_kept h.neighbors]

theorem after_seen_mono {k' : SeenKey} (hse : w.Seen u k') :
    (w.after rest node call).Seen u k' := by
  unfold Network.Seen at *
  rw [after_router]
  split
  · rename_i hu
    rw [hu] at hse
    rcases h.effect with ⟨hke, -, -⟩ | ⟨-, hke, -, -⟩
    · rw [hke]
      exact hse
    · rw [hke]
      exact mem_cons_of_mem _ hse
  · exact hse

theorem after_seen_cases {k' : SeenKey} (hse : (w.after rest node call).Seen u k') :
    w.Seen u k' ∨ u = node ∧ k' = k := by
  unfold Network.Seen at *
  rw [after_router] at hse
  split at hse
  · rename_i hu
    rw [hu]
    rcases h.effect with ⟨hke, -, -⟩ | ⟨-, hke, -, -⟩
    · rw [hke] at hse
      exact .inl hse
    · rw [hke] at hse
      rcases mem_cons.1 hse with heq | hold
      · exact .inr ⟨rfl, heq⟩
      · exact .inl hold
  · exact .inl hse

/-- A call keeps the network when its key is one of the node, or was seen by its origin. -/
theorem NetworkOK.after (hok : NetworkOK nodes w) (hno : node ∈ nodes) (hre : rest ⊆ w.inflight)
    (hori : k.origin = node ∨ k.origin ∈ nodes ∧ w.Seen k.origin k) :
    NetworkOK nodes (w.after rest node call) := by
  -- what the call marks is seen by its origin afterwards
  have hsee : k ∈ call.1.seenKeys → k.origin ∈ nodes ∧ (w.after rest node call).Seen k.origin k := by
    intro hma
    rcases hori with heq | ⟨hin, hold⟩
    · rw [heq]
      exact ⟨hno, after_seen_self.2 hma⟩
    · exact ⟨hin, after_seen_mono h hold⟩
  refine ⟨hok.nodup, ?_, ?_, ?_, ?_, ?_, ?_, ?_⟩
  · intro u hu
    rw [after_kept h.nodeID]
    exact hok.nodeID u hu
  · intro u hu
    rw [after_kept h.closed]
    exact hok.running u hu
  · intro u hu v hadj
    rw [after_adjacent h] at hadj ⊢
    exact hok.peers u hu v hadj
  · intro u hu k' hse
    rcases after_seen_cases h hse with hold | ⟨rfl, rfl⟩
    · obtain ⟨hin, hs⟩ := hok.origin u hu k' hold
      exact ⟨hin, after_seen_mono h hs⟩
    · exact hsee (after_seen_self.1 hse)
  · intro c hc
    rcases mem_append.1 hc with hold | hnew
    · obtain ⟨h1, h2, h3, h4⟩ := hok.sent c hold
      exact ⟨h1, (after_adjacent h _ _).2 h2, h3, after_seen_mono h h4⟩
    obtain ⟨s, hs, rfl⟩ := mem_map.1 hnew
    obtain ⟨hpe, hkey, -, hma⟩ := h.carried.2 s hs
    have horg : s.2.fromNode = k.origin := congrArg SeenKey.origin hkey
    refine ⟨hno, (after_adjacent h _ _).2 hpe, ?_, ?_⟩
    · rw [horg]
      exact (hsee hma).1
    · rw [horg, hkey]
      exact (hsee hma).2
  · refine append_subset.2 ⟨?_, subset_append_right _ _⟩
    exact fun c hc => mem_append_left _ (hok.inflight (hre hc))
  · intro u hu m hm
    rcases mem_after_delivered hm with hold | ⟨rfl, hadd⟩
    · exact after_seen_mono h (hok.delivered u hu m hold)
    · obtain ⟨hkey, -, hma⟩ := h.carried.1 m hadd
      rw [hkey]
      exact after_seen_self.2 hma

end After

theorem start_ok (h : w.Start nodes) : NetworkOK nodes w where
  nodup := h.nodup
  nodeID := h.nodeID
  running u hu := (h.running u hu).1
  peers := h.peers
  origin u hu k hse := by
    rw [Network.Seen, Router.seenKeys, (h.running u hu).2] at hse
    cases hse
  sent c hc := by
    rw [h.sent] at hc
    cases hc
  inflight := by
    rw [h.inflight]
    exact nil_subset _
  delivered u _ m hm := by
    rw [h.delivered u] at hm
    cases hm

/-- **What a step can do**: a call of `Send` at a node, or of `HandleInbound` for a copy in
flight. -/
theorem step_cases (hok : NetworkOK nodes w) (hall : Allowed nodes w a) (hst : w.step a = some w') :
    (∃ node msg now k, node ∈ nodes ∧ (w.router node).NoExpiry now ∧ k.origin = node ∧
      Acts (w.router node) ((w.router node).send quiet msg now) k ∧
      w' = w.after w.inflight node ((w.router node).send quiet msg now)) ∨
    ∃ front c back now, w.inflight = front ++ c :: back ∧ c.receiver ∈ nodes ∧
      (w.router c.receiver).NoExpiry now ∧
      Acts (w.router c.receiver) ((w.router c.receiver).handleInbound quiet c.sender c.msg now)
        c.msg.key ∧
      w' = w.after (front ++ back) c.receiver ((w.router c.receiver).handleInbound quiet c.sender
        c.msg now) := by
  cases a with
  | send node msg now =>
    cases hst
    obtain ⟨hno, hexp⟩ := hall
    obtain ⟨k, hori, hac⟩ := acts_send msg hexp (hok.running node hno)
    exact .inl ⟨node, msg, now, k, hno, hexp, hori.trans (hok.nodeID node hno).1, hac, rfl⟩
  | handle index now =>
    obtain ⟨c, hc, rfl⟩ := Option.map_eq_some_iff.1 hst
    obtain ⟨hin, hget⟩ := List.getElem?_eq_some_iff.1 hc
    have hexp : (w.router c.receiver).NoExpiry now := by
      rw [Allowed, hc] at hall
      simpa using hall
    obtain ⟨hsen, hadj, -, -⟩ := hok.sent c (hok.inflight (hget ▸ getElem_mem hin))
    have hreceiver := (hok.peers c.sender hsen c.receiver hadj).1
    have hsp : w.inflight = w.inflight.take index ++ c :: w.inflight.drop (index + 1) := by
      rw [← hget, getElem_cons_drop hin, take_append_drop]
    refine .inr ⟨_, c, _, now, hsp, hreceiver, hexp,
      acts_handleInbound hexp (hok.running _ hreceiver), ?_⟩
    rw [Network.after, ← eraseIdx_eq_take_drop_succ]

theorem step_ok (hok : NetworkOK nodes w) (hall : Allowed nodes w a) (hst : w.step a = some w') :
    NetworkOK nodes w' := by
  rcases step_cases hok hall hst with
    ⟨node, msg, now, k, hno, -, hori, hac, rfl⟩ | ⟨front, c, back, now, hsp, hreceiver, -, hac, rfl⟩
  · exact hok.after hac hno (List.Subset.refl _) (.inl hori)
  · have hc : c ∈ w.inflight := by
      rw [hsp]
      exact mem_append_right _ mem_cons_self
    refine hok.after hac hreceiver ?_ (.inr (hok.sent c (hok.inflight hc)).2.2)
    rw [hsp]
    exact append_subset.2 ⟨subset_append_left _ _, fun x hx => mem_append_right _ (mem_cons_of_mem _ hx)⟩

/-! ## A broadcast on its way -/

/-- The message with another path and hop limit. -/
def Message.routed (m : Message) (path : List String) (hopLimit : UInt8) : Message :=
  { m with pathVector := path, hopLimit := hopLimit }

theorem refuseBlank_ok {field : String} :
    ∀ i, (∀ x ∈ path, trimSpace x ≠ "") → refuseBlank field i path = .ok () := by
  induction path with
  | nil => exact fun _ _ => rfl
  | cons a path ih =>
    intro i h
    rw [refuseBlank, if_neg (h a mem_cons_self)]
    exact ih _ fun x hx => h x (mem_cons_of_mem _ hx)

/-- The checks of the payload read of the route header only whether there is a hop limit. -/
theorem validatePayload_routed {hopLimit : UInt8} (h : validatePayload m = .ok ())
    (hli : hopLimit ≠ 0) : validatePayload (m.routed path hopLimit) = .ok () := by
  unfold validatePayload at h ⊢
  have hty : (m.routed path hopLimit).type = m.type := rfl
  rw [hty]
  split at h
  case h_7 | h_8 =>
    simp only [bind_ok_iff, failIf_ok_iff] at h ⊢
    obtain ⟨echo, hec, _, hid, -⟩ := h
    exact ⟨echo, hec, (), hid, hli⟩
  case h_9 =>
    simp only [bind_ok_iff, validateFloodHeader, failIf_ok_iff] at h ⊢
    obtain ⟨record, hrec, _, ⟨_, hto, -⟩, hre⟩ := h
    exact ⟨record, hrec, (), ⟨(), hto, hli⟩, hre⟩
  case h_10 =>
    simp only [bind_ok_iff, validateFloodHeader, failIf_ok_iff] at h ⊢
    obtain ⟨state, hst, _, ⟨_, hto, -⟩, hre⟩ := h
    exact ⟨state, hst, (), ⟨(), hto, hli⟩, hre⟩
  all_goals exact h

theorem validate_routed {hopLimit : UInt8} (h : m.validate = .ok ()) (hli : hopLimit ≠ 0)
    (hle : hopLimit ≤ m.hopLimit) (hlen : path.length ≤ maxPathVectorLength)
    (hpa : ∀ x ∈ path, trimSpace x ≠ "") (hfi : path.head? = some m.fromNode) :
    (m.routed path hopLimit).validate = .ok () := by
  simp only [Message.validate, validateRouteHeader, bind_ok_iff, failIf_ok_iff] at h ⊢
  obtain ⟨_, h1, _, h2, _, h3, _, h4, _, ⟨_, h5, _⟩, h6⟩ := h
  refine ⟨(), h1, (), h2, (), h3, (), h4, (), ⟨(), ?_, (), not_lt.2 hlen, (), ?_, (),
    refuseBlank_ok 0 hpa, ?_⟩, validatePayload_routed h6 hli⟩
  · intro hgt
    exact h5 (UInt8.lt_of_lt_of_le hgt hle)
  · exact fun hno => hli hno.2
  · show ¬ (path.head?.any fun first => first ≠ m.fromNode) = true
    rw [hfi]
    simp

/-- A copy of the broadcast `m`: its path is a simple path from the origin to its sender whose nodes
have all seen the message, and its hop limit has lost one for each hop. -/
structure CopyOK (nodes : List String) (w : Network) (m : Message) (c : Copy) : Prop where
  routed : c.msg = m.routed c.msg.pathVector c.msg.hopLimit
  first : c.msg.pathVector.head? = some m.fromNode
  last : c.msg.pathVector.getLast? = some c.sender
  simple : c.msg.pathVector.Nodup
  chain : c.msg.pathVector.IsChain w.Adjacent
  seen : ∀ x ∈ c.msg.pathVector, x ∈ nodes ∧ w.Seen x m.key
  fresh : c.receiver ∉ c.msg.pathVector
  limit : c.msg.hopLimit.toNat + c.msg.pathVector.length = m.hopLimit.toNat + 1
  positive : 1 ≤ c.msg.hopLimit.toNat

/-- How often a node was given the message. -/
def Network.deliveries (w : Network) (u : String) (k : SeenKey) : ℕ :=
  (w.delivered u).countP fun m => m.key = k

/-- How many copies of the message were sent. -/
def Network.copies (w : Network) (k : SeenKey) : ℕ := w.sent.countP fun c => c.msg.key = k

/-- What all runs keep of a message with the key of the broadcast `m`. -/
structure SpreadOK (nodes : List String) (m : Message) (w : Network) : Prop where
  copies : ∀ c ∈ w.inflight, c.msg.key = m.key → CopyOK nodes w m c
  delivered : ∀ u ∈ nodes, w.deliveries u m.key = if w.Seen u m.key then 1 else 0
  same : ∀ u ∈ nodes, ∀ m' ∈ w.delivered u, m'.key = m.key → m' = m.routed m'.pathVector m'.hopLimit
  /-- a neighbor of a node that has seen the message has seen it, or a copy is on its way to it, or
  every node has seen it -/
  progress : ∀ u ∈ nodes, w.Seen u m.key → ∀ v, w.Adjacent u v →
    w.Seen v m.key ∨ (∃ c ∈ w.inflight, c.msg.key = m.key ∧ c.receiver = v) ∨ ∀ x ∈ nodes, w.Seen x m.key
  bounded : w.copies m.key ≤ (nodes.countP fun u => w.Seen u m.key) * nodes.length

theorem CopyOK.after (hc : CopyOK nodes w m c) (h : Acts (w.router node) call k) :
    CopyOK nodes (w.after rest node call) m c :=
  { hc with
    chain := hc.chain.imp fun a b hab => (after_adjacent h a b).2 hab
    seen := fun x hx => ⟨(hc.seen x hx).1, after_seen_mono h (hc.seen x hx).2⟩ }

/-- **A call with another key**, or at a node that has seen the message, leaves the broadcast alone,
when the copies that it takes out are to nodes that have seen it. -/
theorem SpreadOK.quiet (hfl : SpreadOK nodes m w) (h : Acts (w.router node) call k)
    (hk : k = m.key → w.Seen node m.key) (hre : rest ⊆ w.inflight)
    (hke : ∀ c ∈ w.inflight, c.msg.key = m.key → c ∈ rest ∨ w.Seen c.receiver m.key) :
    SpreadOK nodes m (w.after rest node call) := by
  have hse : ∀ u, (w.after rest node call).Seen u m.key ↔ w.Seen u m.key := by
    intro u
    refine ⟨fun hs => ?_, after_seen_mono h⟩
    rcases after_seen_cases h hs with hold | ⟨rfl, heq⟩
    · exact hold
    · exact hk heq.symm
  have hdel : ∀ m' ∈ call.2.delivered, m'.key ≠ m.key := by
    intro m' hm' hkey
    obtain ⟨rfl, hno, -⟩ := h.carried.1 m' hm'
    exact hno (hkey ▸ hk hkey)
  -- the copies that were added have the other key
  have hnew : ∀ c ∈ call.2.sent.map (fun s => (⟨node, s.1, s.2⟩ : Copy)), c.msg.key ≠ m.key := by
    intro c hc hkey
    obtain ⟨s, hs, rfl⟩ := mem_map.1 hc
    obtain ⟨-, rfl, hno, -⟩ := h.carried.2 s hs
    exact hno (hkey ▸ hk hkey)
  refine ⟨?_, ?_, ?_, ?_, ?_⟩
  · intro c hc hkey
    rcases mem_append.1 hc with hold | hadd
    · exact (hfl.copies c (hre hold) hkey).after h
    · exact absurd hkey (hnew c hadd)
  · intro u hu
    have hco : (w.after rest node call).deliveries u m.key = w.deliveries u m.key := by
      unfold Network.deliveries
      rw [after_delivered]
      have hze : call.2.delivered.countP (fun m' => m'.key = m.key) = 0 :=
        countP_eq_zero.2 (by simpa using hdel)
      split
      · rename_i heq
        rw [countP_append, hze, Nat.add_zero, heq]
      · rfl
    rw [hco, hfl.delivered u hu]
    simp only [hse]
  · intro u hu m' hm' hkey
    rcases mem_after_delivered hm' with hold | ⟨-, hadd⟩
    · exact hfl.same u hu m' hold hkey
    · exact absurd hkey (hdel m' hadd)
  · intro u hu hs v hv
    rcases hfl.progress u hu ((hse u).1 hs) v ((after_adjacent h u v).1 hv) with h1 |
      ⟨c, hc, hkey, rfl⟩ | h3
    · exact .inl ((hse v).2 h1)
    · rcases hke c hc hkey with hin | hgot
      · exact .inr (.inl ⟨c, mem_append_left _ hin, hkey, rfl⟩)
      · exact .inl ((hse _).2 hgot)
    · exact .inr (.inr fun x hx => (hse x).2 (h3 x hx))
  · have hcop : (w.after rest node call).copies m.key = w.copies m.key := by
      have hze : (call.2.sent.map fun s => (⟨node, s.1, s.2⟩ : Copy)).countP (fun c =>
        c.msg.key = m.key) = 0 :=
        countP_eq_zero.2 fun c hc => by simpa using hnew c hc
      show (w.sent ++ call.2.sent.map fun s => (⟨node, s.1, s.2⟩ : Copy)).countP _ = _
      rw [countP_append, hze, Nat.add_zero]
      rfl
    rw [hcop]
    simp only [hse]
    exact hfl.bounded

/-- One more element of a list without repetitions satisfies a predicate. -/
theorem countP_insert {p : String → Prop} [DecidablePred p] {l : List String} {a : String}
    (hnd : l.Nodup) (ha : a ∈ l) (hp : ¬ p a) :
    (l.countP fun u => p u ∨ u = a) = (l.countP fun u => p u) + 1 := by
  have hperm := perm_cons_erase ha
  rw [hperm.countP_eq, hperm.countP_eq, countP_cons_of_pos (by simp),
    countP_cons_of_neg (by simpa using hp)]
  congr 1
  refine countP_congr fun u hu => ?_
  have hne : u ≠ a := (hnd.mem_erase_iff.1 hu).1
  simp [hne]

/-- A call that passes the broadcast on: the path that the message has taken ends at the node, and a
copy goes to every neighbor outside the path, unless the path has as many nodes as the network. -/
structure Spreads (nodes : List String) (m : Message) (w : Network) (node : String)
    (call : Router × Effects) (path : List String) : Prop where
  first : path.head? = some m.fromNode
  last : path.getLast? = some node
  simple : path.Nodup
  chain : path.IsChain w.Adjacent
  seen : ∀ x ∈ path, x ∈ nodes ∧ (x = node ∨ w.Seen x m.key)
  delivered : ∃ limit, call.2.delivered = [m.routed path limit]
  sent : (call.2.sent = [] ∧ nodes.length ≤ path.length) ∨
    ∃ (limit : UInt8) (targets : List String), call.2.sent = targets.map (fun v => (v,
      m.routed path limit)) ∧ targets.Nodup ∧ (∀ v, v ∈ targets ↔ w.Adjacent node v ∧ v ∉ path) ∧
      limit.toNat + path.length = m.hopLimit.toNat + 1 ∧ 1 ≤ limit.toNat

/-- **A node that sees the message for the first time** passes it on. -/
theorem SpreadOK.spread (hok : NetworkOK nodes w) (hfl : SpreadOK nodes m w) (hno : node ∈ nodes)
    (h : Acts (w.router node) call m.key)
    (hke : call.1.seenKeys = m.key :: (w.router node).seenKeys) (hnew : ¬ w.Seen node m.key)
    (hspr : Spreads nodes m w node call path) (hre : rest ⊆ w.inflight)
    (hkeep : ∀ c ∈ w.inflight, c.receiver ≠ node → c ∈ rest) :
    SpreadOK nodes m (w.after rest node call) := by
  have hse : ∀ u, (w.after rest node call).Seen u m.key ↔ w.Seen u m.key ∨ u = node := by
    intro u
    constructor
    · intro hs
      exact (after_seen_cases h hs).imp id And.left
    · rintro (hs | rfl)
      · exact after_seen_mono h hs
      · exact after_seen_self.2 (hke ▸ mem_cons_self)
  have hadj : ∀ u v, (w.after rest node call).Adjacent u v ↔ w.Adjacent u v := after_adjacent h
  have hpa : ∀ x ∈ path, x ∈ nodes ∧ (w.after rest node call).Seen x m.key := by
    intro x hx
    obtain ⟨hin, hx⟩ := hspr.seen x hx
    exact ⟨hin, (hse x).2 (hx.symm)⟩
  obtain ⟨limit, hdel⟩ := hspr.delivered
  refine ⟨?_, ?_, ?_, ?_, ?_⟩
  · intro c hc hkey
    rcases mem_append.1 hc with hold | hadd
    · exact (hfl.copies c (hre hold) hkey).after h
    -- a copy that the node sent
    obtain ⟨s, hs, rfl⟩ := mem_map.1 hadd
    rcases hspr.sent with ⟨hnone, -⟩ | ⟨limit', targets, hall, -, htar, hli, hpos⟩
    · rw [hnone] at hs
      cases hs
    · rw [hall] at hs
      obtain ⟨v, hv, rfl⟩ := mem_map.1 hs
      exact ⟨rfl, hspr.first, hspr.last, hspr.simple, hspr.chain.imp fun a b hab =>
        (hadj a b).2 hab, hpa, ((htar v).1 hv).2, hli, hpos⟩
  · intro u hu
    unfold Network.deliveries
    rw [after_delivered]
    by_cases heq : u = node
    · have hze := hfl.delivered node hno
      rw [if_neg hnew] at hze
      rw [if_pos heq, if_pos ((hse u).2 (.inr heq)), countP_append, hdel]
      rw [Network.deliveries] at hze
      rw [hze]
      simp [Message.routed, Message.key]
    · rw [if_neg heq]
      have hiff : (w.after rest node call).Seen u m.key ↔ w.Seen u m.key := by
        rw [hse, or_iff_left heq]
      simp only [hiff]
      exact hfl.delivered u hu
  · intro u hu m' hm' hkey
    rcases mem_after_delivered hm' with hold | ⟨-, hadd⟩
    · exact hfl.same u hu m' hold hkey
    · rw [hdel] at hadd
      rw [mem_singleton.1 hadd]
      rfl
  · intro u hu hs v hv
    rw [hadj] at hv
    rcases (hse u).1 hs with hold | rfl
    · rcases hfl.progress u hu hold v hv with h1 | ⟨c, hc, hkey, rfl⟩ | h3
      · exact .inl ((hse v).2 (.inl h1))
      · by_cases hc' : c.receiver = node
        · exact .inl ((hse _).2 (.inr hc'))
        · exact .inr (.inl ⟨c, mem_append_left _ (hkeep c hc hc'), hkey, rfl⟩)
      · exact .inr (.inr fun x hx => (hse x).2 (.inl (h3 x hx)))
    · by_cases hvp : v ∈ path
      · exact .inl (hpa v hvp).2
      rcases hspr.sent with ⟨-, hfu⟩ | ⟨limit', targets, hall, -, htar, -, -⟩
      · -- the path has as many nodes as the network, so it has all of them
        refine .inr (.inr fun x hx => (hpa x ?_).2)
        have hsub : path ⊆ nodes := fun y hy => (hpa y hy).1
        have hpe := (subperm_of_subset hspr.simple hsub).perm_of_length_le hfu
        exact hpe.mem_iff.2 hx
      · refine .inr (.inl ⟨⟨u, v, m.routed path limit'⟩, mem_append_right _ ?_, rfl, rfl⟩)
        rw [hall, map_map]
        exact mem_map.2 ⟨v, (htar v).2 ⟨hv, hvp⟩, rfl⟩
  · -- one more node has seen the message, and it sent a copy to each other node at most
    have hco : (nodes.countP fun u => (w.after rest node call).Seen u m.key) =
        (nodes.countP fun u => w.Seen u m.key) + 1 := by
      simp only [hse]
      exact countP_insert hok.nodup hno hnew
    have hsen : (call.2.sent.map fun s => (⟨node, s.1, s.2⟩ : Copy)).length ≤ nodes.length := by
      rw [length_map]
      rcases hspr.sent with ⟨hnone, -⟩ | ⟨limit', targets, hall, hnd, htar, -, -⟩
      · rw [hnone]
        exact Nat.zero_le _
      · rw [hall, length_map]
        refine (subperm_of_subset hnd ?_).length_le
        exact fun v hv => (hok.peers node hno v ((htar v).1 hv).1).1
    have hcop : (w.after rest node call).copies m.key ≤ w.copies m.key + nodes.length := by
      show (w.sent ++ call.2.sent.map fun s => (⟨node, s.1, s.2⟩ : Copy)).countP _ ≤ _
      rw [countP_append]
      exact Nat.add_le_add_left ((countP_le_length).trans hsen) _
    rw [hco, Nat.add_mul, Nat.one_mul]
    exact hcop.trans (Nat.add_le_add_right hfl.bounded _)

/-! ## Steps of a flood -/

/-- A broadcast whose hop limit is large enough for the network. -/
structure Broadcast (nodes : List String) (m : Message) : Prop where
  valid : m.validate = .ok ()
  toAll : m.toNode = broadcastNodeID
  seq : m.seq ≠ 0
  reach : nodes.length ≤ m.hopLimit.toNat + 1
  small : nodes.length ≤ maxPathVectorLength

theorem UInt8.ne_zero_of_toNat {n : UInt8} (h : 1 ≤ n.toNat) : n ≠ 0 := by
  rintro rfl
  simp at h

/-- What a node does with a broadcast that it has just marked: it delivers it, and floods it unless
the limit is used up. -/
def passedOn (r : Router) (peer : String) (m : Message) (path : List String) (limit : UInt8) :
    Effects :=
  ⟨[m.routed (path ++ [r.nodeID]) limit], if limit ≤ 1 then []
    else (r.floodTargets peer (m.routed (path ++ [r.nodeID]) (limit - 1))).map fun v =>
      (v, m.routed (path ++ [r.nodeID]) (limit - 1)), none⟩

theorem relay_broadcast {limit : UInt8} (hto : m.toNode = broadcastNodeID) (hfr : r.nodeID ∉ path)
    (hlen : path.length + 1 ≤ maxPathVectorLength) :
    r.relay quiet peer (m.routed path limit) = passedOn r peer m path limit := by
  have hlen' : ¬ (path ++ [r.nodeID]).length > maxPathVectorLength := by
    rw [length_append, length_singleton]
    omega
  unfold relay passedOn Message.routed
  dsimp only
  rw [if_neg hfr, if_neg hlen', if_pos hto, deliverThen_quiet]
  split
  · rfl
  · rw [flood_quiet]

/-- `HandleInbound` of a valid broadcast from a neighbor, which the router has not seen. -/
theorem handleInbound_broadcast {limit : UInt8} (hm : Broadcast nodes m)
    (hpe : r.hasNeighbor (trimSpace peer) = true) (hop : r.closed = false) (hexp : r.NoExpiry now)
    (hva : (m.routed path limit).validate = .ok ()) (hli : limit ≠ 0) (hnew : m.key ∉ r.seenKeys)
    (hfr : r.nodeID ∉ path) (hlen : path.length + 1 ≤ maxPathVectorLength) :
    r.handleInbound quiet peer (m.routed path limit) now =
      ({ r with seen := (m.key, now.add r.seenTTL) :: r.seen },
        passedOn r (trimSpace peer) m path limit) := by
  have hkey : (m.routed path limit).key = m.key := rfl
  have hseq : (m.routed path limit).seq ≠ 0 := hm.seq
  have hhop : (m.routed path limit).hopLimit ≠ 0 := hli
  have hre := @relay_broadcast path { r with seen := (m.key, now.add r.seenTTL) :: r.seen } m
    (trimSpace peer) limit
    hm.toAll hfr hlen
  unfold Router.handleInbound
  rw [if_neg (not_not.2 hpe), if_neg hseq, if_neg hhop, hva]
  dsimp only
  rw [markSeen_eq hexp hop, hkey, if_neg hnew]
  dsimp only
  rw [hre]
  rfl

/-- The path of a copy with its receiver at the end: simple, and inside the network. -/
theorem CopyOK.extended (hc : CopyOK nodes w m c) (hreceiver : c.receiver ∈ nodes) :
    (c.msg.pathVector ++ [c.receiver]).Nodup ∧ c.msg.pathVector.length + 1 ≤ nodes.length := by
  have hnd : (c.msg.pathVector ++ [c.receiver]).Nodup := by
    refine nodup_append.2 ⟨hc.simple, nodup_singleton _, ?_⟩
    intro x hx y hy
    rw [mem_singleton.1 hy]
    rintro rfl
    exact hc.fresh hx
  have hsub : c.msg.pathVector ++ [c.receiver] ⊆ nodes :=
    append_subset.2 ⟨fun x hx => (hc.seen x hx).1, cons_subset.2 ⟨hreceiver, nil_subset _⟩⟩
  have hlen := (subperm_of_subset hnd hsub).length_le
  rw [length_append, length_singleton] at hlen
  exact ⟨hnd, hlen⟩

theorem CopyOK.validate (hok : NetworkOK nodes w) (hm : Broadcast nodes m) (hc : CopyOK nodes w m c)
    (hreceiver : c.receiver ∈ nodes) :
    (m.routed c.msg.pathVector c.msg.hopLimit).validate = .ok () := by
  have hlen := (hc.extended hreceiver).2
  have hsm := hm.small
  have hli := hc.limit
  have hpos := length_pos_iff.2 (ne_nil_of_mem (mem_of_getLast? hc.last))
  refine validate_routed hm.valid (UInt8.ne_zero_of_toNat hc.positive) ?_ (by omega) ?_ hc.first
  · rw [UInt8.le_iff_toNat_le]
    omega
  · intro x hx
    obtain ⟨-, htr, hne⟩ := hok.nodeID x (hc.seen x hx).1
    rw [htr]
    exact hne

section Copy

variable (hok : NetworkOK nodes w) (hm : Broadcast nodes m) (hc : CopyOK nodes w m c)
  (hadj : w.Adjacent c.sender c.receiver) (hreceiver : c.receiver ∈ nodes)
  (hnew : ¬ w.Seen c.receiver m.key) (hexp : (w.router c.receiver).NoExpiry now)

include hok hm hc hadj hreceiver hnew hexp

/-- `HandleInbound` of a copy, at a node that has not seen the message. -/
theorem handleInbound_copy :
    ((w.router c.receiver).handleInbound quiet c.sender c.msg now).1.seenKeys =
        m.key :: (w.router c.receiver).seenKeys ∧
      ((w.router c.receiver).handleInbound quiet c.sender c.msg now).2 =
        passedOn (w.router c.receiver) c.sender m c.msg.pathVector c.msg.hopLimit := by
  have hsen : c.sender ∈ nodes := (hc.seen _ (mem_of_getLast? hc.last)).1
  obtain ⟨hid, -, -⟩ := hok.nodeID c.receiver hreceiver
  obtain ⟨-, htr, hne⟩ := hok.nodeID c.sender hsen
  have hop := hok.running c.receiver hreceiver
  have hba : c.sender ∈ (w.router c.receiver).neighbors := (hok.peers c.sender hsen c.receiver hadj).2.2
  have hnei : (w.router c.receiver).hasNeighbor (trimSpace c.sender) = true := by
    rw [htr]
    simp [Router.hasNeighbor, hne, hop, lookup_isSome.2 hba]
  have hlen := (hc.extended hreceiver).2
  have hca := handleInbound_broadcast hm hnei hop hexp (hc.validate hok hm hreceiver)
    (UInt8.ne_zero_of_toNat hc.positive) hnew (by rw [hid]; exact hc.fresh) (hlen.trans hm.small)
  rw [← hc.routed] at hca
  rw [hca, htr]
  exact ⟨rfl, rfl⟩

theorem spreads_handle :
    ((w.router c.receiver).handleInbound quiet c.sender c.msg now).1.seenKeys =
        m.key :: (w.router c.receiver).seenKeys ∧
      Spreads nodes m w c.receiver ((w.router c.receiver).handleInbound quiet c.sender c.msg now)
        (c.msg.pathVector ++ [c.receiver]) := by
  obtain ⟨hke, hfx⟩ := handleInbound_copy hok hm hc hadj hreceiver hnew hexp
  rw [passedOn, (hok.nodeID c.receiver hreceiver).1] at hfx
  refine ⟨hke, ?_, ?_, ?_, ?_, ?_, ⟨c.msg.hopLimit, by rw [hfx]⟩, ?_⟩
  · rw [head?_append, hc.first]
    rfl
  · rw [getLast?_append]
    rfl
  · exact (hc.extended hreceiver).1
  · refine isChain_append.2 ⟨hc.chain, isChain_singleton _, ?_⟩
    intro x hx y hy
    cases hc.last.symm.trans hx
    cases hy
    exact hadj
  · rw [forall_mem_append, forall_mem_singleton]
    exact ⟨fun x hx => ⟨(hc.seen x hx).1, .inr (hc.seen x hx).2⟩, hreceiver, .inl rfl⟩
  · have hli := hc.limit
    have hpos := hc.positive
    have hre := hm.reach
    rw [hfx]
    dsimp only
    split
    · -- the limit is used up: the path is as long as the network is large
      rename_i hla
      refine .inl ⟨rfl, ?_⟩
      rw [UInt8.le_iff_toNat_le] at hla
      have hone : (1 : UInt8).toNat = 1 := rfl
      rw [length_append, length_singleton]
      omega
    rename_i hmo
    have hsub : (c.msg.hopLimit - 1).toNat = c.msg.hopLimit.toNat - 1 := by
      rw [UInt8.toNat_sub_of_le _ _ (UInt8.le_of_lt (UInt8.not_le.1 hmo))]
      rfl
    rw [UInt8.le_iff_toNat_le] at hmo
    have hone : (1 : UInt8).toNat = 1 := rfl
    refine .inr ⟨_, _, rfl, ?_, ?_, ?_, ?_⟩
    · unfold floodTargets
      rw [if_neg (by rw [hok.running c.receiver hreceiver]; exact Bool.false_ne_true)]
      exact (keys_nodup _).filter _
    · intro v
      rw [mem_floodTargets (hok.running c.receiver hreceiver)]
      -- the sender is on the path, so leaving it out leaves out nothing more
      have hsen : c.sender ∈ c.msg.pathVector ++ [c.receiver] :=
        mem_append_left _ (mem_of_getLast? hc.last)
      constructor
      · rintro ⟨h1, -, h3⟩
        exact ⟨h1, h3⟩
      · rintro ⟨h1, h2⟩
        refine ⟨h1, ?_, h2⟩
        rintro rfl
        exact h2 hsen
    · rw [hsub, length_append, length_singleton]
      omega
    · rw [hsub]
      omega

end Copy

/-- **Every step of a run keeps the flood.** -/
theorem flood_step (hm : Broadcast nodes m) (hok : NetworkOK nodes w) (hfl : SpreadOK nodes m w)
    (hori : w.Seen m.fromNode m.key) (hall : Allowed nodes w a) (hst : w.step a = some w') :
    SpreadOK nodes m w' ∧ w'.Seen m.fromNode m.key := by
  rcases step_cases hok hall hst with
    ⟨node, msg, now, k, hnode, -, hk, hac, rfl⟩ | ⟨front, c, back, now, hsp, hreceiver, hexp, hac, rfl⟩
  · refine ⟨?_, after_seen_mono hac hori⟩
    refine hfl.quiet hac ?_ (List.Subset.refl _) fun c hc _ => .inl hc
    -- the origin does not originate the same key again
    rintro rfl
    rw [← hk]
    exact hori
  · refine ⟨?_, after_seen_mono hac hori⟩
    have hc : c ∈ w.inflight := by
      rw [hsp]
      exact mem_append_right _ mem_cons_self
    have hre : front ++ back ⊆ w.inflight := by
      rw [hsp]
      exact append_subset.2 ⟨subset_append_left _ _,
        fun x hx => mem_append_right _ (mem_cons_of_mem _ hx)⟩
    have hke : ∀ x ∈ w.inflight, x = c ∨ x ∈ front ++ back := by
      intro x hx
      rw [hsp] at hx
      rcases mem_append.1 hx with hx | hx
      · exact .inr (mem_append_left _ hx)
      · exact (mem_cons.1 hx).imp_right fun hx => mem_append_right _ hx
    by_cases hfi : c.msg.key = m.key ∧ ¬ w.Seen c.receiver m.key
    · obtain ⟨hkey, hse⟩ := hfi
      rw [hkey] at hac
      obtain ⟨-, hadj, -, -⟩ := hok.sent c (hok.inflight hc)
      obtain ⟨hkeys, hspr⟩ := spreads_handle hok hm (hfl.copies c hc hkey) hadj hreceiver hse hexp
      refine hfl.spread hok hreceiver hac hkeys hse hspr hre fun x hx hne => ?_
      exact (hke x hx).resolve_left fun heq => hne (congrArg Copy.receiver heq)
    · have hgot : c.msg.key = m.key → w.Seen c.receiver m.key := fun hkey => not_not.1 fun hno =>
        hfi ⟨hkey, hno⟩
      refine hfl.quiet hac hgot hre fun x hx hxk => (hke x hx).symm.imp_right ?_
      rintro rfl
      exact hgot hxk

/-! ## The start of a flood -/

theorem spreadOK_of_unseen (hok : NetworkOK nodes w) (hnew : ¬ w.Seen m.fromNode m.key) :
    SpreadOK nodes m w := by
  have huns : ∀ u ∈ nodes, ¬ w.Seen u m.key := fun u hu hs => hnew (hok.origin u hu m.key hs).2
  have hno : ∀ c ∈ w.sent, c.msg.key ≠ m.key := by
    intro c hc hkey
    obtain ⟨-, -, -, hse⟩ := hok.sent c hc
    have hfr : c.msg.fromNode = m.fromNode := congrArg SeenKey.origin hkey
    rw [hkey, hfr] at hse
    exact hnew hse
  have hnoD : ∀ u ∈ nodes, ∀ m' ∈ w.delivered u, m'.key ≠ m.key := by
    intro u hu m' hm' hkey
    have hse := hok.delivered u hu m' hm'
    rw [hkey] at hse
    exact huns u hu hse
  refine ⟨?_, ?_, ?_, ?_, ?_⟩
  · exact fun c hc hkey => absurd hkey (hno c (hok.inflight hc))
  · intro u hu
    rw [if_neg (huns u hu)]
    exact countP_eq_zero.2 fun m' hm' => by simpa using hnoD u hu m' hm'
  · exact fun u hu m' hm' hkey => absurd hkey (hnoD u hu m' hm')
  · exact fun u hu hs => absurd hs (huns u hu)
  · have hze : w.copies m.key = 0 := countP_eq_zero.2 fun c hc => by simpa using hno c hc
    rw [hze]
    exact Nat.zero_le _

theorem send_broadcast {origin : String} (hok : NetworkOK nodes w) (hori : origin ∈ nodes)
    (hexp : (w.router origin).NoExpiry now) (hpr : (w.router origin).prepare msg = .ok m)
    (hto : msg.toNode = broadcastNodeID) (hpa : msg.pathVector = [] ∨ msg.pathVector = [origin])
    (herr : ((w.router origin).send quiet msg now).2.err = none) (hpos : 1 ≤ m.hopLimit.toNat) :
    ¬ w.Seen origin m.key ∧
      ((w.router origin).send quiet msg now).1.seenKeys = m.key :: (w.router origin).seenKeys ∧
      Acts (w.router origin) ((w.router origin).send quiet msg now) m.key ∧
      Spreads nodes m w origin ((w.router origin).send quiet msg now) [origin] := by
  obtain ⟨hfr, -, -, hto', hfi, -⟩ := prepare_ok hpr
  have hid := (hok.nodeID origin hori).1
  have hop := hok.running origin hori
  have hvec : m.pathVector = [origin] := by
    rcases hpa with hnil | hown
    · rw [hnil] at hfi
      rw [← Except.ok.inj hfi, hid]
    · rw [hown, Router.fillPath, getLast?_singleton] at hfi
      simp only [hid, ne_eq, not_true_eq_false, if_false] at hfi
      exact (Except.ok.inj hfi).symm
  have hself : m = m.routed [origin] m.hopLimit := by
    rw [← hvec]
    rfl
  obtain ⟨htid, htcl, htne, hts⟩ := takeSeq_spec (w.router origin) msg
  have htk : ((w.router origin).takeSeq msg).seenKeys = (w.router origin).seenKeys :=
    congrArg (map Prod.fst) hts
  have hexp' : ((w.router origin).takeSeq msg).NoExpiry now := fun e he => hexp e (hts ▸ he)
  unfold send at herr ⊢
  generalize (w.router origin).takeSeq msg = taken at *
  rw [hpr] at herr ⊢
  dsimp only at herr ⊢
  rw [markSeen_eq hexp' (htcl.trans hop), htk] at herr ⊢
  by_cases hse : m.key ∈ (w.router origin).seenKeys
  · rw [if_pos hse] at herr
    cases herr
  rw [if_neg hse] at herr ⊢
  dsimp only at herr ⊢
  rw [if_pos (hto'.trans hto)] at herr ⊢
  refine ⟨hse, ?_, acts_mark htid htcl htne htk hse (carry_deliverThen rfl (carry_flood rfl)) _, ?_⟩
  · rw [← htk]
    rfl
  · have htar : ∀ v, v ∈ floodTargets
        { taken with seen := (m.key, now.add taken.seenTTL) :: taken.seen } "" m ↔
          w.Adjacent origin v ∧ v ∉ [origin] := by
      intro v
      have hop' : Router.closed { taken with seen := (m.key,
        now.add taken.seenTTL) :: taken.seen } = false :=
        htcl.trans hop
      rw [mem_floodTargets hop', hvec]
      show v ∈ taken.neighbors ∧ _ ↔ _
      rw [htne]
      constructor
      · rintro ⟨h1, -, h3⟩
        exact ⟨h1, h3⟩
      · rintro ⟨h1, h2⟩
        exact ⟨h1, (hok.nodeID v (hok.peers origin hori v h1).1).2.2, h2⟩
    refine ⟨by rw [hfr, hid]; rfl, rfl, nodup_singleton _, isChain_singleton _, ?_, ?_, ?_⟩
    · intro x hx
      rw [mem_singleton.1 hx]
      exact ⟨hori, .inl rfl⟩
    · refine ⟨m.hopLimit, ?_⟩
      rw [deliverThen_quiet, flood_quiet, ← hself]
    · refine .inr ⟨m.hopLimit, _, ?_, ?_, htar, rfl, hpos⟩
      · rw [deliverThen_quiet, flood_quiet, ← hself]
      · unfold floodTargets
        split
        · exact nodup_nil
        · exact (keys_nodup _).filter _

/-! ## The whole flood -/

theorem reachable_ok {start : Network → Prop} (hst : ∀ w, start w → NetworkOK nodes w)
    (h : Network.Reachable nodes start w) : NetworkOK nodes w :=
  Transition.Reachable.invariant (P := NetworkOK nodes) hst
    (fun _ _ _ _ hok hall hstep => step_ok hok hall hstep) h

theorem seen_of_quiescent (hok : NetworkOK nodes w) (hfl : SpreadOK nodes m w)
    (hori : m.fromNode ∈ nodes) (hse : w.Seen m.fromNode m.key)
    (hco : ∀ v ∈ nodes, Relation.ReflTransGen w.Adjacent m.fromNode v)
    (hqu : ∀ c ∈ w.inflight, c.msg.key ≠ m.key) : ∀ v ∈ nodes, w.Seen v m.key := by
  by_contra hnot
  -- otherwise the neighbors of a node that has seen it have seen it too
  have hclo : ∀ u ∈ nodes, w.Seen u m.key → ∀ v, w.Adjacent u v → w.Seen v m.key := by
    intro u hu hs v hv
    rcases hfl.progress u hu hs v hv with h | ⟨c, hc, hkey, -⟩ | h
    · exact h
    · exact absurd hkey (hqu c hc)
    · exact absurd h hnot
  have hre : ∀ v, Relation.ReflTransGen w.Adjacent m.fromNode v → v ∈ nodes ∧ w.Seen v m.key := by
    intro v hv
    induction hv with
    | refl => exact ⟨hori, hse⟩
    | tail _ hadj ih => exact ⟨(hok.peers _ ih.1 _ hadj).1, hclo _ ih.1 ih.2 _ hadj⟩
  exact hnot fun v hv => (hre v (hco v hv)).2

theorem step_adjacent (hok : NetworkOK nodes w) (hall : Allowed nodes w a)
    (hst : w.step a = some w') (u v : String) : w'.Adjacent u v ↔ w.Adjacent u v := by
  rcases step_cases hok hall hst with
    ⟨node, msg, now, k, -, -, -, hac, rfl⟩ | ⟨front, c, back, now, -, -, -, hac, rfl⟩
  · exact after_adjacent hac u v
  · exact after_adjacent hac u v

/-- **Flooding reaches every node once.** In a connected network of at most `min (hopLimit + 1) 64`
nodes, let a broadcast be sent whose path vector is empty or the origin alone, and which gets a
sequence number. In every run from there on, a node is given the message at most once, every copy in
flight carries a simple path from the origin to its sender, no more than the square of the number of
nodes copies are sent, and when no copy is left every node was given the message exactly once. -/
theorem flood_exactly_once (nodes : List String) (w w₁ : Network)
    (hw : Network.Reachable nodes (Network.Start nodes) w)
    (hconn : ∀ u ∈ nodes, ∀ v ∈ nodes, Relation.ReflTransGen w.Adjacent u v) (origin : String)
    (msg m : Message) (now : Time) (hallowed : Allowed nodes w (.send origin msg now))
    (hprep : (w.router origin).prepare msg = .ok m) (hto : msg.toNode = broadcastNodeID)
    (hpath : msg.pathVector = [] ∨ msg.pathVector = [origin]) (hseq : m.seq ≠ 0)
    (hsize : nodes.length ≤ min (m.hopLimit.toNat + 1) 64)
    (herr : ((w.router origin).send quiet msg now).2.err = none)
    (hsend : w.step (.send origin msg now) = some w₁) :
    ∀ w', Network.Reachable nodes (· = w₁) w' →
      (∀ u ∈ nodes, w'.deliveries u m.key ≤ 1 ∧
        ∀ m' ∈ w'.delivered u, m'.key = m.key → m' = m.routed m'.pathVector m'.hopLimit) ∧
      (∀ c ∈ w'.inflight, c.msg.key = m.key →
        c.msg.pathVector.head? = some origin ∧ c.msg.pathVector.getLast? = some c.sender ∧
          c.msg.pathVector.Nodup ∧ c.msg.pathVector.IsChain w.Adjacent) ∧
      w'.copies m.key ≤ nodes.length * nodes.length ∧
      ((∀ c ∈ w'.inflight, c.msg.key ≠ m.key) → ∀ u ∈ nodes, w'.deliveries u m.key = 1) := by
  have hok := reachable_ok (fun _ h => start_ok h) hw
  obtain ⟨hfrom, -, hlimit, hto', -, hvalid⟩ := prepare_ok hprep
  have horigin := hallowed.1
  have hid : m.fromNode = origin := hfrom.trans (hok.nodeID origin horigin).1
  have hpos : 1 ≤ m.hopLimit.toNat := by
    rw [hlimit]
    split
    · decide
    · rename_i hne
      by_contra hzero
      exact hne (UInt8.toNat_inj.1 (by simpa using hzero))
  have hm : Broadcast nodes m :=
    ⟨hvalid, hto'.trans hto, hseq, hsize.trans (min_le_left _ _), hsize.trans (min_le_right _ _)⟩
  -- the call that sends the broadcast
  obtain ⟨hnew, hkeys, hacts, hspreads⟩ := send_broadcast hok horigin hallowed.2 hprep hto hpath
    herr hpos
  cases hsend
  have hstart := (spreadOK_of_unseen hok (by rw [hid]; exact hnew)).spread hok horigin hacts hkeys
    hnew hspreads
    (List.Subset.refl _) fun c hc _ => hc
  have hseen₁ : (w.after w.inflight origin ((w.router origin).send quiet msg now)).Seen m.fromNode
    m.key := by
    rw [hid]
    exact after_seen_self.2 (hkeys ▸ mem_cons_self)
  have hok₁ := step_ok hok hallowed rfl
  intro w' hw'
  -- what holds from then on
  obtain ⟨hok', hflood, hseen, hadj⟩ : NetworkOK nodes w' ∧ SpreadOK nodes m w' ∧
    w'.Seen m.fromNode m.key ∧
      ∀ u v, w'.Adjacent u v ↔ w.Adjacent u v := by
    refine Transition.Reachable.invariant (P := fun x => NetworkOK nodes x ∧ SpreadOK nodes m x ∧
      x.Seen m.fromNode m.key ∧ ∀ u v, x.Adjacent u v ↔ w.Adjacent u v) ?_ ?_ hw'
    · rintro x rfl
      exact ⟨hok₁, hstart, hseen₁, after_adjacent hacts⟩
    · rintro x a x' - ⟨h1, h2, h3, h4⟩ hallow hstep
      obtain ⟨h5, h6⟩ := flood_step hm h1 h2 h3 hallow hstep
      exact ⟨step_ok h1 hallow hstep, h5, h6,
        fun u v => (step_adjacent h1 hallow hstep u v).trans (h4 u v)⟩
  refine ⟨?_, ?_, ?_, ?_⟩
  · intro u hu
    refine ⟨?_, hflood.same u hu⟩
    rw [hflood.delivered u hu]
    split <;> omega
  · intro c hc hkey
    have hcopy := hflood.copies c hc hkey
    exact ⟨hid ▸ hcopy.first, hcopy.last, hcopy.simple, hcopy.chain.imp fun a b hab => (hadj a b).1 hab⟩
  · exact hflood.bounded.trans (Nat.mul_le_mul_right _ countP_le_length)
  · intro hquiet u hu
    have hconn' : ∀ v ∈ nodes, Relation.ReflTransGen w'.Adjacent m.fromNode v := by
      intro v hv
      rw [hid]
      exact Relation.ReflTransGen.mono (fun a b hab => (hadj a b).2 hab) _ _ (hconn origin horigin v hv)
    have hall := seen_of_quiescent hok' hflood (hid ▸ horigin) hseen hconn' hquiet
    rw [hflood.delivered u hu, if_pos (hall u hu)]

/-! ## Two nodes -/

section Sample

def pairRouter (id peer : String) : Router where
  nodeID := id
  seenTTL := defaultSeenTTL
  seq := 1
  closed := false
  neighbors := (∅ : GoMap NeighborEntry).insert peer ⟨0, .packet, true, true⟩
  routes := ∅
  dataRoutes := ∅
  dataRoutesAuthoritative := false
  seen := []

/-- Two routers that are neighbors of each other. -/
def pairNetwork : Network where
  router u := if u = "a" then pairRouter "a" "b" else pairRouter u "a"
  inflight := []
  delivered _ := []
  sent := []

/-- A heartbeat to every node, with the path vector that the caller gives it. -/
def heartbeatMessage (path : List String) : Message where
  version := 1
  type := .heartbeat
  fromNode := "a"
  toNode := "*"
  seq := 0
  sentAt := ⟨1, true⟩
  hopLimit := 0
  pathVector := path
  heartbeat := some ⟨"", "", ""⟩
  pathHealth := none
  endpointUpdate := none
  capabilityRefresh := none
  reICERequest := none
  sessionSignal := none
  controlEcho := none
  memberRecord := none
  linkState := none

theorem pairNetwork_start : pairNetwork.Start ["a", "b"] where
  nodup := by decide
  nodeID := by decide +kernel
  running := by decide +kernel
  peers := by
    intro u hu v hv
    have hke : v ∈ (pairNetwork.router u).neighbors.keys := AList.mem_keys.1 hv
    simp only [mem_cons, not_mem_nil, or_false] at hu
    rcases hu with rfl | rfl
    · have hv' : v = "b" := by simpa [pairNetwork, pairRouter] using hke
      rw [hv']
      exact ⟨by decide, by decide, AList.mem_keys.2 (by decide +kernel)⟩
    · have hv' : v = "a" := by simpa [pairNetwork, pairRouter] using hke
      rw [hv']
      exact ⟨by decide, by decide, AList.mem_keys.2 (by decide +kernel)⟩
  inflight := rfl
  delivered _ := rfl
  sent := rfl

/-- The heartbeat as `Send` completes it. -/
def sentHeartbeat : Message := { heartbeatMessage ["a"] with seq := 2, hopLimit := defaultHopLimit }

/-- The network once the heartbeat is sent. -/
def pairFlooding (path : List String) : Network :=
  pairNetwork.absorb "a" ((pairNetwork.router "a").send quiet (heartbeatMessage path) ⟨5, true⟩)

/-- Three routers in a line. -/
def lineNetwork : Network where
  router u := { pairRouter u "b" with
    neighbors := ((if u = "b" then ["a", "c"] else ["b"]).map fun peer =>
      (⟨peer, ⟨0, .packet, true, true⟩⟩ : Sigma fun _ => NeighborEntry)).toAList }
  inflight := []
  delivered _ := []
  sent := []

theorem lineNetwork_start : lineNetwork.Start ["a", "b", "c"] where
  nodup := by decide
  nodeID := by decide +kernel
  running := by decide +kernel
  peers := by
    have hall : ∀ u ∈ ["a", "b", "c"], ∀ v ∈ (lineNetwork.router u).neighbors.keys,
        v ∈ ["a", "b", "c"] ∧ v ≠ u ∧ u ∈ (lineNetwork.router v).neighbors.keys := by decide +kernel
    intro u hu v hv
    obtain ⟨hmem, hne, hback⟩ := hall u hu v (AList.mem_keys.1 hv)
    exact ⟨hmem, hne, AList.mem_keys.2 hback⟩
  inflight := rfl
  delivered _ := rfl
  sent := rfl

theorem lineNetwork_connected :
    ∀ u ∈ ["a", "b", "c"], ∀ v ∈ ["a", "b", "c"], Relation.ReflTransGen lineNetwork.Adjacent u v := by
  have hadj (u v : String) (h : v ∈ (lineNetwork.router u).neighbors.keys) : lineNetwork.Adjacent u v :=
    AList.mem_keys.2 h
  have hto : ∀ u ∈ ["a", "b", "c"], Relation.ReflTransGen lineNetwork.Adjacent u "b" := by
    simp only [forall_mem_cons, not_mem_nil, IsEmpty.forall_iff, implies_true, and_true]
    exact ⟨.single (hadj _ _ (by decide +kernel)), .refl, .single (hadj _ _ (by decide +kernel))⟩
  have hfrom : ∀ v ∈ ["a", "b", "c"], Relation.ReflTransGen lineNetwork.Adjacent "b" v := by
    simp only [forall_mem_cons, not_mem_nil, IsEmpty.forall_iff, implies_true, and_true]
    exact ⟨.single (hadj _ _ (by decide +kernel)), .refl, .single (hadj _ _ (by decide +kernel))⟩
  exact fun u hu v hv => (hto u hu).trans (hfrom v hv)

/-- The line once the heartbeat is sent. -/
def lineFlooding : Network :=
  lineNetwork.absorb "a" ((lineNetwork.router "a").send quiet (heartbeatMessage []) ⟨5, true⟩)

/-- The line once the heartbeat is handled in the middle and at the end. -/
def lineFlooded : Option Network :=
  Transition.runFrom Network.step (Allowed ["a", "b", "c"]) lineFlooding [.handle 0 ⟨6, true⟩,
    .handle 0 ⟨7, true⟩]

theorem flood_exactly_once_line : ∃ w', lineFlooded = some w' ∧ w'.inflight = [] ∧
    ∀ u ∈ ["a", "b", "c"], w'.deliveries u sentHeartbeat.key = 1 := by
  have hinflight : lineFlooded.map Network.inflight = some [] := by decide +kernel
  obtain ⟨w', hw', hquiet⟩ := Option.map_eq_some_iff.1 hinflight
  refine ⟨w', hw', hquiet, ?_⟩
  have hrun : Network.Reachable ["a", "b", "c"] (· = lineFlooding) w' :=
    Transition.Reachable.of_run (.start rfl) hw'
  refine (flood_exactly_once ["a", "b", "c"] lineNetwork lineFlooding (.start lineNetwork_start)
    lineNetwork_connected "a" (heartbeatMessage []) sentHeartbeat ⟨5,
      true⟩ (by decide +kernel) (by decide +kernel)
    rfl (.inl rfl) (by decide) (by decide) (by decide +kernel) rfl _ hrun).2.2.2 ?_
  rw [hquiet]
  exact fun c hc => absurd hc not_mem_nil

/-- **A path vector of the caller's.** `Send` accepts a broadcast whose path vector already names
the neighbor, and ends the vector with the origin without a check for loops; the neighbor is skipped
and never gets the message. -/
theorem flood_skips_named_neighbor :
    pairNetwork.Start ["a", "b"] ∧
    ((pairNetwork.router "a").send quiet (heartbeatMessage ["a", "b", "a"]) ⟨5, true⟩).2.err = none ∧
    pairNetwork.step (.send "a" (heartbeatMessage ["a", "b", "a"]) ⟨5, true⟩) =
      some (pairFlooding ["a", "b", "a"]) ∧
    (pairFlooding ["a", "b", "a"]).inflight = [] ∧
    (pairFlooding ["a", "b", "a"]).deliveries "b" sentHeartbeat.key = 0 := by
  exact ⟨pairNetwork_start, by decide +kernel, rfl, by decide +kernel, by decide +kernel⟩

end Sample

end Winkyou.Mesh
