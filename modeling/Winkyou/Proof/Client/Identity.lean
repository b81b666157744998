import Winkyou.Lib.Transition
import Winkyou.Spec.Client.Identity

/-!
# The engine acts under the identity of its first registration

In every run the status of a started engine holds the id and the address of the registration that
`Start` made, and the client the id of the latest one (`Holds`, kept by each event in `Holds.step`).
So engine and coordinator agree exactly while the latest registration gave the same id and address
as the first (`Stable`); then two engines that know each other by their current ids derive one
session id and opposite roles, and neither drops what is addressed to it.
-/

namespace Winkyou.Client

open Transition Option
open GrpcClient (answers register sendHeartbeat)

variable {IP : Type} {parseIP : String → Option IP} {parseCIDR : String → Bool} {w v : World IP}

/-- A run from an engine that was not started yet. -/
abbrev Run (parseIP : String → Option IP) (parseCIDR : String → Bool) (w : World IP) : Prop :=
  Reachable (World.step parseIP parseCIDR) (· = {}) (fun _ _ => True) w

/-- Where the two copies of the identity come from: the engine's from the registration of `Start`,
the client's from the latest one. -/
structure Holds (parseIP : String → Option IP) (w : World IP) (c : GrpcClient)
    (first latest : RegisterResponse) : Prop where
  first_eq : w.registrations.getLast? = some first
  latest_eq : w.registrations.head? = some latest
  engine_nodeID : w.engine.nodeID = first.nodeID
  engine_virtualIP : w.engine.virtualIP = parseIP (trimSpace first.virtualIP)
  client_nodeID : c.nodeID = latest.nodeID

theorem parseVirtualNetwork_eq_some {resp : RegisterResponse} {ip : IP}
    (h : parseVirtualNetwork parseIP parseCIDR resp = some ip) :
    parseIP (trimSpace resp.virtualIP) = some ip := by
  unfold parseVirtualNetwork at h
  split at h
  · cases h
  · rename_i ip' hip
    split_ifs at h with hci
    cases h
    exact hip

variable {e : Engine IP} {c : GrpcClient}

/-- An engine that `Start` leaves with a client took its identity from the answer that the client
took its id from. -/
theorem holds_start {req : RegisterRequest} {rpc : RegisterRPC} {up ready : Bool}
    (he : e.coord = none) (hc : (e.start parseIP parseCIDR req rpc up ready).coord = some c) :
    ∃ reg, Holds parseIP ⟨e.start parseIP parseCIDR req rpc up ready, rpc.answers⟩ c reg reg := by
  cases rpc with
  | failed => simp [Engine.start, register, he] at hc
  | answered reg stream =>
    rcases stream with _ | _
    · simp [Engine.start, register, he] at hc
    cases hip : parseVirtualNetwork parseIP parseCIDR reg with
    | none => simp [Engine.start, register, he, hip] at hc
    | some ip =>
      have had := parseVirtualNetwork_eq_some hip
      simp only [Engine.start, register, he, hip, isSome_none, Bool.false_eq_true, if_false,
        if_true] at hc ⊢
      split_ifs at hc ⊢ with hup hre
      cases hc
      exact ⟨reg, rfl, rfl, rfl, had.symm, rfl⟩

/-- A heartbeat moves the client to the answer of the registration that it makes, if it makes
one. -/
theorem sendHeartbeat_nodeID (c : GrpcClient) (answer : HeartbeatRPC) :
    (c.answers answer = [] ∧ (c.sendHeartbeat answer).nodeID = c.nodeID) ∨
      ∃ reg, c.answers answer = [reg] ∧ (c.sendHeartbeat answer).nodeID = reg.nodeID := by
  unfold answers sendHeartbeat
  by_cases hid : c.nodeID = ""
  · cases answer <;> simp [hid]
  · cases answer with
    | ok | failed => simp
    | notFound rpc => cases hreq : c.registerReq <;> cases rpc <;>
        simp [hid, hreq, GrpcClient.recoverRegistration, register, RegisterRPC.answers]

theorem Holds.heartbeat {first latest : RegisterResponse} (h : Holds parseIP w c first latest)
    (answer : HeartbeatRPC) :
    ∃ latest, Holds parseIP ⟨{ w.engine with coord := some (c.sendHeartbeat answer) },
      c.answers answer ++ w.registrations⟩
      (c.sendHeartbeat answer) first latest := by
  obtain ⟨hno, hid⟩ | ⟨reg, hreg, hid⟩ := sendHeartbeat_nodeID c answer
  · rw [hno, List.nil_append]
    exact ⟨latest, h.first_eq, h.latest_eq, h.engine_nodeID, h.engine_virtualIP,
      hid.trans h.client_nodeID⟩
  · rw [hreg]
    refine ⟨reg, ?_, rfl, h.engine_nodeID, h.engine_virtualIP, hid⟩
    simp [List.getLast?_cons, h.first_eq]

theorem holds_of_run (hw : Run parseIP parseCIDR w) :
    ∀ c, w.engine.coord = some c → ∃ first latest, Holds parseIP w c first latest := by
  refine hw.invariant (P := fun w => ∀ c, w.engine.coord = some c →
    ∃ first latest, Holds parseIP w c first latest) ?_ ?_
  · rintro w rfl c hc
    cases hc
  · intro w event w' _ ih _ hst c hc
    cases event with
    | start req rpc up ready =>
      rw [World.step] at hst
      cases hco : w.engine.coord with
      | some c' =>
        simp only [hco, isSome_some, if_true, some.injEq] at hst
        subst hst
        exact ih c hc
      | none =>
        simp only [hco, isSome_none, Bool.false_eq_true, if_false, some.injEq] at hst
        subst hst
        obtain ⟨reg, h⟩ := holds_start hco hc
        exact ⟨reg, reg, h⟩
    | heartbeat answer =>
      rw [World.step] at hst
      cases hco : w.engine.coord with
      | none => simp [hco] at hst
      | some c' =>
        simp only [hco, some.injEq] at hst
        subst hst
        cases hc
        obtain ⟨first, latest, h⟩ := ih c' hco
        exact ⟨first, h.heartbeat answer⟩
    | stop =>
      cases hst
      cases hc

/-! ## What two engines derive -/

/-- Swapping the two ids changes nothing: the lower one stands first. -/
theorem sessionIDForNodes_comm (a b : String) : sessionIDForNodes a b = sessionIDForNodes b a := by
  unfold sessionIDForNodes
  rcases lt_trichotomy a b with h | h | h
  · simp [h, not_lt_of_gt h]
  · rw [h]
  · simp [h, not_lt_of_gt h]

theorem ensurePeerSession_eq_ok {peer : String} {s : PeerSession}
    (h : e.ensurePeerSession peer = .ok s) :
    e.nodeID ≠ peer ∧ s = ⟨peer, sessionIDForNodes e.nodeID peer, e.nodeID < peer⟩ := by
  unfold Engine.ensurePeerSession at h
  split_ifs at h with hlo hpe hse
  cases h
  exact ⟨hse, rfl⟩

/-- Engines that act under the ids by which they know each other make two ends of one session. -/
theorem ensurePeerSession_ends {f : Engine IP} {s t : PeerSession}
    (hs : e.ensurePeerSession f.nodeID = .ok s) (ht : f.ensurePeerSession e.nodeID = .ok t) :
    s.sessionID = t.sessionID ∧ s.initiator = !t.initiator := by
  obtain ⟨hne, rfl⟩ := ensurePeerSession_eq_ok hs
  obtain ⟨-, rfl⟩ := ensurePeerSession_eq_ok ht
  refine ⟨sessionIDForNodes_comm _ _, ?_⟩
  rcases lt_or_gt_of_ne hne with h | h
  · simp [h, not_lt_of_gt h]
  · simp [h, not_lt_of_gt h]

/-! ## Agreement -/

/-- The latest registration gave the id and the address of the one that `Start` made. -/
def World.Stable (parseIP : String → Option IP) (w : World IP) : Prop :=
  ∀ first ∈ w.registrations.getLast?, ∀ latest ∈ w.registrations.head?,
    latest.nodeID = first.nodeID ∧ parseIP (trimSpace latest.virtualIP) =
    parseIP (trimSpace first.virtualIP)

/-- The engine's id is its client's, and its address that of the latest registration. -/
def World.Agrees (parseIP : String → Option IP) (w : World IP) (c : GrpcClient) : Prop :=
  w.engine.nodeID = c.nodeID ∧
    ∀ latest ∈ w.registrations.head?, w.engine.virtualIP = parseIP (trimSpace latest.virtualIP)

theorem Holds.agrees_iff {first latest : RegisterResponse} (h : Holds parseIP w c first latest) :
    w.Agrees parseIP c ↔ w.Stable parseIP := by
  simp only [World.Agrees, World.Stable, h.first_eq, h.latest_eq, h.engine_nodeID,
    h.engine_virtualIP, h.client_nodeID, mem_def, some.injEq, forall_eq']
  constructor
  · rintro ⟨hid, hip⟩
    exact ⟨hid.symm, hip.symm⟩
  · rintro ⟨hid, hip⟩
    exact ⟨hid.symm, hip.symm⟩

/-- **Engine and coordinator agree on the identity exactly while the latest registration repeats the
first**; two engines of which this holds meet in one session with opposite roles, and take what is
addressed to their ids. -/
theorem engine_agrees_iff_stable (hw : Run parseIP parseCIDR w) (hv : Run parseIP parseCIDR v)
    {c d : GrpcClient} (hc : w.engine.coord = some c) (hd : v.engine.coord = some d) :
    (w.Agrees parseIP c ↔ w.Stable parseIP) ∧
      (w.Stable parseIP → w.engine.dropsInband c.nodeID = false) ∧
      (w.Stable parseIP → v.Stable parseIP → ∀ s t, w.engine.ensurePeerSession d.nodeID = .ok s →
        v.engine.ensurePeerSession c.nodeID = .ok t → s.sessionID = t.sessionID ∧
          s.initiator = !t.initiator) := by
  obtain ⟨_, _, hw⟩ := holds_of_run hw c hc
  obtain ⟨_, _, hv⟩ := holds_of_run hv d hd
  refine ⟨hw.agrees_iff, ?_, ?_⟩
  · intro hstable
    have hid := (hw.agrees_iff.2 hstable).1
    simp [Engine.dropsInband, hid]
  · intro hstable hstable' s t hs ht
    rw [← (hv.agrees_iff.2 hstable').1] at hs
    rw [← (hw.agrees_iff.2 hstable).1] at ht
    exact ensurePeerSession_ends hs ht

/-! ## A coordinator that lost the node -/

/-- An engine started as `first` whose heartbeat was answered `NotFound` and which was then
registered as `again`. -/
def reregistered (first again : RegisterResponse) : World String :=
  ⟨⟨first.nodeID, some (trimSpace first.virtualIP), some ⟨again.nodeID, some ⟨"key", "alpha"⟩⟩⟩,
    [again, first]⟩

theorem run_reregistered (first again : RegisterResponse) (hid : trimSpace first.nodeID ≠ "") :
    Run some (fun _ => true) (reregistered first again) := by
  have hne : first.nodeID ≠ "" := by
    intro h
    exact hid (by rw [h]; rfl)
  refine .step (a := .heartbeat (.notFound (.answered again true)))
    (.step (a := .start ⟨"key", "alpha"⟩ (.answered first true) true true) (.start rfl) trivial rfl)
      trivial ?_
  simp [World.step, Engine.start, register, parseVirtualNetwork, sendHeartbeat, answers,
    GrpcClient.recoverRegistration, RegisterRPC.answers, reregistered, hid, hne]

def alpha : RegisterResponse := ⟨"a", "10.0.0.1", "10.0.0.0/24"⟩

def beta : RegisterResponse := ⟨"b", "10.0.0.2", "10.0.0.0/24"⟩

theorem run_alpha (again : RegisterResponse) :
    Run some (fun _ => true) (reregistered alpha again) :=
  run_reregistered alpha again (by decide +kernel)

/-- Two engines that were registered again as before. -/
theorem engine_agrees_iff_stable_alpha_beta :
    (reregistered alpha alpha).Stable some ∧ (reregistered beta beta).Stable some ∧
      ∀ s t, (reregistered alpha alpha).engine.ensurePeerSession "b" = .ok s →
        (reregistered beta beta).engine.ensurePeerSession "a" = .ok t →
        s.sessionID = t.sessionID ∧ s.initiator = !t.initiator := by
  have hstable : ∀ r, (reregistered r r).Stable some := by
    intro r first hfirst latest hlatest
    cases hfirst
    cases hlatest
    exact ⟨rfl, rfl⟩
  have hall := engine_agrees_iff_stable (run_alpha alpha) (run_reregistered beta beta
    (by decide +kernel)) rfl rfl
  exact ⟨hstable alpha, hstable beta, hall.2.2 (hstable alpha) (hstable beta)⟩

/-- After a registration under a new id the engine keeps the old one and drops what is addressed to
the new one. -/
theorem engine_keeps_first_identity :
    ∃ w c, Run some (fun _ => true) w ∧ w.engine.coord = some c ∧ ¬ w.Agrees some c ∧
      w.engine.dropsInband c.nodeID = true := by
  refine ⟨_, _, run_alpha ⟨"c", "10.0.0.3", "10.0.0.0/24"⟩, rfl, ?_, rfl⟩
  rintro ⟨hid, -⟩
  exact absurd hid (by decide)

end Winkyou.Client
