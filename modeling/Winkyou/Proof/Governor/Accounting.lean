import Winkyou.Proof.Governor.Step

/-!
# Reservation accounting

`accounting_exact`: in every state a governor can reach, whatever its callers, goroutines and
timers did and in whichever order, the totals it keeps are the sums over its active attempts,
its maps agree with each other, every limit is respected, and no sum the validator forms
overflows.
-/

namespace Winkyou.Governor

open State Transition List

variable {s : State}

/-- **The accounting of a governor is exact.** -/
structure AccountingExact (s : State) : Prop where
  reserved : ∀ k, s.reserved.get k =
    ((GoMap.values s.attempts).map fun a => (s.attempt a).request.cost.resources.get k).sum
  heavyweight : s.heavyweightAttempts =
    (GoMap.values s.attempts).countP fun a => (s.attempt a).request.cost.heavyweight
  /-- An active attempt is in its peer's map, and that peer lease is the stored one. -/
  stored : ∀ id a, s.attempts.lookup id = some a → (s.attempt a).request.id = id ∧
    (s.peer (s.attempt a).peer).attempts.lookup id = some a ∧
    s.peers.lookup (s.peer (s.attempt a).peer).peerID = some (s.attempt a).peer
  cost_nonneg : ∀ id a, s.attempts.lookup id = some a →
    ∀ k, 0 ≤ (s.attempt a).request.cost.resources.get k
  reserved_nonneg : ∀ k, 0 ≤ s.reserved.get k
  heavyweight_nonneg : 0 ≤ s.heavyweightAttempts
  aggregate : ∀ k, s.reserved.get k ≤ s.limits.aggregate.get k
  activeAttempts : s.attempts.entries.length ≤ s.limits.maxActiveAttempts
  attemptsPerPeer : ∀ p, (s.peer p).attempts.entries.length ≤ s.limits.maxAttemptsPerPeer
  activePeers : s.peers.entries.length ≤ s.limits.maxActivePeers
  heavyweightAttempts : s.heavyweightAttempts ≤ s.limits.maxHeavyweightAttempts
  /-- The sum formed for a request that passes its own checks is the exact one, and fits. -/
  noOverflow : ∀ p request, s.validateAttempt p request = .ok () → ∀ k,
    (s.reserved.add request.cost.resources).get k = s.reserved.get k + request.cost.resources.get k ∧
      0 ≤ s.reserved.get k + request.cost.resources.get k ∧
      s.reserved.get k + request.cost.resources.get k < 2 ^ 63

theorem sum_weight (b : Books) (l : List AttemptRef) :
    (l.map b.weight).sum = (l.countP fun a => (b.booking a).request.cost.heavyweight : ℤ) := by
  induction l with
  | nil => rfl
  | cons a l ih =>
    rw [map_cons, sum_cons, ih, countP_cons]
    unfold Books.weight
    split_ifs
    · push_cast
      ring
    · simp

theorem State.StateOK.accountingExact (h : s.StateOK) : AccountingExact s := by
  have hex := h.heap.exact
  constructor
  · intro k
    refine (hex.reserved_eq k).trans ?_
    rw [AList.total, GoMap.values, map_map]
    rfl
  · refine hex.heavyweight_eq.trans (Eq.trans ?_ (sum_weight s.books (GoMap.values s.attempts)))
    rw [AList.total, GoMap.values, map_map]
    rfl
  · intro id a hfo
    obtain ⟨hop, hid⟩ := (hex.attempts_index id a).1 hfo
    exact ⟨hid, (hex.peer_index _ id a).2 ⟨⟨hop, rfl⟩, hid⟩, (hex.attempt_peer a hop).2⟩
  · intro id a hfo k
    exact hex.cost_nonneg a ((hex.attempts_index id a).1 hfo).1 k
  · exact hex.reserved_nonneg
  · exact hex.heavyweight_nonneg
  · exact hex.reserved_le
  · exact hex.attempts_le
  · exact hex.perPeer_le
  · exact hex.peers_le
  · exact hex.heavyweight_le
  · intro p request hva k
    simp only [validateAttempt, Except.bind_ok_iff, Except.mapError_ok_iff, exists_const,
      Resources.validateNonNegative_ok_iff, resourcesWithin_ok_iff] at hva
    obtain ⟨-, -, -, -, -, -, -, -, -, -, hnon, -, -, -, -, -, -, hle, -⟩ := hva
    have hadd := hex.add_exact hnon hle k
    have hres := hex.reserved_nonneg k
    have hbo := (hex.reserved_le k).trans (hex.limitsOK.aggregate_le k)
    have hco := (hle k).trans (hex.limitsOK.perAttempt_le k)
    exact ⟨hadd, add_nonneg hres (hnon k), (add_le_add hbo hco).trans_lt (by norm_num)⟩

/-- **Reservation accounting is exact in every reachable state.** -/
theorem accounting_exact (h : Reachable step Initial (fun _ _ => True) s) : AccountingExact s :=
  (reachable_ok h).accountingExact

/-! ## A run with an active attempt -/

def sampleOwner : OwnerInfo where
  instanceID := "00000000000000000000000000000001"
  buildVersion := "1.0"
  scope := .machine
  buildVersion_identifier := by decide +kernel
  buildVersion_length := by decide +kernel

def sampleRequest (id : String) (heavyweight : Bool) : AttemptRequest where
  id := id
  operation := .connectTest
  cost := { resources := ⟨1, 2, 3, 4, 5⟩, duration := second, heavyweight := heavyweight }

def sampleGovernor : State where
  owner := sampleOwner
  profile := .phase1Machine
  scope := .machine
  limits := { maxActivePeers := 20, maxActiveAttempts := 8, maxAttemptsPerPeer := 1, maxHeavyweightAttempts := 1
              maxAttemptDuration := 60 * second, cancellationDrainTimeout := 2 * second
              aggregate := ⟨128, 512, 64, 4096, 512⟩, perAttempt := ⟨128, 512, 64, 512, 512⟩ }
  trip := { state := .clear }

theorem sample_reachable {ok : State → Action → Prop} [∀ s a, Decidable (ok s a)]
    {acts : List Action} (h : runFrom step ok sampleGovernor acts = some s) :
    Reachable step Initial ok s :=
  .of_run (.start ⟨sampleOwner, .phase1Machine, none, { state := .clear }, rfl⟩) h

def sampleAdmission : List Action :=
  [.acquirePeer "peer", .acquireAttempt 0 (sampleRequest "attempt" true) false {}]

/-- Two more peers with an attempt each, of which one is being closed. -/
def sampleTurnover : List Action :=
  [.acquirePeer "second", .acquireAttempt 1 (sampleRequest "second-attempt" false) false {},
    .acquirePeer "third",
    .acquireAttempt 2 (sampleRequest "third-attempt" false) false {}, .attemptClose 1]

theorem sampleTurnover_runs :
    (runFrom step (fun _ _ => True) sampleGovernor (sampleAdmission ++ sampleTurnover)).map
    (fun s => (GoMap.values s.attempts, s.reserved.sockets)) = some ([2, 1, 0], 3) := by decide +kernel

theorem accounting_exact_sample : ∃ s, Reachable step Initial (fun _ _ => True) s ∧
    GoMap.values s.attempts = [2, 1, 0] ∧ s.reserved.sockets = 3 ∧ AccountingExact s := by
  obtain ⟨s, hrun, hs⟩ := Option.map_eq_some_iff.1 sampleTurnover_runs
  obtain ⟨hattempts, hsockets⟩ := Prod.mk.inj hs
  exact ⟨s, sample_reachable hrun, hattempts, hsockets, accounting_exact (sample_reachable hrun)⟩

/-- An attempt that is being closed stays so while other leases come and go. -/
theorem leases_never_return_sample : ∃ s s', Reachable step Initial (fun _ _ => True) s ∧
    Reachable step (· = s) (fun _ _ => True) s' ∧ (s.attempt 0).stoppingStarted = true ∧
    (s'.attempt 0).stoppingStarted = true ∧ (s'.attempt 0).peer = (s.attempt 0).peer := by
  have hruns : ((runFrom step (fun _ _ => True) sampleGovernor (sampleAdmission ++
    [.attemptClose 0])).bind fun s =>
      (runFrom step (fun _ _ => True) s sampleTurnover).map fun _ => ((s.attempt 0).stoppingStarted,
        s.attemptCount)) =
      some (true, 1) := by decide +kernel
  obtain ⟨s, hrun, hlater⟩ := Option.bind_eq_some_iff.1 hruns
  obtain ⟨s', hrun', hs⟩ := Option.map_eq_some_iff.1 hlater
  obtain ⟨hstopping, hcount⟩ := Prod.mk.inj hs
  have hreach : Reachable step (· = s) (fun _ _ => True) s' := .of_run (.start rfl) hrun'
  obtain ⟨hpeer, -, -, hstays⟩ :=
    (leases_never_return.1 s s' (sample_reachable hrun) hreach).1 0 (hcount ▸ Nat.zero_lt_one)
  exact ⟨s, s', sample_reachable hrun, hreach, hstopping, (hstays hstopping).1, hpeer⟩

end Winkyou.Governor
