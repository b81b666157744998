import Winkyou.Lib.Except
import Winkyou.Spec.GoStd

/-!
# Governor profiles, resources and limits (`limits.go`)

The compiled release policies: which operations a profile allows, the resource
vector an attempt reserves, and the hard ceilings that a configuration can lower but
never raise.
-/

namespace Winkyou

inductive Scope
  | machine
  | userAcknowledged
  | unknown (text : String)
  deriving DecidableEq, Repr

inductive Profile
  | phase1Machine
  | phase1ManualTraversal
  | phase1UserAcknowledged
  | phase1HardNATCampaign
  | unknown (text : String)
  deriving DecidableEq, Repr

inductive Operation
  | diagnose
  | connectTest
  | nodeRuntime
  | recovery
  | portMapping
  | prediction
  | birthday
  | unknown (text : String)
  deriving DecidableEq, Repr

def Profile.text : Profile → String
  | .phase1Machine => "phase1_machine"
  | .phase1ManualTraversal => "phase1_manual_traversal"
  | .phase1UserAcknowledged => "phase1_user_acknowledged"
  | .phase1HardNATCampaign => "phase1_hard_nat_campaign"
  | .unknown text => text

def Operation.text : Operation → String
  | .diagnose => "diagnose"
  | .connectTest => "connect_test"
  | .nodeRuntime => "node_runtime"
  | .recovery => "recovery"
  | .portMapping => "port_mapping"
  | .prediction => "prediction"
  | .birthday => "birthday"
  | .unknown text => text

/-- `*LimitError`: the first hard boundary an acquisition crosses. -/
structure LimitError where
  field : String
  requested : ℤ
  maximum : ℤ
  deriving DecidableEq, Repr

/-- The errors of `limits.go`. -/
inductive LimitsErr
  /-- `ErrInvalidLimits`, wrapped with a detail. -/
  | invalidLimits (detail : String)
  /-- A `*LimitError`; it unwraps to `ErrLimitExceeded`. -/
  | limit (e : LimitError)
  deriving DecidableEq, Repr

def LimitsErr.text : LimitsErr → String
  | .invalidLimits detail => "invalid governor limits: " ++ detail
  | .limit e => "governor limit exceeded: " ++ e.field ++ " requested=" ++ toString e.requested ++
      " maximum=" ++ toString e.maximum

def Profile.scope : Profile → Except LimitsErr Scope
  | .phase1Machine => .ok .machine
  | .phase1ManualTraversal => .ok .machine
  | .phase1HardNATCampaign => .ok .machine
  | .phase1UserAcknowledged => .ok .userAcknowledged
  | .unknown text => .error (.invalidLimits ("unknown profile \"" ++ text ++ "\""))

def Profile.allows : Profile → Operation → Bool
  | .phase1Machine, op => op == .diagnose || op == .connectTest
  | .phase1UserAcknowledged, op => op == .diagnose || op == .connectTest
  | .phase1ManualTraversal, op => op == .prediction || op == .birthday
  | .phase1HardNATCampaign, op => op == .birthday
  | .unknown _, _ => false

/-- A worst-case reservation. -/
@[ext]
structure Resources where
  sockets : ℤ := 0
  targets : ℤ := 0
  packetsPerSecond : ℤ := 0
  packets : ℤ := 0
  fiveTuples : ℤ := 0
  deriving DecidableEq, Repr

namespace Resources

/-- `Resources.add`, on 64-bit `int` fields. -/
def add (r other : Resources) : Resources where
  sockets := int64 (r.sockets + other.sockets)
  targets := int64 (r.targets + other.targets)
  packetsPerSecond := int64 (r.packetsPerSecond + other.packetsPerSecond)
  packets := int64 (r.packets + other.packets)
  fiveTuples := int64 (r.fiveTuples + other.fiveTuples)

/-- `Resources.subtract`, on 64-bit `int` fields. -/
def subtract (r other : Resources) : Resources where
  sockets := int64 (r.sockets - other.sockets)
  targets := int64 (r.targets - other.targets)
  packetsPerSecond := int64 (r.packetsPerSecond - other.packetsPerSecond)
  packets := int64 (r.packets - other.packets)
  fiveTuples := int64 (r.fiveTuples - other.fiveTuples)

def validateNonNegative (r : Resources) : Except LimitsErr Unit :=
  if r.sockets < 0 then .error (.invalidLimits "sockets must be non-negative")
  else if r.targets < 0 then .error (.invalidLimits "targets must be non-negative")
  else if r.packetsPerSecond < 0 then .error (.invalidLimits "packets per second must be non-negative")
  else if r.packets < 0 then .error (.invalidLimits "packets must be non-negative")
  else if r.fiveTuples < 0 then .error (.invalidLimits "five-tuples must be non-negative")
  else .ok ()

end Resources

/-- `firstResourceExcess`: the first field of `current` above its maximum. -/
def firstResourceExcess (current maximum : Resources) : Option LimitError :=
  [("sockets", current.sockets, maximum.sockets),
    ("targets", current.targets, maximum.targets),
    ("packets_per_second", current.packetsPerSecond, maximum.packetsPerSecond),
    ("packets", current.packets, maximum.packets),
    ("five_tuples", current.fiveTuples, maximum.fiveTuples)].findSome? fun check =>
      if check.2.1 > check.2.2 then some ⟨check.1, check.2.1, check.2.2⟩ else none

/-- A `*LimitError` for the first field above its maximum, its name after a tag. -/
def resourcesWithin (tag : String) (current maximum : Resources) : Except LimitsErr Unit :=
  match firstResourceExcess current maximum with
  | some e => .error (.limit { e with field := tag ++ e.field })
  | none => .ok ()

/-- `Limits`: aggregate reservations and per-attempt ceilings. -/
structure Limits where
  maxActivePeers : ℤ
  maxActiveAttempts : ℤ
  maxAttemptsPerPeer : ℤ
  maxHeavyweightAttempts : ℤ
  maxAttemptDuration : Duration
  cancellationDrainTimeout : Duration
  aggregate : Resources
  perAttempt : Resources
  deriving DecidableEq, Repr

/-- `HardLimits`: the compiled ceiling of a profile. -/
def hardLimits : Profile → Except LimitsErr Limits
  | .phase1Machine => .ok {
      maxActivePeers := 20, maxActiveAttempts := 8, maxAttemptsPerPeer := 1
      maxHeavyweightAttempts := 1, maxAttemptDuration := 60 * second
      cancellationDrainTimeout := 2 * second
      aggregate := ⟨128, 512, 64, 4096, 512⟩, perAttempt := ⟨128, 512, 64, 512, 512⟩ }
  | .phase1ManualTraversal => .ok {
      maxActivePeers := 1, maxActiveAttempts := 1, maxAttemptsPerPeer := 1
      maxHeavyweightAttempts := 1, maxAttemptDuration := 22 * second
      cancellationDrainTimeout := 2 * second
      aggregate := ⟨128, 516, 64, 526, 523⟩, perAttempt := ⟨128, 516, 64, 526, 523⟩ }
  | .phase1HardNATCampaign => .ok {
      maxActivePeers := 1, maxActiveAttempts := 1, maxAttemptsPerPeer := 1
      maxHeavyweightAttempts := 1, maxAttemptDuration := 47 * second
      cancellationDrainTimeout := 2 * second
      aggregate := ⟨16, 16400, 512, 16432, 16400⟩, perAttempt := ⟨16, 16400, 512, 16432, 16400⟩ }
  | .phase1UserAcknowledged => .ok {
      maxActivePeers := 1, maxActiveAttempts := 1, maxAttemptsPerPeer := 1
      maxHeavyweightAttempts := 0, maxAttemptDuration := 15 * second
      cancellationDrainTimeout := second
      aggregate := ⟨4, 8, 8, 64, 8⟩, perAttempt := ⟨4, 8, 8, 64, 8⟩ }
  | .unknown text => .error (.invalidLimits ("unknown profile \"" ++ text ++ "\""))

def validateLimits (l : Limits) : Except LimitsErr Unit := do
  .failIf (l.maxActivePeers ≤ 0) (.invalidLimits "max active peers must be positive")
  .failIf (l.maxActiveAttempts ≤ 0) (.invalidLimits "max active attempts must be positive")
  .failIf (l.maxAttemptsPerPeer ≤ 0 ∨ l.maxAttemptsPerPeer > l.maxActiveAttempts)
    (.invalidLimits "max attempts per peer must be within active attempt capacity")
  .failIf (l.maxHeavyweightAttempts < 0 ∨ l.maxHeavyweightAttempts > l.maxActiveAttempts)
    (.invalidLimits "invalid heavyweight attempt limit")
  .failIf (l.maxAttemptDuration ≤ 0) (.invalidLimits "max attempt duration must be positive")
  .failIf (l.cancellationDrainTimeout ≤ 0)
    (.invalidLimits "cancellation drain timeout must be positive")
  l.aggregate.validateNonNegative
  l.perAttempt.validateNonNegative
  resourcesWithin "per_attempt_" l.perAttempt l.aggregate

/-- `validateNotRaised`: a configuration may lower a ceiling, never raise it. -/
def validateNotRaised (requested hard : Limits) : Except LimitsErr Unit := do
  validateLimits requested
  let within (field : String) (requested maximum : ℤ) : Except LimitsErr Unit :=
    .failIf (requested > maximum) (.limit ⟨field, requested, maximum⟩)
  within "max_active_peers" requested.maxActivePeers hard.maxActivePeers
  within "max_active_attempts" requested.maxActiveAttempts hard.maxActiveAttempts
  within "max_attempts_per_peer" requested.maxAttemptsPerPeer hard.maxAttemptsPerPeer
  within "max_heavyweight_attempts" requested.maxHeavyweightAttempts hard.maxHeavyweightAttempts
  within "max_attempt_duration_ns" requested.maxAttemptDuration hard.maxAttemptDuration
  within "cancellation_drain_timeout_ns" requested.cancellationDrainTimeout
    hard.cancellationDrainTimeout
  resourcesWithin "aggregate_" requested.aggregate hard.aggregate
  resourcesWithin "per_attempt_" requested.perAttempt hard.perAttempt

end Winkyou
