import Mathlib.Tactic
import Winkyou.Spec.Governor.Run

/-!
# Limits a governor can run under

`get` reads a resource vector at one component, so that a fact about all five is one statement.

* `LimitsOK`: the limits `newGovernor` can build are positive, and far below the range of `int`.
* `newGovernor_limits`: `newGovernor` builds no others.
-/

namespace Winkyou

inductive Resource
  | sockets
  | targets
  | packetsPerSecond
  | packets
  | fiveTuples
  deriving DecidableEq, Repr

theorem int64_of_range {n : ℤ} (h : -2 ^ 63 ≤ n) (h' : n < 2 ^ 63) : int64 n = n := by
  unfold int64
  apply Int.bmod_eq_of_le <;> omega

namespace Resources

variable {r r' : Resources} {k : Resource}

def get (r : Resources) : Resource → ℤ
  | .sockets => r.sockets
  | .targets => r.targets
  | .packetsPerSecond => r.packetsPerSecond
  | .packets => r.packets
  | .fiveTuples => r.fiveTuples

@[simp] theorem get_zero : get {} k = 0 := by cases k <;> rfl

theorem get_add : (r.add r').get k = int64 (r.get k + r'.get k) := by cases k <;> rfl

theorem get_subtract : (r.subtract r').get k = int64 (r.get k - r'.get k) := by cases k <;> rfl

/-- What holds of every resource, field by field. -/
theorem forall_get_iff {P : ℤ → Resource → Prop} :
    (∀ k, P (r.get k) k) ↔ P r.sockets .sockets ∧ P r.targets .targets ∧
      P r.packetsPerSecond .packetsPerSecond ∧ P r.packets .packets ∧ P r.fiveTuples .fiveTuples := by
  constructor
  · intro h
    exact ⟨h .sockets, h .targets, h .packetsPerSecond, h .packets, h .fiveTuples⟩
  · rintro ⟨h₁, h₂, h₃, h₄, h₅⟩ k
    cases k <;> assumption

theorem validateNonNegative_ok_iff {u : Unit} :
    r.validateNonNegative = .ok u ↔ ∀ k, 0 ≤ r.get k := by
  rw [forall_get_iff (P := fun n _ => 0 ≤ n)]
  unfold validateNonNegative
  constructor
  · intro h
    split_ifs at h
    omega
  · rintro ⟨h₁, h₂, h₃, h₄, h₅⟩
    simp [not_lt.2 h₁, not_lt.2 h₂, not_lt.2 h₃, not_lt.2 h₄, not_lt.2 h₅]

end Resources

theorem firstResourceExcess_eq_none_iff {current maximum : Resources} :
    firstResourceExcess current maximum = none ↔ ∀ k, current.get k ≤ maximum.get k := by
  rw [Resources.forall_get_iff (P := fun n k => n ≤ maximum.get k)]
  simp [firstResourceExcess, Resources.get]

theorem resourcesWithin_ok_iff {tag : String} {current maximum : Resources} {u : Unit} :
    resourcesWithin tag current maximum = .ok u ↔ ∀ k, current.get k ≤ maximum.get k := by
  rw [← firstResourceExcess_eq_none_iff]
  unfold resourcesWithin
  split <;> simp [*]

/-- **What every configured limit satisfies.** -/
structure LimitsOK (l : Limits) : Prop where
  peers_pos : 0 < l.maxActivePeers
  attempts_pos : 0 < l.maxActiveAttempts
  perPeer_pos : 0 < l.maxAttemptsPerPeer
  heavyweight_nonneg : 0 ≤ l.maxHeavyweightAttempts
  timeout_pos : 0 < l.cancellationDrainTimeout
  timeout_le : l.cancellationDrainTimeout ≤ 2 * second
  aggregate_nonneg : ∀ k, 0 ≤ l.aggregate.get k
  aggregate_le : ∀ k, l.aggregate.get k ≤ 2 ^ 32
  perAttempt_le : ∀ k, l.perAttempt.get k ≤ 2 ^ 32

theorem hardLimits_ok {profile : Profile} {hard : Limits} (h : hardLimits profile = .ok hard) :
    LimitsOK hard := by
  cases profile <;> simp only [hardLimits, Except.ok.injEq, reduceCtorEq] at h
  all_goals
    subst h
    constructor <;> first | decide | (intro k; cases k <;> decide)

theorem validateNotRaised_limits {requested hard : Limits} (hha : LimitsOK hard)
    (h : validateNotRaised requested hard = .ok ()) : LimitsOK requested := by
  simp only [validateNotRaised, validateLimits, Except.bind_ok_iff, Except.failIf_ok_iff, not_le,
    not_or, not_lt, Resources.validateNonNegative_ok_iff, resourcesWithin_ok_iff, exists_const] at h
  obtain ⟨⟨hpe, hatt, ⟨hper, -⟩, ⟨hhe, -⟩, -, htime, hagg, -⟩, -, -, -, -, -, htim, hag,
    hperLe⟩ := h
  constructor
  · exact hpe
  · exact hatt
  · exact hper
  · exact hhe
  · exact htime
  · exact le_trans htim hha.timeout_le
  · exact hagg
  · exact fun k => (hag k).trans (hha.aggregate_le k)
  · exact fun k => (hperLe k).trans (hha.perAttempt_le k)

open Governor in
/-- `newGovernor` builds an empty governor under limits that are in order, with no trip. -/
theorem newGovernor_ok {owner : OwnerInfo} {profile : Profile} {requested : Option Limits}
    {trip : SafetyTripStatus} {s : State} (h : newGovernor owner profile requested trip = .ok s) :
    ∃ scope limits, s = { owner, profile, scope, limits, trip } ∧ LimitsOK limits := by
  unfold newGovernor at h
  simp only [Except.bind_ok_iff, Except.failIf_ok_iff, Except.mapError_ok_iff] at h
  obtain ⟨scope, -, -, -, hard, hha, limits, hlim, -, -, hs⟩ := h
  refine ⟨scope, limits, (Except.ok.inj hs).symm, ?_⟩
  cases requested with
  | none =>
    cases hlim
    exact hardLimits_ok hha
  | some requested =>
    simp only [configuredLimits, Except.bind_ok_iff, Except.mapError_ok_iff, Except.ok.injEq] at hlim
    obtain ⟨_, hrai, rfl⟩ := hlim
    exact validateNotRaised_limits (hardLimits_ok hha) hrai

end Winkyou
