import Winkyou.Lib.Table
import Winkyou.Spec.GoStd

/-!
# Candidate outcomes (`solver/types.go`, `solver/path_policy.go`, `legacyice/executor.go`)

What the execution of a plan gave, how outcomes are scored, and which of them is the best. A pointer
to an element of a slice of outcomes is its index, and a transport is the identity of the object.
-/

namespace Winkyou.Session

/-! ## Summaries -/

inductive PathRole
  /-- the empty text -/
  | unset
  | primaryCandidate
  | protectedDirect
  | standby
  | bootstrap
  | other (name : String)
  deriving DecidableEq, Repr

def PathRole.text : PathRole → String
  | unset => ""
  | primaryCandidate => "primary_candidate"
  | protectedDirect => "protected_direct"
  | standby => "standby"
  | bootstrap => "bootstrap"
  | other name => name

inductive PathDependencyKind
  /-- the empty text -/
  | unset
  | none
  | coordinator
  | relay
  | peer
  | unknown
  | other (name : String)
  deriving DecidableEq, Repr

def PathDependencyKind.text : PathDependencyKind → String
  | unset => ""
  | none => "none"
  | coordinator => "coordinator"
  | relay => "relay"
  | peer => "peer"
  | unknown => "unknown"
  | other name => name

/-- What a path depends on. -/
structure PathDependency where
  kind : PathDependencyKind
  nodeID : String
  reason : String
  deriving DecidableEq, Repr

structure PathSummary where
  pathID : String
  connectionType : String
  /-- the text of the address, empty when there is none -/
  remoteAddr : String
  details : GoMap String
  role : PathRole
  dependencies : List PathDependency
  metrics : GoMap String

structure PathPolicy where
  multipathEnabled : Bool
  protectDirect : Bool
  maxPaths : ℤ
  dependencyPenalty : ℤ
  directProtectionBonus : ℤ
  deriving DecidableEq, Repr

/-- `strings.EqualFold` with a text of letters that fold to no other letter than their own case. -/
def equalFold (s t : String) : Bool := s.toLower = t.toLower

def isDirectPath (summary : PathSummary) : Bool :=
  equalFold summary.connectionType "direct" || summary.role = .protectedDirect

def hasExplicitDependency (summary : PathSummary) : Bool :=
  summary.dependencies.any fun dependency => dependency.kind ≠ .unset && dependency.kind ≠ .none

def hasDependency (summary : PathSummary) (kind : PathDependencyKind) : Bool :=
  (kind = .none && summary.dependencies.isEmpty) || summary.dependencies.any fun dependency =>
    dependency.kind = kind

def isProtectedDirectPath (summary : PathSummary) : Bool :=
  isDirectPath summary && summary.role = .protectedDirect && !hasExplicitDependency summary

def isRelayPath (summary : PathSummary) : Bool :=
  equalFold summary.connectionType "relay" || hasDependency summary .relay

/-! ## Outcomes -/

/-- The identity of a `PacketTransport`. -/
abbrev Transport := ℕ

structure Plan where
  id : String
  strategy : String
  deriving DecidableEq, Repr

structure Result where
  transport : Option Transport
  summary : PathSummary

structure CandidateOutcome where
  plan : Plan
  planID : String
  result : Option Result
  pathID : String
  borrowedTransport : Bool
  /-- the text of the error -/
  err : Option String
  score : ℤ

/-- `outcome.Result.Transport`, when there is one. -/
def CandidateOutcome.transport (outcome : CandidateOutcome) : Option Transport :=
  outcome.result.bind Result.transport

def isSuccessfulOutcome (outcome : CandidateOutcome) : Bool :=
  outcome.err.isNone && outcome.transport.isSome

/-! ## Path ids of the ICE strategy (`legacyice/executor.go`) -/

inductive ExecutionMode
  | directPrefer
  | publicDirect
  | relayOnly
  deriving DecidableEq, Repr

def ExecutionMode.text : ExecutionMode → String
  | directPrefer => "direct_prefer"
  | publicDirect => "public_direct"
  | relayOnly => "relay_only"

/-- `executor.pathID`: the plans of one mode share it. -/
def ExecutionMode.pathID (mode : ExecutionMode) (connectionType sessionID : String) : String :=
  if mode = publicDirect then "legacyice:" ++ connectionType ++ ":" ++ mode.text ++ ":" ++ sessionID
  else "legacyice:" ++ connectionType ++ ":" ++ sessionID

/-! ## Scores -/

/-- `strconv.Atoi` on 64 bits. -/
def atoi (text : String) : Option ℤ :=
  let (negative, digits) :=
    match text.toList with
    | '-' :: rest => (true, rest)
    | '+' :: rest => (false, rest)
    | rest => (false, rest)
  if digits.isEmpty || !digits.all Char.isDigit then none
  else
    let magnitude : ℤ := digits.foldl (fun n c => n * 10 + (c.toNat - '0'.toNat)) 0
    let value := if negative then -magnitude else magnitude
    if -2 ^ 63 ≤ value && value < 2 ^ 63 then some value else none

def scoreOutcome (outcome : CandidateOutcome) : ℤ :=
  match outcome.err, outcome.result with
  | none, some ⟨some _, summary⟩ =>
    100 + (if summary.connectionType = "direct" then 50
      else if summary.connectionType = "relay" then 20 else 0) +
      if summary.pathID ≠ "" then 10 else 0
  | _, _ => 0

/-- The bonus of the first metric that holds a positive number. -/
def pathLatencyBonus (summary : PathSummary) : Option ℤ :=
  ["rtt_ms", "latency_ms"].findSome? fun key => do
    let value ← atoi ((summary.metrics.lookup key).getD "")
    if value ≤ 0 then none else some (max (200 - value) 0)

def pathDependencyPenalty (summary : PathSummary) (basePenalty : ℤ) : ℤ :=
  if basePenalty ≤ 0 then 0
  else
    (if isRelayPath summary || hasExplicitDependency summary then basePenalty else 0) +
      if hasDependency summary .unknown then basePenalty else 0

/-- The part of `ScoreOutcomeWithPolicy` after the checks. -/
def policyScore (summary : PathSummary) (policy : PathPolicy) (score : ℤ) : ℤ :=
  let score := score + (pathLatencyBonus summary).getD 0
  let score := if policy.dependencyPenalty > 0 then score - pathDependencyPenalty summary
    policy.dependencyPenalty else score
  let score :=
    if policy.protectDirect && policy.directProtectionBonus > 0 && isProtectedDirectPath summary then
      score + policy.directProtectionBonus
    else score
  if score < 1 then 1 else score

def scoreOutcomeWithPolicy (outcome : CandidateOutcome) (policy : PathPolicy) : ℤ :=
  let score := scoreOutcome outcome
  if score = 0 || !policy.multipathEnabled then score
  else
    match outcome.result with
    | none => score
    | some result => policyScore result.summary policy score

def outcomeTieRank (outcome : CandidateOutcome) : ℕ :=
  match outcome.result with
  | none => 0
  | some ⟨_, summary⟩ =>
    if isProtectedDirectPath summary then 4
    else if isDirectPath summary && !hasExplicitDependency summary then 3
    else if isDirectPath summary then 2
    else if !hasExplicitDependency summary then 1
    else 0

def preferOutcomeTie (candidate incumbent : CandidateOutcome) : Bool :=
  outcomeTieRank candidate > outcomeTieRank incumbent

/-! ## The best outcome -/

/-- One pass of the loop of `SelectBestOutcome`: the best index so far with its score. -/
def betterOutcome (score : CandidateOutcome → ℤ) (outcomes : List CandidateOutcome)
    (best : Option ℕ × ℤ) (i : ℕ) :
    Option ℕ × ℤ :=
  match outcomes[i]? with
  | none => best
  | some outcome =>
    let prefers := (best.1.bind fun j => outcomes[j]?).any fun incumbent =>
      preferOutcomeTie outcome incumbent
    if score outcome > best.2 || (score outcome = best.2 && prefers) then (some i, score outcome)
      else best

/-- `SelectBestOutcome` and `SelectBestOutcomeWithPolicy`, by the score. -/
def selectByScore (score : CandidateOutcome → ℤ) (outcomes : List CandidateOutcome) : Option ℕ :=
  let best := (List.range outcomes.length).foldl (betterOutcome score outcomes) (none, -1)
  if best.2 > 0 then best.1 else none

def selectBestOutcome (outcomes : List CandidateOutcome) : Option ℕ :=
  selectByScore scoreOutcome outcomes

def selectBestOutcomeWithPolicy (outcomes : List CandidateOutcome) (policy : PathPolicy) :
    Option ℕ :=
  if policy.multipathEnabled then selectByScore (fun outcome =>
    scoreOutcomeWithPolicy outcome policy) outcomes
  else selectBestOutcome outcomes

end Winkyou.Session
