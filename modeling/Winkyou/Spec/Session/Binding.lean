import Winkyou.Spec.Session.Outcome

/-!
# Binding a path (`path_retention.go`, `path_multipath.go`, `bindOutcomeSet` of `planning.go`)

The selected outcome is bound, alone or as the first child of a multipath transport; the other
successful outcomes are children, retained, or closed. Every call of `Close` on a transport is
recorded in `closed`.
-/

namespace Winkyou.Session

/-- The outcome that is bound: an element of the slice, or one of its own. -/
inductive Selected
  | element (index : ℕ)
  | apart (outcome : CandidateOutcome)

/-- Whether the pointer to an element is the selected one. -/
def Selected.isAt (selected : Selected) (i : ℕ) : Bool :=
  match selected with
  | .element index => index = i
  | .apart _ => false

/-- `*selected`. -/
def Selected.outcome (selected : Selected) (outcomes : List CandidateOutcome) :
    Option CandidateOutcome :=
  match selected with
  | .element index => outcomes[index]?
  | .apart outcome => some outcome

/-! ## Retention -/

def outcomeKey (outcome : CandidateOutcome) : String :=
  if outcome.pathID ≠ "" then outcome.pathID
  else
    let summaryID := outcome.result.elim "" fun result => result.summary.pathID
    if summaryID ≠ "" then summaryID else if outcome.planID ≠ "" then outcome.planID else outcome.plan.id

def selectPrimaryOutcome (outcomes : List CandidateOutcome) (policy : PathPolicy) : Option ℕ :=
  if policy.multipathEnabled then selectBestOutcomeWithPolicy outcomes policy
    else selectBestOutcome outcomes

/-- Whether an outcome is a protected direct path that succeeded. -/
def isProtectedDirectOutcome (outcome : CandidateOutcome) : Bool :=
  isSuccessfulOutcome outcome && outcome.result.any fun result => isProtectedDirectPath result.summary

/-- One pass of the loop of `selectProtectedDirectOutcome`. -/
def betterProtected (outcomes : List CandidateOutcome) (selected : Option ℕ) (i : ℕ) : Option ℕ :=
  match outcomes[i]? with
  | none => selected
  | some outcome =>
    let known := selected.bind fun j => outcomes[j]?
    if isProtectedDirectOutcome outcome && known.all fun known => outcome.score >
      known.score then some i else selected

def selectProtectedDirectOutcome (outcomes : List CandidateOutcome) (policy : PathPolicy) :
    Option ℕ :=
  if !policy.multipathEnabled || !policy.protectDirect then none
  else (List.range outcomes.length).foldl (betterProtected outcomes) none

/-- The closure `add` of `retainSuccessfulOutcomes`. -/
def addRetained (outcomes : List CandidateOutcome) (selected : Selected)
    (retained : List CandidateOutcome) (i : ℕ) :
    List CandidateOutcome :=
  match outcomes[i]? with
  | none => retained
  | some outcome =>
    if selected.isAt i || !isSuccessfulOutcome outcome then retained
    else if retained.any fun other => outcomeKey other = outcomeKey outcome then retained
    else retained ++ [outcome]

def retainSuccessfulOutcomes (outcomes : List CandidateOutcome) (selected : Selected)
    (policy : PathPolicy) :
    List CandidateOutcome :=
  if !policy.multipathEnabled || policy.maxPaths ≤ 1 then []
  else
    let first := (selectProtectedDirectOutcome outcomes policy).elim []
      (addRetained outcomes selected [])
    -- a full list stays as it is, so the loop may as well go on
    (List.range outcomes.length).foldl (fun retained i =>
      if (retained.length : ℤ) ≥ policy.maxPaths - 1 then retained
        else addRetained outcomes selected retained i) first

/-- The transports that `closeUnusedOutcomes` closes. -/
def closeUnusedOutcomes (outcomes : List CandidateOutcome) (selected : Selected)
    (retained : List CandidateOutcome) :
    List Transport :=
  let retainedKeys := retained.map outcomeKey
  (List.range outcomes.length).filterMap fun i => do
    let outcome ← outcomes[i]?
    if selected.isAt i || outcomeKey outcome ∈ retainedKeys || outcome.borrowedTransport then none
    else outcome.transport

/-- The transports that `closeRetainedOutcomes` closes. -/
def closeRetainedOutcomes (retained : List CandidateOutcome) : List Transport :=
  retained.filterMap fun outcome => if outcome.borrowedTransport then none else outcome.transport

/-- The transports that `closeOutcomeTransports` closes. -/
def closeOutcomeTransports (outcomes : List CandidateOutcome) : List Transport :=
  outcomes.filterMap CandidateOutcome.transport

/-! ## Multipath transports -/

structure Path where
  id : String
  role : PathRole
  summary : PathSummary
  transport : Transport
  priority : ℤ
  borrowed : Bool

/-- What is bound: a transport, or a multipath transport over some. -/
inductive BoundTransport
  | single (transport : Transport)
  | multipath (paths : List Path)

/-- The transports that `Close` of a bound transport closes. -/
def BoundTransport.close : BoundTransport → List Transport
  | single transport => [transport]
  | multipath paths => (paths.filter fun path => !path.borrowed).map Path.transport

structure BoundResult where
  transport : Option BoundTransport
  summary : PathSummary

/-- `multipath.New`, on paths that have a transport: none when there is no path. -/
def newMultipath (paths : List Path) : Option (List Path) :=
  if paths.isEmpty then none
  else
    some (paths.zipIdx.map fun (path, i) =>
      let id := if path.id = "" then path.summary.pathID else path.id
      { path with
        id := if id = "" then "path-" ++ toString i else id
        role := if path.role = .unset then path.summary.role else path.role })

def resultPathID (result : Result) : String :=
  if result.summary.pathID ≠ "" then result.summary.pathID else result.summary.remoteAddr

/-- The text of one dependency in `compactPathSummary`. -/
def compactDependency (dependency : PathDependency) : Option String :=
  if dependency.kind = .unset then none
  else some (dependency.kind.text ++ if dependency.reason ≠ "" then ":" ++ dependency.reason else "")

def compactPathSummary (path : Path) : String :=
  let role := if path.summary.role = .unset then path.role else path.summary.role
  let deps := path.summary.dependencies.filterMap compactDependency
  ",".intercalate (["id=" ++ path.id] ++ (if role = .unset then [] else ["role=" ++ role.text]) ++
    if path.summary.dependencies.isEmpty then ["deps=none"]
    else if deps.isEmpty then [] else ["deps=" ++ "|".intercalate deps])

/-- One pass of the loop of `multipathSummary`, for the protected direct path. -/
def noteProtected (details : GoMap String) (path : Path) : GoMap String :=
  let role := if path.summary.role = .unset then path.role else path.summary.role
  if isProtectedDirectPath { path.summary with role } &&
    (details.lookup "protected_direct_path_id").getD "" = "" then
    details.insert "protected_direct_path_id" path.id
  else details

def multipathSummary (primary : PathSummary) (paths : List Path) : PathSummary :=
  let primaryPathID := if primary.pathID = "" then (paths.head?.map Path.id).getD "" else primary.pathID
  let details := primary.details.insert "multipath" "true"
  let details := details.insert "primary_path_id" primaryPathID
  let details := details.insert "child_path_count" (toString paths.length)
  let details := paths.foldl noteProtected details
  let details :=
    if paths.tail.isEmpty then details
    else details.insert "standby_path_ids" (",".intercalate (paths.tail.map Path.id))
  let details :=
    if paths.isEmpty then details
    else details.insert "child_paths" (";".intercalate (paths.map compactPathSummary))
  { primary with pathID := "multipath:" ++ primaryPathID, details }

/-- The path of a child; none when it did not succeed. -/
def childPath (primaryKey : String) (outcome : CandidateOutcome) (i : ℕ) : Option Path := do
  let result ← outcome.result
  let transport ← result.transport
  if outcome.err.isSome then none
  else
    some {
      id := resultPathID result
      role := result.summary.role
      summary := result.summary
      transport
      priority := if outcomeKey outcome = primaryKey then 100 else 100 - i
      borrowed := outcome.borrowedTransport }

/-- `buildResultTransportFromOutcomes`; `best` has the given result. -/
def buildResultTransportFromOutcomes (best : CandidateOutcome) (selected : Selected)
    (result : Result) (outcomes : List CandidateOutcome) (policy : PathPolicy) : BoundResult :=
  let single : BoundResult := ⟨result.transport.map .single, result.summary⟩
  if !policy.multipathEnabled then single
  else
    let retained := retainSuccessfulOutcomes outcomes selected policy
    if retained.isEmpty then single
    else
      let paths := ((best :: retained).zipIdx).filterMap fun (outcome, i) =>
        childPath (outcomeKey best) outcome i
      if paths.length ≤ 1 then single
      else
        match newMultipath paths with
        | none => single
        | some children => ⟨some (.multipath children), multipathSummary result.summary paths⟩

def isMultipathResult (result : BoundResult) : Bool :=
  result.summary.details.lookup "multipath" = some "true"

def annotateResultPath (result : Result) (plan : Plan) : Result :=
  let details := result.summary.details
  let details :=
    if (details.lookup "strategy").isNone && plan.strategy ≠ "" then details.insert "strategy"
      plan.strategy else details
  let details :=
    if (details.lookup "plan_id").isNone && plan.id ≠ "" then details.insert "plan_id" plan.id
      else details
  { result with summary := { result.summary with details } }

/-! ## `bindOutcomeSet` -/

/-- The part of a `Session` that binding reads and writes. -/
structure PathState where
  pathPolicy : PathPolicy
  retained : List CandidateOutcome
  lastPlan : Plan
  lastRes : BoundResult

inductive BindErr
  /-- the error of the last candidate that failed -/
  | candidate (text : String)
  | noSuccessfulCandidate (plans : ℕ)
  /-- no result, or a bound result without a transport: a nil dereference -/
  | nilResult
  | bind (text : String)
  | commit (text : String)
  deriving DecidableEq, Repr

/-- What a call of `bindOutcomeSet` leaves: the session, the transports it closed, and its error. -/
structure Binding where
  session : PathState
  closed : List Transport
  err : Option BindErr

/-- What the binder and the peer answer: no binder or the error of `Bind`, and the error of
`sendPathCommit`. -/
structure BindEnv where
  binder : Option (Option String)
  commit : Option String

/-- No outcome was selected. -/
def failedCandidates (s : PathState) (outcomes : List CandidateOutcome) : Binding :=
  ⟨s, closeOutcomeTransports outcomes,
    some ((outcomes.filterMap CandidateOutcome.err).getLast?.elim (.noSuccessfulCandidate
    outcomes.length) .candidate)⟩

/-- The session once the bound result is known. -/
def PathState.install (s : PathState) (plan : Plan) (bound : BoundResult)
    (retained : List CandidateOutcome) : PathState :=
  { s with
    retained := if isMultipathResult bound then [] else retained
    lastPlan := plan
    lastRes := bound }

/-- The end of `bindOutcomeSet`: the bound transport goes to the binder, and the path is
committed. -/
def bindAndCommit (env : BindEnv) (s : PathState) (transport : BoundTransport)
    (closed : List Transport) : Binding :=
  match env.binder.join, env.commit with
  | some text, _ =>
    ⟨{ s with retained := [] }, closed ++ closeRetainedOutcomes s.retained ++ transport.close,
      some (.bind text)⟩
  | none, some text =>
    ⟨{ s with retained := [], lastRes := { s.lastRes with transport := none } },
      closed ++ closeRetainedOutcomes s.retained ++ transport.close, some (.commit text)⟩
  | none, none => ⟨s, closed, none⟩

/-- The outcomes once the result of the selected one is annotated. -/
def annotated (outcomes : List CandidateOutcome) (selected : Selected) (best : CandidateOutcome) :
    List CandidateOutcome :=
  match selected with
  | .element index => outcomes.set index best
  | .apart _ => outcomes

/-- `bindOutcomeSet` once an outcome with a result is selected. -/
def bindSelected (env : BindEnv) (s : PathState) (outcomes : List CandidateOutcome)
    (selected : Selected) (best : CandidateOutcome) (result : Result) : Binding :=
  let result := annotateResultPath result best.plan
  let best := { best with result := some result }
  let outcomes := annotated outcomes selected best
  let retained := retainSuccessfulOutcomes outcomes selected s.pathPolicy
  let bound := buildResultTransportFromOutcomes best selected result outcomes s.pathPolicy
  let released := closeRetainedOutcomes s.retained
  let s := s.install best.plan bound retained
  match bound.transport with
  | none => ⟨s, released, some .nilResult⟩
  | some transport =>
    bindAndCommit env s transport (released ++ closeUnusedOutcomes outcomes selected retained)

/-- The outcome that is bound. -/
def chosen (policy : PathPolicy) (outcomes : List CandidateOutcome) (best : Option Selected) :
    Option Selected :=
  best.or ((selectPrimaryOutcome outcomes policy).map .element)

def bindOutcomeSet (env : BindEnv) (s : PathState) (outcomes : List CandidateOutcome)
    (best : Option Selected) : Binding :=
  match chosen s.pathPolicy outcomes best with
  | none => failedCandidates s outcomes
  | some selected =>
    match selected.outcome outcomes with
    | none => ⟨s, [], some .nilResult⟩
    | some outcome =>
      match outcome.result with
      | none => ⟨s, [], some .nilResult⟩
      | some result => bindSelected env s outcomes selected outcome result

end Winkyou.Session
