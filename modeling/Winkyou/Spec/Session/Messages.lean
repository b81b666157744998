import Winkyou.Spec.GoStd

/-!
# Strategy messages and the plans they are for (`selection.go`, `executePlan` of `planning.go`)

The plans of a strategy with executors are executed one after another. A strategy message is handed
to the executor that is installed when it arrives, or kept until a later executor is installed. Each
section under `strategyMu` is one step, and so is each message that `flushPendingStrategyMessages`
hands over.

`arrivals`, `handed`, `since` and `dropped` are history. An arrival is named by its number.
-/

namespace Winkyou.Session

/-- `solver.Message`; a Go string is its bytes. -/
structure Message where
  kind : Bytes := []
  nameSpace : Bytes := []
  type : Bytes := []
  payload : Bytes
  deriving DecidableEq

/-! ## Plan ids -/

/-- The pattern `_hint_[0-9]+$` of `planHintSuffixPattern`, over the reversed text: the text without
its match. -/
def dropHintSuffix (reversed : List Char) : Option (List Char) :=
  match reversed.span Char.isDigit with
  | ([], _) => none
  | (_ :: _, '_' :: 't' :: 'n' :: 'i' :: 'h' :: '_' :: rest) => some rest
  | _ => none

def normalizeStrategyPlanID (planID : String) : String :=
  let planID := trimSpace planID
  match dropHintSuffix planID.toList.reverse with
  | some rest => String.ofList rest.reverse
  | none => planID

def strategyPlanIDsMatch (a b : String) : Bool :=
  let a := trimSpace a
  let b := trimSpace b
  if a = "" || b = "" then false else a = b || normalizeStrategyPlanID a = normalizeStrategyPlanID b

def reusableStrategyMessageKey (msg : Message) : Bytes :=
  msg.kind ++ [0] ++ msg.nameSpace ++ [0] ++ msg.type ++ [0] ++ msg.payload

/-- `json.Unmarshal` of a payload into the header: the text of `plan_id`, none if the payload is no
such object. -/
abbrev HeaderDecoder := Bytes → Option String

variable (header : HeaderDecoder)

def strategyMessagePlanID (msg : Message) : Option String :=
  if msg.payload.length = 0 then none
  else
    match header msg.payload with
    | none => none
    | some planID =>
      let planID := trimSpace planID
      if planID = "" then none else some planID

def shouldBufferForFuturePlan (msg : Message) (activePlan : String) : Bool :=
  if trimSpace activePlan = "" then false
  else
    match strategyMessagePlanID header msg with
    | none => false
    | some msgPlanID => !strategyPlanIDsMatch msgPlanID activePlan

def shouldRetainForLaterPlanAfterDelivery (msg : Message) (activePlan : String) : Bool :=
  if trimSpace activePlan = "" then false
  else
    match strategyMessagePlanID header msg with
    | none => false
    | some msgPlanID =>
      if trimSpace msgPlanID = trimSpace activePlan then false
        else strategyPlanIDsMatch msgPlanID activePlan

/-! ## State -/

/-- A message with the number of its arrival. -/
abbrev Entry := ℕ × Message

/-- Where `executePlan` is. -/
inductive Point
  /-- Between two plans. -/
  | idle
  /-- Before a section of `flushPendingStrategyMessages`; `deliveredReusable` so far. -/
  | flush (deliveredReusable : List Bytes)
  /-- Handing over what the section took. -/
  | deliver (todo : List Entry) (deliveredReusable : List Bytes)
  /-- In `executor.Execute`. -/
  | executing
  /-- Between `clearActiveExecutor` and `discardPendingStrategyMessagesForPlan`. -/
  | cleared

/-- A message as it arrived: how many executors had been removed, and whether it was endangered. -/
structure Arrival where
  message : Message
  removed : ℕ
  endangered : Bool
  deriving DecidableEq

structure State where
  /-- The ids of the plans, in the order of their execution. -/
  plans : List String
  pending : List Entry := []
  /-- The executor that is installed, by the index of its plan. -/
  executor : Option ℕ := none
  activePlan : String := ""
  point : Point := .idle
  /-- How many executors have been removed; also the index of the plan that is executed or comes
  next. -/
  removed : ℕ := 0
  /-- Calls of `HandleMessage` that the router is about to make: the executor and the arrival. -/
  calls : List (ℕ × ℕ) := []
  /-- The messages handed over: the executor and the arrival. -/
  handed : List (ℕ × ℕ) := []
  arrivals : List Arrival := []
  /-- For each executor, how many messages had arrived before the last discard of all when it was
  installed. -/
  since : List ℕ := []
  /-- How many messages had arrived before the last discard of all. -/
  dropped : ℕ := 0

namespace State

/-- A message is endangered when it arrives while the executor of another plan of its family is
installed, or between the removal of an executor of its plan and the discard that follows. -/
def endangers (s : State) (msg : Message) : Bool :=
  match strategyMessagePlanID header msg with
  | none => false
  | some id =>
    match s.point with
    | .idle => false
    | .cleared => (s.plans[s.removed - 1]?).any fun plan => trimSpace plan = id
    | _ => strategyPlanIDsMatch id s.activePlan && id ≠ trimSpace s.activePlan

/-! ## Steps -/

/-- `routeStrategyMessage`, and the call of the target that it returns. -/
def arrive (s : State) (msg : Message) : State :=
  let n := s.arrivals.length
  let arrival : Arrival := ⟨msg, s.removed, s.endangers header msg⟩
  let s := { s with arrivals := s.arrivals ++ [arrival] }
  match s.executor with
  | none => { s with pending := s.pending ++ [(n, msg)] }
  | some j =>
    if shouldBufferForFuturePlan header msg s.activePlan then { s with pending := s.pending ++ [(n,
      msg)] }
    else { s with calls := s.calls ++ [(j, n)] }

/-- One pass of the loop of a flush section: what is delivered, what is retained,
`deliveredReusable`. -/
def flushEntry (activePlan : String) (acc : List Entry × List Entry × List Bytes) (entry : Entry) :
    List Entry × List Entry × List Bytes :=
  let (deliver, retained, keys) := acc
  if shouldBufferForFuturePlan header entry.2 activePlan then (deliver, retained ++ [entry], keys)
  else if shouldRetainForLaterPlanAfterDelivery header entry.2 activePlan then
    let key := reusableStrategyMessageKey entry.2
    if key ∈ keys then (deliver, retained ++ [entry], keys)
    else (deliver ++ [entry], retained ++ [entry], key :: keys)
  else (deliver ++ [entry], retained, keys)

/-- A section of `flushPendingStrategyMessages`. -/
def flushSection (s : State) (keys : List Bytes) : State :=
  let (deliver, retained, keys) := s.pending.foldl (flushEntry header s.activePlan) ([], [], keys)
  { s with pending := retained, point := if deliver.isEmpty then .executing else .deliver deliver keys }

def discardPendingStrategyMessages (s : State) : State :=
  { s with pending := [], dropped := s.arrivals.length }

def discardPendingStrategyMessagesForPlan (s : State) (planID : String) : State :=
  if trimSpace planID = "" then s.discardPendingStrategyMessages
  else
    { s with
      pending := s.pending.filter fun entry =>
        (strategyMessagePlanID header entry.2).any fun msgPlanID => trimSpace msgPlanID ≠
          trimSpace planID }

inductive Action
  | arrive (msg : Message)
  /-- A call of `HandleMessage` by the router. -/
  | handle (i : ℕ)
  | install
  | flush
  | deliver
  /-- `Execute` has returned: `clearActiveExecutor`. -/
  | remove
  | discard
  | discardAll

def step (s : State) : Action → Option State
  | .arrive msg => some (s.arrive header msg)
  | .handle i => do
    let call ← s.calls[i]?
    return { s with calls := s.calls.eraseIdx i, handed := s.handed ++ [call] }
  | .install =>
    match s.point, s.plans[s.removed]? with
    | .idle, some plan =>
      some { s with executor := some s.removed, activePlan := plan, point := .flush [], since := s.since ++ [s.dropped] }
    | _, _ => none
  | .flush =>
    match s.point with
    | .flush keys => some (s.flushSection header keys)
    | _ => none
  | .deliver =>
    match s.point with
    | .deliver [] keys => some { s with point := .flush keys }
    | .deliver (entry :: todo) keys =>
      some { s with handed := s.handed ++ [(s.removed, entry.1)], point := .deliver todo keys }
    | _ => none
  | .remove =>
    match s.point with
    | .executing => some { s with executor := none, activePlan := "", removed := s.removed + 1, point := .cleared }
    | _ => none
  | .discard =>
    match s.point, s.plans[s.removed - 1]? with
    | .cleared, some plan =>
      some { s.discardPendingStrategyMessagesForPlan header plan with point := .idle }
    | _, _ => none
  | .discardAll =>
    match s.point with
    | .idle => some s.discardPendingStrategyMessages
    | _ => none

def Initial (s : State) : Prop := ∃ plans, s = { plans := plans }

/-- The message was handed to an executor, or the call that hands it is being made. -/
def Handed (s : State) (j n : ℕ) : Prop := (j, n) ∈ s.handed ∨ (j, n) ∈ s.calls

end State

end Winkyou.Session
