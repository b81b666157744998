import Winkyou.Spec.Governor.Limits

/-!
# Identifiers, governor errors and safety-trip events (`governor.go`, `safety_trip.go`)

The safety trip is the persistent fail-closed latch of the machine. The governor sees it
through two calls of the trip store, which reads and writes a file: what the file system
answers is not known to the governor, and is an argument of the modelled section
(`StoreReply`).
-/

namespace Winkyou

/-- A safety-trip status as far as the governor reads it. -/
inductive SafetyTripState
  | unset
  | clear
  | tripped
  | indeterminate
  deriving DecidableEq, Repr

/-- `SafetyTripStatus` without its diagnostic record. -/
structure SafetyTripStatus where
  state : SafetyTripState := .unset
  blocksActiveWork : Bool := false
  detail : String := ""
  deriving DecidableEq, Repr

def indeterminateSafetyTripStatus (detail : String) : SafetyTripStatus where
  state := .indeterminate
  blocksActiveWork := true
  detail := detail

inductive GovernorErr
  | governorClosed
  | leaseClosed
  /-- `ErrInvalidRequest`, wrapped with a detail. -/
  | invalidRequest (detail : String)
  /-- `ErrNotAllowed`, wrapped with a detail. -/
  | notAllowed (detail : String)
  | duplicatePeer (peerID : String)
  | duplicateAttempt (id : String)
  | exclusiveClaimUsed
  | limits (e : LimitsErr)
  /-- `*SafetyTripError`. -/
  | safetyTrip (status : SafetyTripStatus)
  | restrictedScopeRequired
  | cancellationDrainTimeout
  | terminalFinalizing
  | terminalFinalizationTimeout
  /-- `ErrTerminalFinalizationFailed` joined with its cause. -/
  | terminalFinalizationFailed (cause : String)
  | pairingMachineScopeRequired
  | committedAttemptInvalid (detail : String)
  /-- An error of the operating system or of the trip store. -/
  | store (text : String)
  deriving DecidableEq, Repr

/-- An error built by `errors.Join`: the errors joined, none for `nil`. -/
abbrev JoinedErr := List GovernorErr

def validateIdentifier (field value : String) : Except GovernorErr Unit := do
  .failIf (trimSpace value = "") (.invalidRequest (field ++ " is empty"))
  .failIf (trimSpace value ≠ value) (.invalidRequest (field ++ " has surrounding whitespace"))
  .failIf (value.utf8ByteSize > 256) (.invalidRequest (field ++ " is too long"))
  .failIf (value.toList.any isControl) (.invalidRequest (field ++ " contains a control character"))

/-- `validateSafetyDiagnosticText`; the error is its text. -/
def validateSafetyDiagnosticText (field value : String) (maximum : ℕ) (allowEmpty : Bool) :
    Except String Unit :=
  if value = "" then
    if allowEmpty then .ok () else .error (field ++ " is empty")
  else do
    .failIf (value.utf8ByteSize > maximum) (field ++ " exceeds " ++ toString maximum ++ " bytes")
    .failIf (value.toList.any isControl) (field ++ " contains a control character")

inductive SafetyTripReason
  | resourceExhausted
  | writeFailures
  | hardLimit
  | cancellation
  | staleGeneration
  | operator
  | unknown (text : String)
  deriving DecidableEq, Repr

def SafetyTripReason.valid : SafetyTripReason → Bool
  | .unknown _ => false
  | _ => true

def SafetyTripReason.text : SafetyTripReason → String
  | .resourceExhausted => "resource_exhausted"
  | .writeFailures => "consecutive_write_failures"
  | .hardLimit => "hard_limit_exceeded"
  | .cancellation => "cancellation_timeout"
  | .staleGeneration => "stale_generation_send"
  | .operator => "operator_stop"
  | .unknown text => text

/-- `SafetyTripEvent`; the time of the event is only stored. -/
structure SafetyTripEvent where
  reason : SafetyTripReason
  detail : String := ""
  peerID : String := ""
  attemptID : String := ""
  buildVersion : String := ""
  deriving DecidableEq, Repr

def maxSafetyTripDetailLen : ℕ := 1024
def maxSafetyTripBuildLen : ℕ := 128

def validateSafetyTripEvent (event : SafetyTripEvent) : Except GovernorErr Unit := do
  .failIf (event.reason.valid = false)
    (.invalidRequest ("unknown safety trip reason \"" ++ event.reason.text ++ "\""))
  (validateSafetyDiagnosticText "safety trip detail" event.detail maxSafetyTripDetailLen true).mapError
    .invalidRequest
  (validateSafetyDiagnosticText "build version" event.buildVersion maxSafetyTripBuildLen true).mapError
    .invalidRequest
  if event.peerID ≠ "" then validateIdentifier "peer id" event.peerID
  if event.attemptID ≠ "" then validateIdentifier "attempt id" event.attemptID

/-- What the file system answers to a section that calls the trip store or releases the
namespace: the status and the error returned, and whether the latch was written first. -/
structure StoreReply where
  status : SafetyTripStatus := {}
  err : JoinedErr := []
  latched : Bool := false
  deriving DecidableEq, Repr

/-- `safetyTripStore.tripThen`: an invalid event is refused before the file is touched. -/
def tripThen (event : SafetyTripEvent) (reply : StoreReply) : StoreReply :=
  match validateSafetyTripEvent event with
  | .error e => { status := {}, err := [e], latched := false }
  | .ok _ => reply

/-- `OwnerInfo`, the metadata of the namespace owner. `AcquirePreparedNamespace` accepts only
a build version that is an identifier of at most 128 bytes. -/
structure OwnerInfo where
  instanceID : String
  buildVersion : String
  scope : Scope
  buildVersion_identifier : validateIdentifier "build version" buildVersion = .ok ()
  buildVersion_length : buildVersion.utf8ByteSize ≤ 128

end Winkyou
