import Mathlib.Data.List.Sort
import Mathlib.Order.Lex
import Winkyou.Lib.Except
import Winkyou.Spec.GoStd

/-!
# Selection messages (`selection_wire.go`)

The messages of the strategy selection protocol, their validators, the digests that bind a
round to both capabilities, and the joint selection that both peers compute on their own.

`sha256` of a JSON encoding is a parameter: `Hasher.sum` is the digest of each value that the
program hashes.
-/

namespace Winkyou.Selection

def selectionVersion : String := "winkyou.legacy-selection/1"
def selectionStrategyLimit : ℕ := 8
def selectionFeatureLimit : ℕ := 32
def selectionTokenLimit : ℕ := 64
def selectionReceiveLimit : ℕ := 16

/-- The classes of a `selectionError`. -/
inductive ErrorClass
  | selectionInvalid
  | selectionConflict
  | selectionUnsupported
  | selectionTimeout
  | selectionClosed
  | selectionPreviousActive
  | capabilityMissing
  deriving DecidableEq, Repr

inductive ContextErr
  | deadlineExceeded
  | canceled
  deriving DecidableEq, Repr

/-- The errors that reach `stopLocked`: a `selectionError` with its cause, a context's error, and
any other error. -/
inductive Err
  | selection (cls : ErrorClass) (cause : Option ContextErr)
  | context (e : ContextErr)
  | other
  deriving DecidableEq, Repr

def selectionFailure (cls : ErrorClass) : Err := .selection cls none

def selectionDeadline (cls : ErrorClass) : Err := .selection cls (some .deadlineExceeded)

/-! ## Messages -/

structure Capability where
  strategies : List String
  features : List String
  deriving DecidableEq, Repr

structure SelectionCapability where
  strategies : List String
  features : List String
  version : String
  epoch : String
  deriving DecidableEq, Repr

def SelectionCapability.domainWire (c : SelectionCapability) : Capability :=
  ⟨c.strategies, c.features⟩

/-- What a control message is bound to. -/
structure SelectionBinding where
  version : String
  fromEpoch : String
  toEpoch : String
  ordinal : String
  senderCapability : String
  receiverCapability : String
  previous : String
  previousClosed : Bool
  deriving DecidableEq, Repr

structure SelectionProposal extends SelectionBinding where
  strategies : List String
  deriving DecidableEq, Repr

structure SelectionConfirmation extends SelectionBinding where
  strategy : String
  digest : String
  deriving DecidableEq, Repr

/-! ## Validators -/

def identifierChar (c : Char) : Bool :=
  let n := c.toNat
  (97 ≤ n && n ≤ 122) || (65 ≤ n && n ≤ 90) || (48 ≤ n && n ≤ 57) ||
    c == '_' || c == '-' || c == '.' || c == '/' || c == ':'

/-- A string of these characters has as many bytes as characters; any other byte is refused. -/
def selectionIdentifier (value : String) (limit : ℕ) : Bool :=
  value.toList ≠ [] && value.toList.length ≤ limit && value.toList.all identifierChar

def hexChar (c : Char) : Bool :=
  let n := c.toNat
  (48 ≤ n && n ≤ 57) || (97 ≤ n && n ≤ 102)

def selectionHex (value : String) (size : ℕ) : Bool :=
  value.toList.length == size * 2 && value.toList.all hexChar

/-- The loop over the values, with the set of those seen before. -/
def selectionListLoop : List String → List String → Bool
  | _, [] => true
  | seen, value :: values =>
    selectionIdentifier value selectionTokenLimit && value ∉ seen &&
      selectionListLoop (value :: seen) values

def selectionList (values : List String) (limit : ℕ) (nonempty : Bool) : Bool :=
  !(limit < values.length || (nonempty && values.isEmpty)) && selectionListLoop [] values

def validateSelectionCapability (value : SelectionCapability) : Except ErrorClass Unit := do
  Except.failIf (value.version ≠ selectionVersion) .selectionUnsupported
  Except.failIf (!selectionHex value.epoch 16 ||
    !selectionList value.strategies selectionStrategyLimit true ||
    !selectionList value.features selectionFeatureLimit false) .selectionInvalid

def selectionOrdinal (value : String) : Except ErrorClass ℕ :=
  match parseUint value with
  | some ordinal => if formatUint ordinal = value then .ok ordinal else .error .selectionInvalid
  | none => .error .selectionInvalid

def validateSelectionBinding (value : SelectionBinding) : Except ErrorClass Unit := do
  Except.failIf (value.version ≠ selectionVersion || !selectionHex value.fromEpoch 16 ||
    !selectionHex value.toEpoch 16 || !selectionHex value.senderCapability 32 ||
    !selectionHex value.receiverCapability 32 || !value.previousClosed) .selectionInvalid
  let ordinal ← selectionOrdinal value.ordinal
  Except.failIf ((ordinal == 0 && value.previous != "") ||
    (0 < ordinal && !selectionHex value.previous 32)) .selectionInvalid

/-! ## Capabilities -/

/-- `normalizeCapabilityValues`: no empty value, no value twice, sorted. -/
def normalizeCapabilityValues (values : List String) : List String :=
  (values.foldl (fun normalized value =>
    if value = "" ∨ value ∈ normalized then normalized
      else normalized ++ [value]) []).insertionSort (· ≤ ·)

def solverNormalizeCapability (c : Capability) : Capability :=
  ⟨normalizeCapabilityValues c.strategies, normalizeCapabilityValues c.features⟩

/-- `normalizeCapability`: `capabilityToWire` and `capabilityFromWire` each normalise. -/
def normalizeCapability (c : Capability) : Capability :=
  solverNormalizeCapability (solverNormalizeCapability c)

/-! ## Digests and the joint selection -/

structure SelectionJoint where
  version : String
  sessionID : String
  initiatorNode : String
  responderNode : String
  initiatorCapability : Capability
  responderCapability : Capability
  initiator : SelectionProposal
  responder : SelectionProposal
  order : List String
  deriving DecidableEq, Repr

/-- The values that `selectionHash` is applied to. -/
inductive Hashed
  | capability (c : Capability)
  | joint (j : SelectionJoint)

/-- SHA-256 of the JSON encoding of a value. -/
structure Hasher where
  sum : Hashed → Bytes
  length_sum : ∀ v, (sum v).length = 32

def selectionHash (H : Hasher) (value : Hashed) : String := String.ofList (hexEncode (H.sum value))

def selectionCapabilityDigest (H : Hasher) (value : Capability) : String :=
  selectionHash H (.capability (normalizeCapability value))

/-- The fields of `Config` that selection reads; `localCapability` is the resolver's answer. -/
structure Config where
  sessionID : String
  localNodeID : String
  peerID : String
  initiator : Bool
  runTimeout : Duration
  localCapability : Capability
  deriving DecidableEq, Repr

def jointSelection (cfg : Config) (localCap remoteCap : Capability)
    (localProposal remoteProposal : SelectionProposal) :
    Except ErrorClass SelectionJoint :=
  let base : SelectionJoint :=
    if cfg.initiator then
      { version := selectionVersion, sessionID := cfg.sessionID
        initiatorNode := cfg.localNodeID, responderNode := cfg.peerID
        initiatorCapability := normalizeCapability localCap, responderCapability :=
          normalizeCapability remoteCap
        initiator := localProposal, responder := remoteProposal, order := [] }
    else
      { version := selectionVersion, sessionID := cfg.sessionID
        initiatorNode := cfg.peerID, responderNode := cfg.localNodeID
        initiatorCapability := normalizeCapability remoteCap, responderCapability :=
          normalizeCapability localCap
        initiator := remoteProposal, responder := localProposal, order := [] }
  let joint := { base with
    order := base.initiator.strategies.filter fun value => value ∈ base.responder.strategies }
  if joint.order.isEmpty then .error .selectionConflict else .ok joint

end Winkyou.Selection
