import Winkyou.Spec.HardNat.Types

/-!
# RFC 5780 behaviour discovery (`hardnatplan/rfc5780.go`, `rfc5780_evidence.go`)

The byte codec of the binding request and of its success response, the five-step discovery
machine, and the derivation of a mapping and a filtering class from a stored transcript.
-/

namespace Winkyou.HardNat

open Except (failIf)

/-! ## The codec -/

def stunBindingRequest : UInt16 := 0x0001
def stunBindingSuccess : UInt16 := 0x0101
def stunMagicCookie : ℕ := 0x2112a442
def stunHeaderBytes : ℕ := 20
def maxBehaviorMessageBytes : ℕ := 1024

/-- `CHANGE-REQUEST`; the attributes below are those of the replies. -/
def attributeChangeRequest : UInt16 := 0x0003
def attributeMappedAddress : UInt16 := 0x0001
def attributeXORMappedAddress : UInt16 := 0x0020
def attributeResponseOrigin : UInt16 := 0x802b
def attributeOtherAddress : UInt16 := 0x802c

structure ChangeRequest where
  changeIP : Bool := false
  changePort : Bool := false
  deriving DecidableEq

structure BehaviorAttributes where
  mapped : AddressPort := .zero
  responseOrigin : AddressPort := .zero
  otherAddress : AddressPort := .zero
  hasMapped : Bool := false
  hasResponseOrigin : Bool := false
  hasOtherAddress : Bool := false
  deriving DecidableEq

/-- The header of a message with `body` after it. -/
def stunMessage (messageType : UInt16) (transaction : TransactionID) (body : Bytes) : Bytes :=
  appendUint16 messageType ++ appendUint16 (UInt16.ofNat body.length) ++
    putUint32 stunMagicCookie ++ transaction.toList ++ body

def buildBehaviorBindingRequest (transaction : TransactionID) (change : ChangeRequest) :
    Except Err Bytes := do
  failIf (allZero transaction = true) .rfc5780Message
  let flags := (if change.changeIP then 4 else 0) + (if change.changePort then 2 else 0)
  let body :=
    if change.changeIP || change.changePort then
      appendUint16 attributeChangeRequest ++ appendUint16 4 ++ putUint32 flags
    else []
  return stunMessage stunBindingRequest transaction body

def uint16 (high low : UInt8) : UInt16 := UInt16.ofNat (high.toNat * 256 + low.toNat)

def validateSTUNHeader (packet : Bytes) (expectedType : UInt16) : Except Err Unit :=
  match packet with
  | t0 :: t1 :: l0 :: l1 :: c0 :: c1 :: c2 :: c3 :: _ => do
    failIf (packet.length < stunHeaderBytes ∨ packet.length > maxBehaviorMessageBytes ∨
      uint16 t0 t1 ≠ expectedType ∨ uint32 c0 c1 c2 c3 ≠ stunMagicCookie) .rfc5780Message
    failIf ((uint16 l0 l1).toNat % 4 ≠ 0 ∨ (uint16 l0 l1).toNat ≠ packet.length - stunHeaderBytes)
      .rfc5780Message
  | _ => .error .rfc5780Message

/-- The loop of `walkAttributes`; `fuel` bounds the number of attributes. -/
def walkFrom {σ : Type} (visit : σ → UInt16 → Bytes → Except Err σ) : ℕ → Bytes → σ → Except Err σ
  | 0, _, state => .ok state
  | _ + 1, [], state => .ok state
  | fuel + 1, t0 :: t1 :: l0 :: l1 :: rest, state => do
    let length := (uint16 l0 l1).toNat
    let padded := (length + 3) / 4 * 4
    failIf (rest.length < padded) .rfc5780Message
    failIf (((rest.take padded).drop length).any (· != 0) = true) .rfc5780Message
    let state ← visit state (uint16 t0 t1) (rest.take length)
    walkFrom visit fuel (rest.drop padded) state
  | _ + 1, _, _ => .error .rfc5780Message

def walkAttributes {σ : Type} (packet : Bytes) (visit : σ → UInt16 → Bytes → Except Err σ)
    (state : σ) :
    Except Err σ :=
  walkFrom visit packet.length (packet.drop stunHeaderBytes) state

/-- `packet[8:20]`. -/
def stunTransaction (packet : Bytes) : Bytes := (packet.take stunHeaderBytes).drop 8

def visitRequest (state : ChangeRequest × Bool) (attributeType : UInt16) (value : Bytes) :
    Except Err (ChangeRequest × Bool) :=
  if attributeType = attributeChangeRequest then
    match state.2, value with
    | false, [a, b, c, d] =>
      let flags := uint32 a b c d
      if flags = 0 ∨ flags = 2 ∨ flags = 4 ∨ flags = 6 then
        .ok (⟨decide (flags = 4 ∨ flags = 6), decide (flags = 2 ∨ flags = 6)⟩, true)
      else .error .rfc5780Message
    | _, _ => .error .rfc5780Message
  else if attributeType < 0x8000 then .error .unsupportedEvidence
  else .ok state

/-- The transaction is the twelve bytes `stunTransaction packet`. -/
def parseBehaviorBindingRequest (packet : Bytes) : Except Err (Bytes × ChangeRequest) := do
  validateSTUNHeader packet stunBindingRequest
  let (change, _) ← walkAttributes packet visitRequest ({}, false)
  return (stunTransaction packet, change)

/-- The bytes that an address is XORed with. -/
def stunMask (transaction : TransactionID) : Bytes :=
  putUint32 stunMagicCookie ++ transaction.toList

def xorBytes (a b : Bytes) : Bytes := List.zipWith (· ^^^ ·) a b

def stunPortMask : UInt16 := 0x2112

def encodeSTUNAddress (attributeType : UInt16) (endpoint : AddressPort)
    (transaction : TransactionID) (xor : Bool) :
    Except Err Bytes := do
  failIf (endpoint.valid = false) .rfc5780Message
  let ipv4 := endpoint.address.family = addressFamilyIPv4
  let port := if xor then endpoint.port ^^^ stunPortMask else endpoint.port
  let raw := endpoint.address.bytes.toList.take (if ipv4 then 4 else 16)
  let address := if xor then xorBytes raw (stunMask transaction) else raw
  return appendUint16 attributeType ++ appendUint16 (if ipv4 then 8 else 20) ++
    [0, if endpoint.address.family = addressFamilyIPv6 then 2 else 1] ++ appendUint16 port ++ address

/-- `copy` into an array. -/
def toArray (n : ℕ) (value : Bytes) : Vector UInt8 n :=
  ⟨(value.take n ++ List.replicate (n - (value.take n).length) 0).toArray, by simp⟩

def decodeSTUNAddress (value : Bytes) (transaction : TransactionID) (xor : Bool) :
    Except Err AddressPort :=
  match value with
  | zero :: family :: p0 :: p1 :: raw => do
    failIf (value.length < 8 ∨ zero ≠ 0) .rfc5780Message
    let port := if xor then uint16 p0 p1 ^^^ stunPortMask else uint16 p0 p1
    failIf (port = 0) .rfc5780Message
    let bytes := if xor then xorBytes raw (stunMask transaction) else raw
    let address ←
      if family = 1 then
        if value.length = 8 then .ok (Address.ofIPv4 (toArray 4 bytes)) else .error .rfc5780Message
      else if family = 2 then
        if value.length = 20 then .ok (Address.ofIPv6 (toArray 16 bytes)) else .error .rfc5780Message
      else .error .rfc5780Message
    let endpoint : AddressPort := ⟨address, port⟩
    failIf (endpoint.valid = false) .rfc5780Message
    return endpoint
  | _ => .error .rfc5780Message

/-- What the walk over a success response has found. -/
structure SuccessState where
  mappedAddress : Option AddressPort := none
  xorMappedAddress : Option AddressPort := none
  responseOrigin : Option AddressPort := none
  otherAddress : Option AddressPort := none

def visitSuccess (expected : TransactionID) (state : SuccessState) (attributeType : UInt16)
    (value : Bytes) :
    Except Err SuccessState :=
  if attributeType = attributeMappedAddress then do
    failIf (state.mappedAddress.isSome = true) .rfc5780Message
    let endpoint ← decodeSTUNAddress value expected false
    return { state with mappedAddress := some endpoint }
  else if attributeType = attributeXORMappedAddress then do
    failIf (state.xorMappedAddress.isSome = true) .rfc5780Message
    let endpoint ← decodeSTUNAddress value expected true
    return { state with xorMappedAddress := some endpoint }
  else if attributeType = attributeResponseOrigin then do
    failIf (state.responseOrigin.isSome = true) .rfc5780Message
    let endpoint ← decodeSTUNAddress value expected false
    return { state with responseOrigin := some endpoint }
  else if attributeType = attributeOtherAddress then do
    failIf (state.otherAddress.isSome = true) .rfc5780Message
    let endpoint ← decodeSTUNAddress value expected false
    return { state with otherAddress := some endpoint }
  else if attributeType < 0x8000 then .error .unsupportedEvidence
  else .ok state

def parseBehaviorBindingSuccess (packet : Bytes) (expected : TransactionID) :
    Except Err BehaviorAttributes := do
  validateSTUNHeader packet stunBindingSuccess
  failIf (stunTransaction packet ≠ expected.toList) .rfc5780Message
  let found ← walkAttributes packet (visitSuccess expected) {}
  match found.mappedAddress, found.xorMappedAddress with
  | some mapped, some xorMapped => do
    failIf (mapped ≠ xorMapped) .rfc5780Message
    return { mapped := mapped
             hasMapped := true
             responseOrigin := found.responseOrigin.getD .zero
             hasResponseOrigin := found.responseOrigin.isSome
             otherAddress := found.otherAddress.getD .zero
             hasOtherAddress := found.otherAddress.isSome }
  | _, _ => .error .unsupportedEvidence

/-- The attribute of an endpoint that may be absent. -/
def encodeSTUNAddressIf (present : Bool) (attributeType : UInt16) (endpoint : AddressPort)
    (transaction : TransactionID) :
    Except Err Bytes :=
  if present then encodeSTUNAddress attributeType endpoint transaction false else .ok []

def buildBehaviorBindingSuccess (transaction : TransactionID) (attributes : BehaviorAttributes) :
    Except Err Bytes := do
  failIf (allZero transaction = true ∨ attributes.hasMapped = false ∨
    attributes.mapped.valid = false) .rfc5780Message
  let mapped ← encodeSTUNAddress attributeMappedAddress attributes.mapped transaction false
  let xorMapped ← encodeSTUNAddress attributeXORMappedAddress attributes.mapped transaction true
  let origin ← encodeSTUNAddressIf attributes.hasResponseOrigin attributeResponseOrigin
    attributes.responseOrigin transaction
  let other ← encodeSTUNAddressIf attributes.hasOtherAddress attributeOtherAddress
    attributes.otherAddress transaction
  return stunMessage stunBindingSuccess transaction (mapped ++ xorMapped ++ origin ++ other)

/-! ## The discovery machine -/

inductive DiscoveryState
  | awaitPrimary
  | awaitSameAddressOtherPort
  | awaitOtherAddress
  | awaitChangeIPPort
  | awaitChangePort
  | complete
  deriving DecidableEq, Repr

/-- The step that a state expects; a complete machine expects none. -/
def DiscoveryState.expected : DiscoveryState → Option DiscoveryStep
  | .awaitPrimary => some (.known .primary)
  | .awaitSameAddressOtherPort => some (.known .sameAddressOtherPort)
  | .awaitOtherAddress => some (.known .otherAddress)
  | .awaitChangeIPPort => some (.known .changeIPPort)
  | .awaitChangePort => some (.known .changePort)
  | .complete => none

structure DiscoveryObservation where
  transactionID : TransactionID
  requestDestination : AddressPort
  responseSource : AddressPort
  received : Bool
  attributes : BehaviorAttributes
  deriving DecidableEq

/-- `transactions` has the transactions of the steps made so far, the newest first. -/
structure RFC5780Machine where
  state : DiscoveryState := .awaitPrimary
  primary : BehaviorAttributes := {}
  sameAddress : BehaviorAttributes := {}
  otherAddress : BehaviorAttributes := {}
  changeIPPort : Bool := false
  changePort : Bool := false
  transactions : List TransactionID := []
  deriving DecidableEq

def newRFC5780Machine : RFC5780Machine := {}

/-- The reply of one of the three mapping steps comes from the endpoint `address:port`, which was
asked. -/
def answersAt (observation : DiscoveryObservation) (address : Address) (port : UInt16) : Prop :=
  observation.received = true ∧ observation.attributes.hasMapped = true ∧
    observation.attributes.hasResponseOrigin = true ∧ observation.attributes.mapped.valid = true ∧
    observation.requestDestination.address = address ∧ observation.requestDestination.port = port ∧
    observation.attributes.responseOrigin.address = address ∧
      observation.attributes.responseOrigin.port = port

instance (observation : DiscoveryObservation) (address : Address) (port : UInt16) :
    Decidable (answersAt observation address port) :=
  inferInstanceAs (Decidable (_ ∧ _ ∧ _ ∧ _ ∧ _ ∧ _ ∧ _ ∧ _))

/-- The check of a reply against the endpoint it came from; an absent reply has neither. -/
def checkReply (observation : DiscoveryObservation) : Except Err Unit :=
  if observation.received then
    failIf (observation.responseSource.valid = false ∨ observation.attributes.hasResponseOrigin =
      false ∨
      observation.responseSource ≠ observation.attributes.responseOrigin) .unsupportedEvidence
  else
    failIf (observation.responseSource ≠ .zero ∨ observation.attributes ≠ {}) .unsupportedEvidence

/-- The switch of `Advance` over the state. -/
def RFC5780Machine.advanceState (machine : RFC5780Machine) (observation : DiscoveryObservation) :
    Except Err RFC5780Machine :=
  let attributes := observation.attributes
  match machine.state with
  | .awaitPrimary => do
    failIf (observation.received = false ∨ attributes.hasMapped = false ∨
      attributes.hasResponseOrigin = false ∨
      attributes.hasOtherAddress = false ∨ attributes.mapped.valid = false ∨
      attributes.responseOrigin.valid = false ∨ attributes.otherAddress.valid = false ∨
      observation.requestDestination ≠ attributes.responseOrigin ∨
      attributes.responseOrigin.address = attributes.otherAddress.address ∨
      attributes.responseOrigin.port = attributes.otherAddress.port) .unsupportedEvidence
    return { machine with primary := attributes, state := .awaitSameAddressOtherPort }
  | .awaitSameAddressOtherPort => do
    failIf (¬ answersAt observation machine.primary.responseOrigin.address
      machine.primary.otherAddress.port)
      .unsupportedEvidence
    return { machine with sameAddress := attributes, state := .awaitOtherAddress }
  | .awaitOtherAddress => do
    failIf (¬ answersAt observation machine.primary.otherAddress.address
      machine.primary.responseOrigin.port)
      .unsupportedEvidence
    return { machine with otherAddress := attributes, state := .awaitChangeIPPort }
  | .awaitChangeIPPort => do
    failIf (observation.requestDestination ≠ machine.primary.responseOrigin) .unsupportedEvidence
    failIf (observation.received = true ∧
      (attributes.hasResponseOrigin = false ∨ attributes.responseOrigin ≠ machine.primary.otherAddress))
      .unsupportedEvidence
    return { machine with changeIPPort := machine.changeIPPort || observation.received, state := .awaitChangePort }
  | .awaitChangePort => do
    failIf (observation.requestDestination ≠ machine.primary.responseOrigin) .unsupportedEvidence
    failIf (observation.received = true ∧ (attributes.hasResponseOrigin = false ∨
      attributes.responseOrigin.address ≠ machine.primary.responseOrigin.address ∨
      attributes.responseOrigin.port ≠ machine.primary.otherAddress.port)) .unsupportedEvidence
    return { machine with changePort := machine.changePort || observation.received, state := .complete }
  | .complete => .error .rfc5780Order

/-- `RFC5780Machine.Advance`. A step out of order leaves the machine as it is, as every failure
does. -/
def RFC5780Machine.advance (machine : RFC5780Machine) (step : DiscoveryStep)
    (observation : DiscoveryObservation) :
    Except Err RFC5780Machine := do
  -- the lookup of a complete machine in the table of steps gives the empty text
  failIf (step.text ≠ (machine.state.expected.map Named.text).getD []) .rfc5780Order
  failIf (allZero observation.transactionID = true ∨ observation.requestDestination.valid =
    false) .unsupportedEvidence
  failIf (observation.transactionID ∈ machine.transactions) .unsupportedEvidence
  checkReply observation
  let next ← machine.advanceState observation
  return { next with transactions := observation.transactionID :: machine.transactions }

def RFC5780Machine.result (machine : RFC5780Machine) :
    Except Err (MappingBehavior × FilteringBehavior) := do
  failIf (machine.state ≠ .complete) .rfc5780Order
  let mapping : MappingBehavior :=
    if machine.primary.mapped = machine.sameAddress.mapped ∧
      machine.primary.mapped = machine.otherAddress.mapped then
      .known .eim
    else if machine.primary.mapped = machine.sameAddress.mapped ∧
        machine.primary.mapped ≠ machine.otherAddress.mapped then
      .known .adm
    else .known .apdm
  let filtering : FilteringBehavior :=
    if machine.changeIPPort then .known .eif else if machine.changePort then .known .adf
      else .known .apdf
  return (mapping, filtering)

/-! ## Transcripts -/

def orderedRFC5780Steps : List StepName :=
  [.primary, .sameAddressOtherPort, .otherAddress, .changeIPPort, .changePort]

def expectedRFC5780Change : StepName → ChangeRequest
  | .changeIPPort => ⟨true, true⟩
  | .changePort => ⟨false, true⟩
  | _ => {}

/-- The mapped endpoint of the first exchange is reusable when the mapping is endpoint
independent. -/
structure DerivedTranscript where
  mapping : MappingBehavior
  filtering : FilteringBehavior
  endpoint : AddressPort
  deriving DecidableEq

/-- The attributes of the reply of an exchange; an absent reply has none. -/
def exchangeAttributes (exchange : RFC5780Exchange) : Except Err BehaviorAttributes :=
  if exchange.received then do
    failIf (exchange.response.length = 0 ∨ exchange.responseSource.valid = false) .invalidEvidence
    parseBehaviorBindingSuccess exchange.response exchange.transactionID
  else do
    failIf (exchange.response.length ≠ 0 ∨ exchange.responseSource ≠ .zero) .invalidEvidence
    return {}

/-- The observation that one exchange of a transcript is read as. -/
def observeExchange (step : StepName) (exchange : RFC5780Exchange) :
    Except Err DiscoveryObservation := do
  failIf (exchange.step ≠ .known step ∨ exchange.observedAtMilli ≤ 0 ∨
    exchange.requestDestination.valid = false) .invalidEvidence
  let (transaction, change) ← (parseBehaviorBindingRequest exchange.request).mapError fun _ =>
    .invalidEvidence
  failIf (transaction ≠ exchange.transactionID.toList ∨
    change ≠ expectedRFC5780Change step) .invalidEvidence
  let attributes ← exchangeAttributes exchange
  return ⟨exchange.transactionID, exchange.requestDestination, exchange.responseSource,
    exchange.received, attributes⟩

/-- The observation and the machine after one exchange. -/
def deriveExchange (machine : RFC5780Machine) (item : StepName × RFC5780Exchange) :
    Except Err RFC5780Machine := do
  let observation ← observeExchange item.1 item.2
  machine.advance (.known item.1) observation

def deriveRFC5780Transcript (transcript : RFC5780Transcript) : Except Err DerivedTranscript := do
  let machine ← (orderedRFC5780Steps.zip transcript.exchanges.toList).foldlM deriveExchange
    newRFC5780Machine
  let (mapping, filtering) ← machine.result
  -- the machine keeps the attributes of the first observation
  return ⟨mapping, filtering, if mapping = .known .eim then machine.primary.mapped else .zero⟩

def reusableStep (found : AddressPort × UInt16) (transcript : RFC5780Transcript) :
    Except Err (AddressPort × UInt16) := do
  let derived ← deriveRFC5780Transcript transcript
  if derived.mapping ≠ .known .eim then return found
  failIf (derived.endpoint.valid = false) .invalidEvidence
  failIf (found.1.valid = true ∧ (found.1 ≠ derived.endpoint ∨ found.2 ≠ transcript.socketSlot))
    .evidenceInsufficient
  return (derived.endpoint, transcript.socketSlot)

def reusableRFC5780Endpoint (transcripts : List RFC5780Transcript) :
    Except Err (AddressPort × UInt16) :=
  transcripts.foldlM reusableStep (.zero, 0)

end Winkyou.HardNat
