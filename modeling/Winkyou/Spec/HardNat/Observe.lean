import Winkyou.Spec.HardNat.Behavior

/-!
# Discovery through a NAT (`hardnatobserve/observe.go`, `c1crouter/observer_linux.go`)

`collectTranscript` is the part of `Collect` that makes the five RFC 5780 exchanges: all of them
from socket zero, one after another, with no retransmission. The observer answers as
`observerSet.serve` does. Between the two stands a NAT with one internal socket (`NatBox`), which is
the environment and not code of the repository.
-/

namespace Winkyou.HardNat

open Except (failIf)

inductive ObserveErr
  | invalidConfig
  | observationFailed
  | requiredReplyAbsent
  deriving DecidableEq, Repr

/-! ## The observer -/

/-- `Topology`: two addresses with two ports each. -/
structure Topology where
  primary : AddressPort
  other : AddressPort
  deriving DecidableEq

/-- The index of an endpoint, by its bits: the other address, the other port. -/
structure EndpointIndex where
  ip : Bool := false
  port : Bool := false
  deriving DecidableEq

/-- `Topology.Endpoints`: the fourth endpoint is derived, so the four are the cross product. -/
def Topology.endpoint (topology : Topology) (index : EndpointIndex) : AddressPort :=
  ⟨if index.ip then topology.other.address else topology.primary.address,
    if index.port then topology.other.port else topology.primary.port⟩

def Topology.valid (topology : Topology) : Bool :=
  topology.primary.valid && topology.other.valid && topology.primary.address != topology.other.address &&
    topology.primary.port != topology.other.port

/-- The endpoint that a request with change flags is answered from. -/
def EndpointIndex.reply (index : EndpointIndex) (change : ChangeRequest) : EndpointIndex :=
  ⟨index.ip ^^ change.changeIP, index.port ^^ change.changePort⟩

def EndpointIndex.opposite (index : EndpointIndex) : EndpointIndex := ⟨!index.ip, !index.port⟩

/-- The attributes of the answer from an endpoint to a source. -/
def Topology.attributes (topology : Topology) (reply : EndpointIndex) (source : AddressPort) :
    BehaviorAttributes where
  mapped := source
  responseOrigin := topology.endpoint reply
  otherAddress := topology.endpoint reply.opposite
  hasMapped := true
  hasResponseOrigin := true
  hasOtherAddress := true

/-- `observerSet.serve` for one packet. -/
def serve (topology : Topology) (index : EndpointIndex) (source : AddressPort) (packet : Bytes) :
    Except Err (EndpointIndex × Bytes) := do
  let (transaction, change) ← parseBehaviorBindingRequest packet
  let reply := index.reply change
  let payload ← buildBehaviorBindingSuccess (toArray 12 transaction) (topology.attributes reply source)
  return (reply, payload)

/-! ## The NAT -/

/-- Endpoint independent, address dependent, address and port dependent. -/
inductive Dependence
  | independent
  | address
  | addressPort
  deriving DecidableEq, Repr

/-- What a mapping of the socket is kept for. -/
inductive MappingKey
  | all
  | address (address : Address)
  | endpoint (endpoint : AddressPort)
  deriving DecidableEq

/-- A NAT: its mapping and filtering class, its public address, and the external port of each
mapping. -/
structure NatBox where
  mapping : Dependence
  filtering : Dependence
  publicAddress : Address
  port : MappingKey → UInt16
  publicAddress_valid : publicAddress.valid = true
  port_ne_zero : ∀ key, port key ≠ 0

namespace NatBox

def key (nat : NatBox) (destination : AddressPort) : MappingKey :=
  match nat.mapping with
  | .independent => .all
  | .address => .address destination.address
  | .addressPort => .endpoint destination

/-- Where a packet to a destination appears to come from. -/
def external (nat : NatBox) (destination : AddressPort) : AddressPort :=
  ⟨nat.publicAddress, nat.port (nat.key destination)⟩

/-- Different mappings towards the observer have different external ports. -/
def separates (nat : NatBox) (topology : Topology) : Prop :=
  ∀ i j, nat.port (nat.key (topology.endpoint i)) = nat.port (nat.key (topology.endpoint j)) →
    nat.key (topology.endpoint i) = nat.key (topology.endpoint j)

/-- The destinations that each mapping was used to send to. -/
abbrev Contacts := List (MappingKey × AddressPort)

def send (nat : NatBox) (contacts : Contacts) (destination : AddressPort) : Contacts :=
  contacts ++ [(nat.key destination, destination)]

/-- Whether a packet from a source to the mapping of a destination is let in. -/
def admits (nat : NatBox) (contacts : Contacts) (destination source : AddressPort) : Bool :=
  contacts.any fun contact => contact.1 == nat.key destination &&
    match nat.filtering with
    | .independent => true
    | .address => contact.2.address == source.address
    | .addressPort => contact.2 == source

/-- The observer's answer to a request, if the NAT lets it in. -/
def answer (nat : NatBox) (topology : Topology) (contacts : Contacts) (target : EndpointIndex)
    (request : Bytes) :
    Option (AddressPort × Bytes) :=
  match serve topology target (nat.external (topology.endpoint target)) request with
  | .error _ => none
  | .ok (reply, packet) =>
    if nat.admits contacts (topology.endpoint target) (topology.endpoint reply) then
      some (topology.endpoint reply, packet)
    else none

end NatBox

/-! ## Collection -/

/-- A row of the table in `issueTransactions`. -/
structure PlannedStep where
  step : StepName
  target : EndpointIndex
  change : ChangeRequest := {}
  replyNeeded : Bool
  deriving DecidableEq

namespace PlannedStep

def primary : PlannedStep := { step := .primary, target := {}, replyNeeded := true }

def sameAddressOtherPort : PlannedStep :=
  { step := .sameAddressOtherPort, target := { port := true }, replyNeeded := true }

def otherAddress : PlannedStep :=
  { step := .otherAddress, target := { ip := true }, replyNeeded := true }

def changeIPPort : PlannedStep :=
  { step := .changeIPPort, target := {}, change := ⟨true, true⟩, replyNeeded := false }

def changePort : PlannedStep :=
  { step := .changePort, target := {}, change := ⟨false, true⟩, replyNeeded := false }

end PlannedStep

def plannedSteps : Vector PlannedStep rfc5780ExchangeCount :=
  #v[.primary, .sameAddressOtherPort, .otherAddress, .changeIPPort, .changePort]

/-- What `logicalClock.stamp` returns: `positiveMilli` keeps it positive. -/
abbrev Stamp := { milli : Int64 // 0 < milli }

/-- `exchange`; `stamp` is the reading of the clock after the reply or the deadline. -/
def exchange (nat : NatBox) (topology : Topology) (contacts : NatBox.Contacts)
    (planned : PlannedStep) (id : TransactionID) (stamp : Stamp) :
    Except ObserveErr (RFC5780Exchange × NatBox.Contacts) := do
  let request ← (buildBehaviorBindingRequest id planned.change).mapError fun _ => .observationFailed
  let contacts := nat.send contacts (topology.endpoint planned.target)
  let result : RFC5780Exchange :=
    { step := .known planned.step, transactionID := id,
      requestDestination := topology.endpoint planned.target
      responseSource := .zero, observedAtMilli := stamp, received := false, request :=
        request, response := [] }
  match nat.answer topology contacts planned.target request with
  | none => if planned.replyNeeded then .error .requiredReplyAbsent else .ok (result, contacts)
  | some (source, packet) => do
    let attributes ← (parseBehaviorBindingSuccess packet id).mapError fun _ => .observationFailed
    failIf (attributes.hasResponseOrigin = false ∨ source ≠ attributes.responseOrigin ∨
      packet.length = 0 ∨ attributes.hasMapped = false) .observationFailed
    return ({ result with received := true, responseSource := source, response := packet }, contacts)

/-- The five exchanges of `Collect`, from socket zero, with the transactions of
`issueTransactions`. -/
def collectTranscript (nat : NatBox) (topology : Topology)
    (ids : Vector TransactionID rfc5780ExchangeCount) (stamps : Vector Stamp rfc5780ExchangeCount) :
    Except ObserveErr RFC5780Transcript := do
  failIf (topology.valid = false) .invalidConfig
  failIf (ids.toList.any allZero = true ∨ ¬ ids.toList.Nodup) .invalidConfig
  let step contacts (i : Fin rfc5780ExchangeCount) :=
    exchange nat topology contacts (plannedSteps.get i) (ids.get i) (stamps.get i)
  let (e₀, contacts) ← step [] ⟨0, by decide⟩
  let (e₁, contacts) ← step contacts ⟨1, by decide⟩
  let (e₂, contacts) ← step contacts ⟨2, two_lt_rfc5780ExchangeCount⟩
  let (e₃, contacts) ← step contacts ⟨3, by decide⟩
  let (e₄, _) ← step contacts ⟨4, four_lt_rfc5780ExchangeCount⟩
  return ⟨.known .localTransaction, 0, #v[e₀, e₁, e₂, e₃, e₄]⟩

end Winkyou.HardNat
