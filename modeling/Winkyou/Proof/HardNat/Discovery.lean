import Winkyou.Proof.HardNat.Stun
import Winkyou.Spec.HardNat.Observe

/-!
# What discovery finds out about a NAT

The filtering steps ask from the socket that the mapping steps have used. So the observer's other
endpoints are already known to the mapping, if the mapping steps went through the same one.

* `exchange_observed`: one exchange through a NAT and how it is read.
* `discovery_identifies_iff`: the five exchanges succeed and give the real mapping class; they give
  the real filtering class exactly if no mapping step has opened the filter for a later answer.
* `discovery_mistakes_filter`: an address and port dependent filter behind an endpoint independent
  mapping is taken for an address dependent one.
-/

namespace Winkyou.HardNat

open Except (failIf bind_ok_iff failIf_ok_iff mapError_ok_iff)
open RFC5780Machine (advance advanceState result)
open PlannedStep (changePort changeIPPort)
open EndpointIndex (opposite reply)
open NatBox Winkyou.HardNat.Topology

/-! ## One exchange -/

section Exchange

variable {nat : NatBox} {topology : Topology} {contacts : NatBox.Contacts} {planned : PlannedStep}
  {id : TransactionID} {stamp : Stamp}

theorem Topology.valid_iff :
    topology.valid = true ↔ topology.primary.valid = true ∧ topology.other.valid = true ∧
    topology.primary.address ≠ topology.other.address ∧
      topology.primary.port ≠ topology.other.port := by
  simp [valid, and_assoc]

theorem Topology.endpoint_valid (h : topology.valid = true) (index : EndpointIndex) :
    (topology.endpoint index).valid = true := by
  obtain ⟨hpri, hot, -, -⟩ := valid_iff.1 h
  obtain ⟨ip, port⟩ := index
  simp only [AddressPort.valid, Bool.and_eq_true] at hpri hot ⊢
  cases ip <;> cases port
  · exact hpri
  · exact ⟨hpri.1, hot.2⟩
  · exact ⟨hot.1, hpri.2⟩
  · exact hot

theorem NatBox.external_valid (nat : NatBox) (destination : AddressPort) :
    (nat.external destination).valid = true := by
  simp [AddressPort.valid, external, nat.publicAddress_valid, nat.port_ne_zero]

theorem buildBehaviorBindingRequest_ok (hid : allZero id = false) (change : ChangeRequest) :
    ∃ request, buildBehaviorBindingRequest id change = .ok request := by
  refine ⟨_, bind_ok_iff.2 ⟨(), failIf_ok_iff.2 (by simp [hid]), rfl⟩⟩

theorem buildBehaviorBindingSuccess_succeeds (hid : allZero id = false)
    {attributes : BehaviorAttributes} (hmap : attributes.hasMapped = true)
    (hva : attributes.mapped.valid = true)
    (hori : attributes.hasResponseOrigin = true → attributes.responseOrigin.valid = true)
    (hot : attributes.hasOtherAddress = true → attributes.otherAddress.valid = true) :
    ∃ packet, buildBehaviorBindingSuccess id attributes = .ok packet := by
  have hif : ∀ {present attributeType endpoint}, (present = true → endpoint.valid = true) →
      ∃ bytes, encodeSTUNAddressIf present attributeType endpoint id = .ok bytes := by
    intro present attributeType endpoint h
    cases present with
    | false => exact ⟨[], rfl⟩
    | true => exact ⟨_, encodeSTUNAddress_eq (h rfl)⟩
  obtain ⟨origin, ho⟩ := hif hori
  obtain ⟨other, hoth⟩ := hif hot
  simp only [buildBehaviorBindingSuccess, bind_ok_iff, failIf_ok_iff]
  exact ⟨_, (), by simp [hid, hmap, hva], _, encodeSTUNAddress_eq hva, _, encodeSTUNAddress_eq hva,
    origin, ho, other, hoth, rfl⟩

theorem serve_build (htop : topology.valid = true) (hid : allZero id = false) {request : Bytes}
    {change : ChangeRequest} (hreq : buildBehaviorBindingRequest id change = .ok request)
    (index : EndpointIndex) {source : AddressPort} (hsou : source.valid = true) :
    ∃ packet, serve topology index source request = .ok (index.reply change, packet) ∧
      buildBehaviorBindingSuccess id (topology.attributes (index.reply change) source) =
        .ok packet := by
  have hba : toArray 12 id.toList = id := Vector.toList_inj.1 (toArray_toList (by simp))
  obtain ⟨packet, hpac⟩ := @buildBehaviorBindingSuccess_succeeds id hid
    (topology.attributes (index.reply change) source) rfl hsou (fun _ => topology.endpoint_valid htop _)
    fun _ => topology.endpoint_valid htop _
  refine ⟨packet, ?_, hpac⟩
  simp only [serve, bind_ok_iff]
  exact ⟨_, parseBehaviorBindingRequest_build hreq, packet, by rw [hba]; exact hpac, rfl⟩

/-- Whether the answer of a step comes through. -/
def NatBox.answered (nat : NatBox) (topology : Topology) (contacts : NatBox.Contacts)
    (planned : PlannedStep) : Bool :=
  nat.admits (nat.send contacts (topology.endpoint planned.target)) (topology.endpoint planned.target)
    (topology.endpoint (planned.target.reply planned.change))

/-- What a step observes. -/
def NatBox.observation (nat : NatBox) (topology : Topology) (contacts : NatBox.Contacts)
    (planned : PlannedStep) (id : TransactionID) : DiscoveryObservation :=
  if nat.answered topology contacts planned then
    ⟨id, topology.endpoint planned.target, topology.endpoint (planned.target.reply planned.change),
      true,
      topology.attributes (planned.target.reply planned.change)
      (nat.external (topology.endpoint planned.target))⟩
  else ⟨id, topology.endpoint planned.target, .zero, false, {}⟩

/-- **An exchange through a NAT is read as what the NAT let through.** -/
theorem exchange_observed (htop : topology.valid = true) (hid : allZero id = false)
    (hcha : planned.change = expectedRFC5780Change planned.step)
    (hnee : planned.replyNeeded = true → nat.answered topology contacts planned = true) :
    ∃ e, exchange nat topology contacts planned id stamp =
        .ok (e, nat.send contacts (topology.endpoint planned.target)) ∧
      observeExchange planned.step e = .ok (nat.observation topology contacts planned id) := by
  obtain ⟨request, hreq⟩ := buildBehaviorBindingRequest_ok hid planned.change
  obtain ⟨packet, hse, hpac⟩ := serve_build htop hid hreq planned.target
    (nat.external_valid (topology.endpoint planned.target))
  have hpa : parseBehaviorBindingRequest request = .ok (id.toList,
    expectedRFC5780Change planned.step) :=
    hcha ▸ parseBehaviorBindingRequest_build hreq
  have hti : (topology.attributes (planned.target.reply planned.change)
      (nat.external (topology.endpoint planned.target))).Tidy :=
    ⟨by simp [attributes], by simp [attributes]⟩
  have hsuc := parseBehaviorBindingSuccess_build hti hpac
  have hst : ¬ stamp.1 ≤ 0 := Int64.not_le.2 stamp.2
  have hdes := topology.endpoint_valid htop planned.target
  have hnon : packet.length ≠ 0 := by
    rw [(buildBehaviorBindingSuccess_ok hpac).1, stunMessage_length]
    omega
  cases hans : nat.answered topology contacts planned with
  | false =>
    have hansw : nat.answer topology (nat.send contacts (topology.endpoint planned.target))
      planned.target request =
        none := by
      unfold answered at hans
      simp [answer, hse, hans]
    have hopt : planned.replyNeeded = false := by
      cases hn : planned.replyNeeded with
      | false => rfl
      | true => rw [hnee hn] at hans; cases hans
    refine ⟨{ step := .known planned.step, transactionID := id, requestDestination := topology.endpoint planned.target
              responseSource := .zero, observedAtMilli := stamp, received := false, request :=
                request, response := [] },
      ?_, ?_⟩
    · simp only [exchange, bind_ok_iff, mapError_ok_iff]
      exact ⟨request, hreq, by rw [hansw]; simp [hopt]⟩
    · simp only [observeExchange, bind_ok_iff, failIf_ok_iff, mapError_ok_iff]
      refine ⟨(), by simp [hst, hdes], _, hpa, (), by simp, {}, ?_, ?_⟩
      · simp [exchangeAttributes, failIf, bind, Except.bind, pure, Except.pure]
      · simp [observation, hans, pure, Except.pure]
  | true =>
    have hansw : nat.answer topology (nat.send contacts (topology.endpoint planned.target))
      planned.target request =
        some (topology.endpoint (planned.target.reply planned.change), packet) := by
      unfold answered at hans
      simp [answer, hse, hans]
    refine ⟨{ step := .known planned.step, transactionID := id, requestDestination := topology.endpoint planned.target
              responseSource := topology.endpoint (planned.target.reply planned.change),
                observedAtMilli := stamp
              received := true, request := request, response := packet }, ?_, ?_⟩
    · simp only [exchange, bind_ok_iff, mapError_ok_iff]
      refine ⟨request, hreq, ?_⟩
      rw [hansw]
      simp only [bind_ok_iff, mapError_ok_iff, failIf_ok_iff]
      exact ⟨_, hsuc, (), by simp [attributes, hnon], rfl⟩
    · simp only [observeExchange, bind_ok_iff, failIf_ok_iff, mapError_ok_iff]
      refine ⟨(), by simp [hst, hdes], _, hpa, (), by simp,
        topology.attributes (planned.target.reply planned.change)
        (nat.external (topology.endpoint planned.target)), ?_, ?_⟩
      · simp only [exchangeAttributes, if_true, bind_ok_iff, failIf_ok_iff]
        exact ⟨(), by simp [hnon, topology.endpoint_valid htop], hsuc⟩
      · simp [observation, hans, pure, Except.pure]

end Exchange

/-! ## The machine -/

section Machine

variable {nat : NatBox} {topology : Topology} {contacts : NatBox.Contacts} {planned : PlannedStep}
  {id : TransactionID} {machine next : RFC5780Machine}

/-- The answer to a request without change flags comes from where the packet went. -/
theorem NatBox.answered_unchanged (hcha : planned.change = {}) :
    nat.answered topology contacts planned = true := by
  have hre : planned.target.reply planned.change = planned.target := by simp [hcha, reply]
  simp only [answered, hre, admits, send, List.any_append, List.any_cons, beq_self_eq_true,
    Bool.true_and]
  cases nat.filtering <;> simp

theorem checkReply_observation (htop : topology.valid = true) :
    checkReply (nat.observation topology contacts planned id) = .ok () := by
  have hva := topology.endpoint_valid htop (planned.target.reply planned.change)
  cases h : nat.answered topology contacts planned <;>
    simp [checkReply, observation, h, failIf_ok_iff, attributes, hva]

theorem deriveExchange_observation {e : RFC5780Exchange} (htop : topology.valid = true)
    (hobs : observeExchange planned.step e = .ok (nat.observation topology contacts planned id))
    (hid : allZero id = false) (hnew : id ∉ machine.transactions)
    (hst : machine.state.expected = some (.known planned.step))
    (hne : machine.advanceState (nat.observation topology contacts planned id) = .ok next) :
    deriveExchange machine (planned.step, e) =
      .ok { next with transactions := id :: machine.transactions } := by
  have hid' : (nat.observation topology contacts planned id).transactionID = id := by
    unfold observation
    split <;> rfl
  have hdes : (nat.observation topology contacts planned id).requestDestination.valid = true := by
    unfold observation
    split <;> exact topology.endpoint_valid htop _
  refine bind_ok_iff.2 ⟨_, hobs, ?_⟩
  simp only [advance, bind_ok_iff, failIf_ok_iff]
  exact ⟨(), by simp [hst], (), by simp [hid', hid, hdes], (), by rw [hid']; exact hnew, (),
    checkReply_observation htop, next, hne, by simp [hid', pure, Except.pure]⟩

end Machine

/-! ## The run -/

section Run

variable (nat : NatBox) (topology : Topology)

/-- What the NAT has been used for after the three mapping steps. -/
def NatBox.mapped : NatBox.Contacts :=
  nat.send (nat.send (nat.send [] (topology.endpoint {})) (topology.endpoint { port := true }))
    (topology.endpoint { ip := true })

/-- Whether the answer from the other address and port comes through. -/
def NatBox.answersChangeIPPort : Bool := nat.answered topology (nat.mapped topology) .changeIPPort

/-- Whether the answer from the other port comes through. -/
def NatBox.answersChangePort : Bool :=
  nat.answered topology (nat.send (nat.mapped topology) (topology.endpoint {})) .changePort

/-- The machine after the five exchanges. -/
def discovered (transactions : List TransactionID) : RFC5780Machine where
  state := .complete
  primary := topology.attributes {} (nat.external (topology.endpoint {}))
  sameAddress := topology.attributes { port := true }
    (nat.external (topology.endpoint { port := true }))
  otherAddress := topology.attributes { ip := true } (nat.external (topology.endpoint { ip := true }))
  changeIPPort := nat.answersChangeIPPort topology
  changePort := nat.answersChangePort topology
  transactions := transactions

variable {nat topology}

/-- Each row of the table: what is needed is asked without change flags, and the flags are those of
the step. -/
theorem plannedSteps_change {planned : PlannedStep} (h : planned ∈ plannedSteps.toList) :
    (planned.replyNeeded = true → planned.change = {}) ∧
      planned.change = expectedRFC5780Change planned.step := by
  revert planned
  decide

theorem step_observed (nat : NatBox) (htop : topology.valid = true) {id : TransactionID}
    (hid : allZero id = false) (contacts : NatBox.Contacts) (stamp : Stamp) {planned : PlannedStep}
    (h : planned ∈ plannedSteps.toList) :
    ∃ e, exchange nat topology contacts planned id stamp =
      .ok (e, nat.send contacts (topology.endpoint planned.target)) ∧
      observeExchange planned.step e = .ok (nat.observation topology contacts planned id) :=
  exchange_observed htop hid (plannedSteps_change h).2
    fun hn => answered_unchanged ((plannedSteps_change h).1 hn)

section Advance

variable {machine : RFC5780Machine} {contacts : NatBox.Contacts} {id : TransactionID}
  {source : AddressPort}

theorem advanceState_primary (htop : topology.valid = true) (hst : machine.state = .awaitPrimary) :
    machine.advanceState (nat.observation topology contacts .primary id) =
      .ok { machine with primary := topology.attributes {} (nat.external (topology.endpoint {}))
                         state := .awaitSameAddressOtherPort } := by
  obtain ⟨-, -, hadd, hpo⟩ := valid_iff.1 htop
  have hva := topology.endpoint_valid htop
  have hans := @NatBox.answered_unchanged nat topology contacts .primary rfl
  simp only [advanceState, hst, bind_ok_iff, failIf_ok_iff, observation, hans]
  refine ⟨(), ?_, rfl⟩
  simp [PlannedStep.primary, attributes, reply, opposite, nat.external_valid, hva]
  simp [endpoint, hadd, hpo]

variable (hpri : machine.primary = topology.attributes {} source)

include hpri

/-- The second step of the machine. -/
theorem advanceState_sameAddress (hst : machine.state = .awaitSameAddressOtherPort) :
    machine.advanceState (nat.observation topology contacts .sameAddressOtherPort id) =
      .ok { machine with
            sameAddress := topology.attributes { port := true }
              (nat.external (topology.endpoint { port := true }))
            state := .awaitOtherAddress } := by
  have hans := @NatBox.answered_unchanged nat topology contacts .sameAddressOtherPort rfl
  simp only [advanceState, hst, bind_ok_iff, failIf_ok_iff, observation, hans, hpri]
  refine ⟨(), ?_, rfl⟩
  simp [answersAt, PlannedStep.sameAddressOtherPort, attributes, reply, opposite,
    nat.external_valid, endpoint]

theorem advanceState_otherAddress (hst : machine.state = .awaitOtherAddress) :
    machine.advanceState (nat.observation topology contacts .otherAddress id) =
      .ok { machine with
            otherAddress := topology.attributes { ip := true }
              (nat.external (topology.endpoint { ip := true }))
            state := .awaitChangeIPPort } := by
  have hans := @NatBox.answered_unchanged nat topology contacts .otherAddress rfl
  simp only [advanceState, hst, bind_ok_iff, failIf_ok_iff, observation, hans, hpri]
  refine ⟨(), ?_, rfl⟩
  simp [answersAt, PlannedStep.otherAddress, attributes, reply, opposite, nat.external_valid, endpoint]

theorem advanceState_changeIPPort (hst : machine.state = .awaitChangeIPPort) :
    machine.advanceState (nat.observation topology contacts .changeIPPort id) =
      .ok { machine with
            changeIPPort := machine.changeIPPort || nat.answered topology contacts .changeIPPort
            state := .awaitChangePort } := by
  simp only [advanceState, hst, bind_ok_iff, failIf_ok_iff, observation, hpri]
  cases nat.answered topology contacts .changeIPPort <;>
    exact ⟨(), by simp [changeIPPort, attributes], (), by simp [changeIPPort, attributes, reply,
      opposite], rfl⟩

theorem advanceState_changePort (hst : machine.state = .awaitChangePort) :
    machine.advanceState (nat.observation topology contacts .changePort id) =
      .ok { machine with
            changePort := machine.changePort || nat.answered topology contacts .changePort
            state := .complete } := by
  simp only [advanceState, hst, bind_ok_iff, failIf_ok_iff, observation, hpri]
  cases nat.answered topology contacts .changePort <;>
    exact ⟨(), by simp [changePort, attributes], (), by simp [changePort, attributes, reply,
      opposite, endpoint], rfl⟩

end Advance

theorem discovery_run (htop : topology.valid = true)
    {ids : Vector TransactionID rfc5780ExchangeCount} (hids : ∀ id ∈ ids.toList, allZero id = false)
    (hno : ids.toList.Nodup) (stamps : Vector Stamp rfc5780ExchangeCount) :
    ∃ transcript, collectTranscript nat topology ids stamps = .ok transcript ∧
      (orderedRFC5780Steps.zip transcript.exchanges.toList).foldlM deriveExchange newRFC5780Machine =
        .ok (discovered nat topology ids.toList.reverse) := by
  have hcol : ¬ (ids.toList.any allZero = true ∨ ¬ ids.toList.Nodup) := by
    rintro (hany | h)
    · obtain ⟨id, hmem, hze⟩ := List.any_eq_true.mp hany
      rw [hids id hmem] at hze
      cases hze
    · exact h hno
  obtain ⟨⟨l⟩, hl⟩ := ids
  match l, hl with
  | [a, b, c, d, e], hl =>
    simp only [Vector.toList_mk, List.mem_cons, List.not_mem_nil, or_false, forall_eq_or_imp,
      forall_eq] at hids
    simp only [Vector.toList_mk, List.nodup_cons, List.mem_cons, List.not_mem_nil, or_false,
      not_or] at hno
    obtain ⟨ha, hb, hc, hd, he⟩ := hids
    obtain ⟨⟨hab, hac, had, hae⟩, ⟨hbc, hbd, hbe⟩, ⟨hcd, hce⟩, hde, -⟩ := hno
    obtain ⟨e₀, he₀, ho₀⟩ := step_observed nat htop ha [] (stamps.get ⟨0, by decide⟩)
      (by decide : PlannedStep.primary ∈ _)
    obtain ⟨e₁, he₁, ho₁⟩ := step_observed nat htop hb _ (stamps.get ⟨1, by decide⟩)
      (by decide : PlannedStep.sameAddressOtherPort ∈ _)
    obtain ⟨e₂, he₂, ho₂⟩ := step_observed nat htop hc _ (stamps.get ⟨2, by decide⟩)
      (by decide : PlannedStep.otherAddress ∈ _)
    obtain ⟨e₃, he₃, ho₃⟩ := step_observed nat htop hd (nat.mapped topology) (stamps.get ⟨3, by decide⟩)
      (by decide : changeIPPort ∈ _)
    obtain ⟨e₄, he₄, ho₄⟩ := step_observed nat htop he _ (stamps.get ⟨4, by decide⟩)
      (by decide : changePort ∈ _)
    refine ⟨⟨.known .localTransaction, 0, #v[e₀, e₁, e₂, e₃, e₄]⟩, ?_, ?_⟩
    · simp only [collectTranscript, bind_ok_iff, failIf_ok_iff]
      exact ⟨(), by simp [htop], (), hcol, _, he₀, _, he₁, _, he₂, _, he₃, _, he₄, rfl⟩
    · change List.foldlM deriveExchange newRFC5780Machine
        [(.primary, e₀), (.sameAddressOtherPort, e₁), (.otherAddress, e₂), (.changeIPPort, e₃),
          (.changePort, e₄)] = _
      simp only [List.foldlM_cons, List.foldlM_nil, bind_ok_iff]
      refine ⟨_, deriveExchange_observation htop ho₀ ha List.not_mem_nil rfl (advanceState_primary
        htop rfl),
        _, deriveExchange_observation htop ho₁ hb ?_ rfl (advanceState_sameAddress rfl rfl),
        _, deriveExchange_observation htop ho₂ hc ?_ rfl (advanceState_otherAddress rfl rfl),
        _, deriveExchange_observation htop ho₃ hd ?_ rfl (advanceState_changeIPPort rfl rfl),
        _, deriveExchange_observation htop ho₄ he ?_ rfl (advanceState_changePort rfl rfl), rfl⟩
      -- each transaction is new to the machine
      · simpa [newRFC5780Machine] using Ne.symm hab
      · simpa [newRFC5780Machine] using ⟨Ne.symm hbc, Ne.symm hac⟩
      · simpa [newRFC5780Machine] using ⟨Ne.symm hcd, Ne.symm hbd, Ne.symm had⟩
      · simpa [newRFC5780Machine] using ⟨Ne.symm hde, Ne.symm hce, Ne.symm hbe, Ne.symm hae⟩

/-! ## The classes -/

/-- The name of a mapping class in the evidence. -/
def Dependence.mappingBehavior : Dependence → MappingBehavior
  | .independent => .known .eim
  | .address => .known .adm
  | .addressPort => .known .apdm

/-- The name of a filtering class in the evidence. -/
def Dependence.filteringBehavior : Dependence → FilteringBehavior
  | .independent => .known .eif
  | .address => .known .adf
  | .addressPort => .known .apdf

/-- No mapping step has used the mapping of the primary endpoint for a destination that the filter
then lets answer. -/
def NatBox.filterUntouched (nat : NatBox) : Prop :=
  nat.filtering = .independent ∨ nat.mapping = .addressPort ∨ nat.mapping = .address ∧
    nat.filtering = .address

theorem external_inj (hpo : nat.separates topology) {i j : EndpointIndex} :
    nat.external (topology.endpoint i) = nat.external (topology.endpoint j) ↔
      nat.key (topology.endpoint i) = nat.key (topology.endpoint j) := by
  constructor
  · intro h
    exact hpo i j (congrArg AddressPort.port h)
  · intro h
    simp only [external, h]

theorem discovered_result (htop : topology.valid = true) (hpo : nat.separates topology)
    (transactions : List TransactionID) :
    (discovered nat topology transactions).result = .ok (nat.mapping.mappingBehavior,
      if nat.answersChangeIPPort topology then .known .eif
      else if nat.answersChangePort topology then .known .adf else .known .apdf) := by
  obtain ⟨-, -, hadd, hport⟩ := valid_iff.1 htop
  simp only [result, discovered, attributes, ne_eq, external_inj hpo, bind_ok_iff, failIf_ok_iff]
  refine ⟨(), by simp, ?_⟩
  cases h : nat.mapping <;>
    simp [key, h, endpoint, hadd, hport, Dependence.mappingBehavior, pure, Except.pure] <;> rfl

theorem answersChangeIPPort_iff (htop : topology.valid = true) :
    nat.answersChangeIPPort topology = true ↔
      nat.filtering = .independent ∨ nat.mapping = .independent ∧ nat.filtering = .address := by
  obtain ⟨-, -, hadd, hpo⟩ := valid_iff.1 htop
  unfold answersChangeIPPort answered admits mapped send
  cases hf : nat.filtering <;> cases hm : nat.mapping <;>
    simp [key, hm, changeIPPort, reply, endpoint, hadd, hpo, Ne.symm hadd]

theorem answersChangePort_iff (htop : topology.valid = true) :
    nat.answersChangePort topology = true ↔ nat.filtering ≠ .addressPort ∨ nat.mapping ≠
      .addressPort := by
  obtain ⟨-, -, hadd, hpo⟩ := valid_iff.1 htop
  unfold answersChangePort answered admits mapped send
  cases hf : nat.filtering <;> cases hm : nat.mapping <;>
    simp [key, hm, changePort, reply, endpoint, hpo, Ne.symm hpo]

/-- **Discovery always ends with the real mapping class; the filtering class is the real one exactly
if the mapping steps have not opened the filter.** The later answers come from an address, or from
an endpoint, that the mapping steps have already sent to. -/
theorem discovery_identifies_iff (htopology : topology.valid = true)
    (hports : nat.separates topology) {ids : Vector TransactionID rfc5780ExchangeCount}
    (hids : ∀ id ∈ ids.toList, allZero id = false) (hnodup : ids.toList.Nodup)
    (stamps : Vector Stamp rfc5780ExchangeCount) :
    ∃ transcript machine, collectTranscript nat topology ids stamps = .ok transcript ∧
      (orderedRFC5780Steps.zip transcript.exchanges.toList).foldlM deriveExchange
        newRFC5780Machine = .ok machine ∧
      (∃ filtering, machine.result = .ok (nat.mapping.mappingBehavior, filtering)) ∧
      (machine.result = .ok (nat.mapping.mappingBehavior, nat.filtering.filteringBehavior) ↔
        nat.filterUntouched) := by
  obtain ⟨transcript, hcollect, hmachine⟩ := discovery_run htopology hids hnodup stamps
  have hresult := discovered_result htopology hports ids.toList.reverse
  refine ⟨transcript, _, hcollect, hmachine, ⟨_, hresult⟩, ?_⟩
  have hboth := @answersChangeIPPort_iff nat topology htopology
  have hport := @answersChangePort_iff nat topology htopology
  rw [hresult]
  unfold filterUntouched
  cases hf : nat.filtering <;> cases hm : nat.mapping <;> simp_all [Dependence.filteringBehavior]

end Run

/-! ## A NAT that is taken for another -/

def sampleTopology : Topology :=
  ⟨⟨.ofIPv4 #v[192, 0, 2, 1], 3478⟩, ⟨.ofIPv4 #v[192, 0, 2, 2], 3479⟩⟩

/-- A NAT of any class; the mappings towards the sample observer have ports from 50000 on. -/
def sampleNat (mapping filtering : Dependence) : NatBox where
  mapping := mapping
  filtering := filtering
  publicAddress := .ofIPv4 #v[198, 51, 100, 7]
  port
    | .all => 50000
    | .address address => if address = sampleTopology.primary.address then 50000 else 50001
    | .endpoint endpoint =>
      if endpoint.address = sampleTopology.primary.address then
        if endpoint.port = sampleTopology.primary.port then 50000 else 50001
      else if endpoint.port = sampleTopology.primary.port then 50002 else 50003
  publicAddress_valid := by decide
  port_ne_zero := by
    intro key
    cases key with
    | all => decide
    | address => dsimp only; split <;> decide
    | endpoint => dsimp only; split <;> split <;> decide

theorem sampleNat_separates (mapping filtering : Dependence) :
    (sampleNat mapping filtering).separates sampleTopology := by
  rintro ⟨_ | _, _ | _⟩ ⟨_ | _, _ | _⟩ <;> cases mapping <;> cases filtering <;> decide

def sampleIDs : Vector TransactionID rfc5780ExchangeCount :=
  #v[.replicate 12 1, .replicate 12 2, .replicate 12 3, .replicate 12 4, .replicate 12 5]

theorem sampleIDs_nonzero (id : TransactionID) (hid : id ∈ sampleIDs.toList) :
    allZero id = false := by
  have hall : (sampleIDs.toList.all fun id => !allZero id) = true := by decide
  simpa using List.all_eq_true.mp hall id hid

def sampleStamps : Vector Stamp rfc5780ExchangeCount :=
  #v[⟨1, by decide⟩, ⟨2, by decide⟩, ⟨3, by decide⟩, ⟨4, by decide⟩, ⟨5, by decide⟩]

/-- An address dependent mapping and filter are both found. -/
theorem discovery_identifies_address : ∃ transcript machine,
    collectTranscript (sampleNat .address .address) sampleTopology sampleIDs sampleStamps =
      .ok transcript ∧
      (orderedRFC5780Steps.zip transcript.exchanges.toList).foldlM deriveExchange
        newRFC5780Machine = .ok machine ∧
      machine.result = .ok (.known .adm, .known .adf) := by
  obtain ⟨transcript, machine, hcollect, hmachine, -, hiff⟩ :=
    @discovery_identifies_iff (sampleNat .address .address) sampleTopology (by decide)
      (sampleNat_separates _ _) sampleIDs
      sampleIDs_nonzero (by decide) sampleStamps
  exact ⟨transcript, machine, hcollect, hmachine, hiff.2 (.inr (.inr ⟨rfl, rfl⟩))⟩

/-- Behind an endpoint independent mapping, an address and port dependent filter is taken for an
address dependent one: the second exchange has sent to the endpoint that the fifth is answered
from. -/
theorem discovery_mistakes_filter :
    (sampleNat .independent .addressPort).separates sampleTopology ∧
    ((collectTranscript (sampleNat .independent .addressPort) sampleTopology sampleIDs
      sampleStamps).toOption.bind
      fun transcript => (deriveRFC5780Transcript transcript).toOption.map
        fun derived => (derived.mapping, derived.filtering)) = some (.known .eim, .known .adf) :=
  ⟨sampleNat_separates _ _, by decide +kernel⟩

end Winkyou.HardNat
