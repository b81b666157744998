import Winkyou.Spec.HardNat.Behavior
import Mathlib.Algebra.Order.BigOperators.Group.List

/-!
# Binding messages are read back

* `parseBehaviorBindingRequest_build`: a request that is built is parsed to its transaction and its
  change flags.
* `parseBehaviorBindingSuccess_build`: a success response that is built is parsed to its attributes.
-/

namespace Winkyou.HardNat

open Except (failIf bind_ok_iff failIf_ok_iff)
open UInt8 (ofNat)
open List

variable {transaction : TransactionID} {endpoint : AddressPort} {items : List (UInt16 × Bytes)}
  {attributeType : UInt16} {xor : Bool}

/-! ## Attributes -/

theorem uint16_bytes (v : UInt16) :
    uint16 (UInt8.ofNat (v.toNat / 256)) (UInt8.ofNat v.toNat) = v := by
  have hv := v.toNat_lt
  apply UInt16.toNat_inj.1
  simp only [uint16, UInt16.toNat_ofNat', UInt8.toNat_ofNat']
  omega

def attributeBytes (item : UInt16 × Bytes) : Bytes :=
  appendUint16 item.1 ++ appendUint16 (UInt16.ofNat item.2.length) ++ item.2

/-- The value needs no padding. -/
def Aligned (item : UInt16 × Bytes) : Prop := item.2.length % 4 = 0 ∧ item.2.length < 65536

theorem toNat_ofNat_length {n : ℕ} (h : n < 65536) : (UInt16.ofNat n).toNat = n := by
  rw [UInt16.toNat_ofNat']
  exact Nat.mod_eq_of_lt h

section Walk

variable {σ : Type} {visit : σ → UInt16 → Bytes → Except Err σ}

/-- **The walk visits aligned attributes in turn.** -/
theorem walkFrom_attributes {fuel : ℕ} {state : σ} (hfu : items.length ≤ fuel)
    (hali : ∀ item ∈ items, Aligned item) :
    walkFrom visit fuel (items.flatMap attributeBytes) state =
      items.foldlM (fun state item => visit state item.1 item.2) state := by
  induction items generalizing fuel state with
  | nil => cases fuel <;> rfl
  | cons item items ih =>
    obtain ⟨fuel, rfl⟩ : ∃ k, fuel = k + 1 := ⟨fuel - 1, by simp at hfu; omega⟩
    obtain ⟨hpad, hsm⟩ := hali item mem_cons_self
    have hro : (item.2.length + 3) / 4 * 4 = item.2.length := by omega
    have hre := fun state => @ih fuel state (by simpa using hfu) fun i hi =>
      hali i (mem_cons_of_mem _ hi)
    have hlen := toNat_ofNat_length hsm
    rw [flatMap_cons, attributeBytes, foldlM_cons]
    generalize UInt16.ofNat item.2.length = length at hlen ⊢
    simp only [appendUint16, cons_append, nil_append, walkFrom, uint16_bytes]
    simp only [hlen, hro]
    rw [failIf, if_neg (by simp), failIf, if_neg (by simp)]
    simp only [bind, Except.bind, take_left, drop_left, hre]

end Walk

theorem flatMap_attributeBytes_length (hali : ∀ item ∈ items, Aligned item) :
    (items.flatMap attributeBytes).length % 4 = 0 := by
  induction items with
  | nil => rfl
  | cons item items ih =>
    have hit := hali item mem_cons_self
    have hre := ih fun i hi => hali i (mem_cons_of_mem _ hi)
    rw [flatMap_cons, length_append]
    have hlen : (attributeBytes item).length = 4 + item.2.length := by
      simp [attributeBytes, appendUint16]
      omega
    have := hit.1
    omega

/-! ## Headers -/

theorem stunMessage_length (messageType : UInt16) (transaction : TransactionID) (body : Bytes) :
    (stunMessage messageType transaction body).length = 20 + body.length := by
  simp [stunMessage, appendUint16, putUint32]
  omega

theorem validateSTUNHeader_stunMessage {messageType : UInt16} {body : Bytes}
    (hpad : body.length % 4 = 0) (hsm : body.length ≤ 1004) :
    validateSTUNHeader (stunMessage messageType transaction body) messageType = .ok () := by
  have hlen := stunMessage_length messageType transaction body
  have hcoo : uint32 (ofNat (stunMagicCookie / 16777216)) (ofNat (stunMagicCookie / 65536))
      (ofNat (stunMagicCookie / 256)) (ofNat stunMagicCookie) = stunMagicCookie := by decide
  have hbo : (UInt16.ofNat body.length).toNat = body.length := toNat_ofNat_length (by omega)
  unfold stunMessage at hlen ⊢
  generalize UInt16.ofNat body.length = length at hlen hbo ⊢
  simp only [appendUint16, putUint32, cons_append, nil_append] at hlen ⊢
  simp only [validateSTUNHeader, uint16_bytes, hcoo, hlen, bind_ok_iff, failIf_ok_iff,
    stunHeaderBytes, maxBehaviorMessageBytes, ne_eq, not_true_eq_false, or_false]
  exact ⟨(), by omega, by omega⟩

theorem header_length (messageType length : UInt16) (transaction : TransactionID) :
    (appendUint16 messageType ++ appendUint16 length ++ putUint32 stunMagicCookie ++
      transaction.toList).length =
      stunHeaderBytes := by
  simp [appendUint16, putUint32, stunHeaderBytes]

theorem stunTransaction_stunMessage (messageType : UInt16) (transaction : TransactionID)
    (body : Bytes) :
    stunTransaction (stunMessage messageType transaction body) = transaction.toList := by
  unfold stunTransaction stunMessage
  rw [take_left' (header_length messageType _ transaction)]
  exact drop_left' rfl

theorem walkAttributes_stunMessage {σ : Type} {visit : σ → UInt16 → Bytes → Except Err σ}
    {state : σ} {messageType : UInt16} (hco : items.length ≤ 20)
    (hali : ∀ item ∈ items, Aligned item) :
    walkAttributes (stunMessage messageType transaction (items.flatMap attributeBytes)) visit state =
      items.foldlM (fun state item => visit state item.1 item.2) state := by
  unfold walkAttributes
  rw [stunMessage_length]
  have hdr : (stunMessage messageType transaction (items.flatMap attributeBytes)).drop stunHeaderBytes =
      items.flatMap attributeBytes := drop_left' (header_length messageType _ transaction)
  rw [hdr]
  exact walkFrom_attributes (by omega) hali

/-! ## Requests -/

/-- **A request is read back.** -/
theorem parseBehaviorBindingRequest_build {change : ChangeRequest} {request : Bytes}
    (h : buildBehaviorBindingRequest transaction change = .ok request) :
    parseBehaviorBindingRequest request = .ok (transaction.toList, change) := by
  simp only [buildBehaviorBindingRequest, bind_ok_iff] at h
  obtain ⟨_, -, h⟩ := h
  cases h
  obtain ⟨items, hit, hali, hco, hvi⟩ : ∃ items : List (UInt16 × Bytes),
      (if (change.changeIP || change.changePort) = true then
        appendUint16 attributeChangeRequest ++ appendUint16 4 ++
          putUint32 ((if change.changeIP then 4 else 0) + if change.changePort then 2 else 0)
      else []) = items.flatMap attributeBytes ∧ (∀ item ∈ items, Aligned item) ∧ items.length ≤ 1 ∧
      ∃ present, items.foldlM (fun state item => visitRequest state item.1 item.2) (({},
        false) : ChangeRequest × Bool) = .ok (change, present) := by
    obtain ⟨changeIP, changePort⟩ := change
    cases changeIP <;> cases changePort
    · exact ⟨[], rfl, by simp, by simp, false, rfl⟩
    · exact ⟨[(attributeChangeRequest, putUint32 2)], rfl, by simp [Aligned, putUint32], by simp,
        true, by decide +kernel⟩
    · exact ⟨[(attributeChangeRequest, putUint32 4)], rfl, by simp [Aligned, putUint32], by simp,
        true, by decide +kernel⟩
    · exact ⟨[(attributeChangeRequest, putUint32 6)], rfl, by simp [Aligned, putUint32], by simp,
        true, by decide +kernel⟩
  obtain ⟨present, hvi⟩ := hvi
  have hsm : (items.flatMap attributeBytes).length ≤ 1004 := by
    rw [← hit]
    split <;> simp [appendUint16, putUint32]
  unfold parseBehaviorBindingRequest
  rw [hit, validateSTUNHeader_stunMessage (flatMap_attributeBytes_length hali) hsm,
    walkAttributes_stunMessage (by omega) hali, hvi, stunTransaction_stunMessage]
  rfl

/-! ## Addresses -/

def addressValue (endpoint : AddressPort) (transaction : TransactionID) (xor : Bool) : Bytes :=
  let raw := endpoint.address.bytes.toList.take (if endpoint.address.family =
    addressFamilyIPv4 then 4 else 16)
  [0, if endpoint.address.family = addressFamilyIPv6 then 2 else 1] ++
    appendUint16 (if xor then endpoint.port ^^^ stunPortMask else endpoint.port) ++
    if xor then xorBytes raw (stunMask transaction) else raw

theorem xorBytes_length (a b : Bytes) :
    (xorBytes a b).length = min a.length b.length := by simp [xorBytes]

theorem xorBytes_xorBytes {a b : Bytes} (h : a.length ≤ b.length) :
    xorBytes (xorBytes a b) b = a := by
  induction a generalizing b with
  | nil => simp [xorBytes]
  | cons x a ih =>
    rcases b with _ | ⟨y, b⟩
    · simp at h
    have hre := @ih b (by simpa using h)
    unfold xorBytes at hre ⊢
    rw [zipWith_cons_cons, zipWith_cons_cons, hre]
    congr 1
    apply UInt8.toBitVec_inj.1
    simp [BitVec.xor_assoc]

theorem stunMask_length (transaction : TransactionID) : (stunMask transaction).length = 16 := by
  simp [stunMask, putUint32]

/-- Bytes under the mask of a transaction, if they are masked. -/
def masked (transaction : TransactionID) (xor : Bool) (raw : Bytes) : Bytes :=
  if xor then xorBytes raw (stunMask transaction) else raw

theorem masked_length {raw : Bytes} (h : raw.length ≤ 16) :
    (masked transaction xor raw).length = raw.length := by
  unfold masked
  split
  · rw [xorBytes_length, stunMask_length, min_eq_left h]
  · rfl

theorem masked_masked {raw : Bytes} (h : raw.length ≤ 16) :
    masked transaction xor (masked transaction xor raw) = raw := by
  cases xor with
  | false => rfl
  | true => exact xorBytes_xorBytes (by rwa [stunMask_length])

/-- The address of a family in the bytes that the codec writes. -/
theorem valid_cases {address : Address} (h : address.valid = true) :
    (address.family = addressFamilyIPv4 ∧ address.bytes.toList.drop 4 = List.replicate 12 0) ∨
      address.family = addressFamilyIPv6 := by
  unfold Address.valid at h
  split at h
  · rename_i hfam
    refine .inl ⟨hfam, ?_⟩
    rw [Bool.and_eq_true] at h
    refine eq_replicate_iff.2 ⟨by simp, fun x hx => ?_⟩
    simpa using all_eq_true.1 h.1 x hx
  · split at h
    · exact .inr ‹_›
    · cases h

theorem addressValue_length (transaction : TransactionID) (xor : Bool) :
    (addressValue endpoint transaction xor).length =
      if endpoint.address.family = addressFamilyIPv4 then 8 else 20 := by
  have hraw : (endpoint.address.bytes.toList.take
      (if endpoint.address.family = addressFamilyIPv4 then 4 else 16)).length =
        if endpoint.address.family = addressFamilyIPv4 then 4 else 16 := by
    rw [length_take, Vector.length_toList]
    split <;> rfl
  have hva := @masked_length transaction xor _ (hraw.trans_le (by split <;> decide))
  unfold masked at hva
  simp only [addressValue, length_append, hva, hraw, appendUint16, length_cons, length_nil]
  split <;> rfl

theorem addressValue_aligned (attributeType : UInt16) (endpoint : AddressPort)
    (transaction : TransactionID) (xor : Bool) :
    Aligned (attributeType, addressValue endpoint transaction xor) := by
  unfold Aligned
  rw [addressValue_length]
  split <;> simp

theorem encodeSTUNAddress_eq (h : endpoint.valid = true) :
    encodeSTUNAddress attributeType endpoint transaction xor =
      .ok (attributeBytes (attributeType, addressValue endpoint transaction xor)) := by
  unfold encodeSTUNAddress attributeBytes
  rw [failIf, if_neg (by simp [h]), addressValue_length]
  have hlen : UInt16.ofNat (if endpoint.address.family = addressFamilyIPv4 then 8 else 20) =
      if endpoint.address.family = addressFamilyIPv4 then 8 else 20 := by split <;> rfl
  rw [hlen]
  simp [addressValue, bind, Except.bind, pure, Except.pure]

theorem toArray_toList {n : ℕ} {l : Bytes} (h : l.length = n) : (toArray n l).toList = l := by
  subst h
  simp [toArray]

/-- **An address is read back.** -/
theorem decodeSTUNAddress_addressValue (h : endpoint.valid = true) :
    decodeSTUNAddress (addressValue endpoint transaction xor) transaction xor = .ok endpoint := by
  obtain ⟨⟨family, bytes⟩, port⟩ := endpoint
  obtain ⟨hadd, hpo⟩ := Bool.and_eq_true_iff.1 h
  have hpo : port ≠ 0 := by simpa using hpo
  have hlen := @addressValue_length ⟨⟨family, bytes⟩, port⟩ transaction xor
  have hxor : ∀ a b : UInt16, (a ^^^ b) ^^^ b = a :=
    fun a b => UInt16.toBitVec_inj.1 (by simp [BitVec.xor_assoc])
  have hpor : (if xor then uint16 (ofNat ((if xor then port ^^^ stunPortMask else port).toNat / 256))
      (ofNat (if xor then port ^^^ stunPortMask else port).toNat) ^^^ stunPortMask
      else uint16 (ofNat ((if xor then port ^^^ stunPortMask else port).toNat / 256))
        (ofNat (if xor then port ^^^ stunPortMask else port).toNat)) = port := by
    rw [uint16_bytes]
    cases xor with
    | false => rfl
    | true => exact hxor port stunPortMask
  have hraw : ∀ n ≤ 16, masked transaction xor (masked transaction xor (bytes.toList.take n)) =
    bytes.toList.take n :=
    fun n hn => masked_masked (by rw [length_take]; omega)
  unfold masked at hraw
  unfold addressValue at hlen ⊢
  simp only [appendUint16, cons_append, nil_append] at hlen ⊢
  simp only [decodeSTUNAddress]
  rw [hlen, failIf, if_neg (by split <;> simp), hpor, failIf, if_neg hpo]
  rcases valid_cases hadd with ⟨rfl, hze⟩ | rfl
  · have hba : Address.ofIPv4 (toArray 4 (bytes.toList.take 4)) = ⟨addressFamilyIPv4, bytes⟩ := by
      have htoL : (Address.ofIPv4 (toArray 4 (bytes.toList.take 4))).bytes.toList = bytes.toList := by
        have hta : (toArray 4 (bytes.toList.take 4)).toList = bytes.toList.take 4 :=
          toArray_toList (by simp)
        calc (Address.ofIPv4 (toArray 4 (bytes.toList.take 4))).bytes.toList
            = (toArray 4 (bytes.toList.take 4)).toList ++ List.replicate 12 0 := Array.toList_append
          _ = bytes.toList := by rw [hta, ← hze, take_append_drop]
      exact congrArg (Address.mk addressFamilyIPv4) (Vector.toList_inj.1 htoL)
    have h4 := hraw 4 (by decide)
    have hne : addressFamilyIPv4 ≠ addressFamilyIPv6 := by decide
    simp only [if_true, if_neg hne]
    rw [h4, hba]
    simp [bind, Except.bind, failIf, h, pure, Except.pure]
  · have hba : Address.ofIPv6 (toArray 16 (bytes.toList.take 16)) = ⟨addressFamilyIPv6, bytes⟩ := by
      have hta : (toArray 16 (bytes.toList.take 16)).toList = bytes.toList := by
        rw [toArray_toList (by simp), take_of_length_le (by simp)]
      exact congrArg (Address.mk addressFamilyIPv6) (Vector.toList_inj.1 hta)
    have h16 := hraw 16 (by decide)
    have hne : addressFamilyIPv6 ≠ addressFamilyIPv4 := by decide
    simp only [if_true, if_neg hne]
    rw [h16, hba]
    simp [bind, Except.bind, failIf, h, pure, Except.pure]

/-! ## Success responses -/

/-- Absent endpoints of the attributes are zero. -/
structure BehaviorAttributes.Tidy (attributes : BehaviorAttributes) : Prop where
  origin : attributes.hasResponseOrigin = false → attributes.responseOrigin = .zero
  other : attributes.hasOtherAddress = false → attributes.otherAddress = .zero

/-- An attribute that may be absent. -/
def itemIf (present : Bool) (attributeType : UInt16) (endpoint : AddressPort)
    (transaction : TransactionID) :
    List (UInt16 × Bytes) :=
  if present then [(attributeType, addressValue endpoint transaction false)] else []

def successItems (transaction : TransactionID) (attributes : BehaviorAttributes) :
    List (UInt16 × Bytes) :=
  [(attributeMappedAddress, addressValue attributes.mapped transaction false),
    (attributeXORMappedAddress, addressValue attributes.mapped transaction true)] ++
  itemIf attributes.hasResponseOrigin attributeResponseOrigin attributes.responseOrigin transaction ++
  itemIf attributes.hasOtherAddress attributeOtherAddress attributes.otherAddress transaction

variable {attributes : BehaviorAttributes}

theorem mem_successItems {item : UInt16 × Bytes} (h : item ∈ successItems transaction attributes) :
    ∃ attributeType endpoint xor, item = (attributeType, addressValue endpoint transaction xor) := by
  simp only [successItems, itemIf, mem_append, mem_cons, not_mem_nil, or_false] at h
  rcases h with ((rfl | rfl) | h) | h
  · exact ⟨_, _, _, rfl⟩
  · exact ⟨_, _, _, rfl⟩
  · split at h
    · exact ⟨_, _, _, mem_singleton.1 h⟩
    · cases h
  · split at h
    · exact ⟨_, _, _, mem_singleton.1 h⟩
    · cases h

theorem successItems_length (transaction : TransactionID) (attributes : BehaviorAttributes) :
    (successItems transaction attributes).length ≤ 4 := by
  simp only [successItems, itemIf, length_append]
  split <;> split <;> simp

theorem encodeSTUNAddress_ok {bytes : Bytes}
    (h : encodeSTUNAddress attributeType endpoint transaction xor = .ok bytes) :
    endpoint.valid = true ∧ bytes = attributeBytes (attributeType,
      addressValue endpoint transaction xor) := by
  have hend : endpoint.valid = true := by
    simp only [encodeSTUNAddress, bind_ok_iff, failIf_ok_iff, Bool.not_eq_false] at h
    exact h.choose_spec.1
  rw [encodeSTUNAddress_eq hend] at h
  exact ⟨hend, (Except.ok.inj h).symm⟩

theorem encodeSTUNAddressIf_ok {present : Bool} {bytes : Bytes}
    (h : encodeSTUNAddressIf present attributeType endpoint transaction = .ok bytes) :
    (present = true → endpoint.valid = true) ∧
      bytes = (itemIf present attributeType endpoint transaction).flatMap attributeBytes := by
  cases present with
  | false =>
    cases h
    exact ⟨by simp, rfl⟩
  | true =>
    obtain ⟨hva, rfl⟩ := encodeSTUNAddress_ok h
    exact ⟨fun _ => hva, by simp [itemIf]⟩

/-- What was built is the items of the attributes, whose endpoints are valid. -/
theorem buildBehaviorBindingSuccess_ok {packet : Bytes}
    (h : buildBehaviorBindingSuccess transaction attributes = .ok packet) :
    packet = stunMessage stunBindingSuccess transaction
      ((successItems transaction attributes).flatMap attributeBytes) ∧
      attributes.hasMapped = true ∧ attributes.mapped.valid = true ∧
      (attributes.hasResponseOrigin = true → attributes.responseOrigin.valid = true) ∧
      (attributes.hasOtherAddress = true → attributes.otherAddress.valid = true) := by
  simp only [buildBehaviorBindingSuccess, bind_ok_iff, failIf_ok_iff, not_or, Bool.not_eq_false] at h
  obtain ⟨⟨⟩, ⟨-, hmap, hval⟩, mapped, hm, xorMapped, hx, origin, ho, other, hot, hpac⟩ := h
  obtain ⟨-, rfl⟩ := encodeSTUNAddress_ok hm
  obtain ⟨-, rfl⟩ := encodeSTUNAddress_ok hx
  obtain ⟨hvali, rfl⟩ := encodeSTUNAddressIf_ok ho
  obtain ⟨hvalid, rfl⟩ := encodeSTUNAddressIf_ok hot
  cases hpac
  exact ⟨by simp [successItems], hmap, hval, hvali, hvalid⟩

/-- The four attributes that a walk over a success response stores. -/
theorem visitSuccess_addressValue {state : SuccessState} (h : endpoint.valid = true) :
    (state.mappedAddress = none →
      visitSuccess transaction state attributeMappedAddress (addressValue endpoint transaction false) =
        .ok { state with mappedAddress := some endpoint }) ∧
    (state.xorMappedAddress = none →
      visitSuccess transaction state attributeXORMappedAddress
        (addressValue endpoint transaction true) =
        .ok { state with xorMappedAddress := some endpoint }) ∧
    (state.responseOrigin = none →
      visitSuccess transaction state attributeResponseOrigin (addressValue endpoint transaction false) =
        .ok { state with responseOrigin := some endpoint }) ∧
    (state.otherAddress = none →
      visitSuccess transaction state attributeOtherAddress (addressValue endpoint transaction false) =
        .ok { state with otherAddress := some endpoint }) := by
  have hdec := fun xor => @decodeSTUNAddress_addressValue transaction endpoint xor h
  have h1 : attributeXORMappedAddress ≠ attributeMappedAddress := by decide
  have h2 : attributeResponseOrigin ≠ attributeMappedAddress := by decide
  have h3 : attributeResponseOrigin ≠ attributeXORMappedAddress := by decide
  have h4 : attributeOtherAddress ≠ attributeMappedAddress := by decide
  have h5 : attributeOtherAddress ≠ attributeXORMappedAddress := by decide
  have h6 : attributeOtherAddress ≠ attributeResponseOrigin := by decide
  refine ⟨fun hno => ?_, fun hno => ?_, fun hno => ?_, fun hno => ?_⟩ <;>
    simp [visitSuccess, h1, h2, h3, h4, h5, h6, hno, hdec, failIf, bind, Except.bind, pure, Except.pure]

theorem walk_successItems (hmap : attributes.mapped.valid = true)
    (hori : attributes.hasResponseOrigin = true → attributes.responseOrigin.valid = true)
    (hot : attributes.hasOtherAddress = true → attributes.otherAddress.valid = true) :
    (successItems transaction attributes).foldlM (fun state item =>
      visitSuccess transaction state item.1 item.2)
      ({} : SuccessState) = .ok
        { mappedAddress := some attributes.mapped, xorMappedAddress := some attributes.mapped
          responseOrigin := if attributes.hasResponseOrigin then some attributes.responseOrigin
            else none
          otherAddress := if attributes.hasOtherAddress then some attributes.otherAddress
            else none } := by
  have hif : ∀ {present : Bool} {attributeType : UInt16} {endpoint : AddressPort}
    {state state' : SuccessState},
      (present = false → state' = state) →
      (present = true → visitSuccess transaction state attributeType
        (addressValue endpoint transaction false) = .ok state') →
      (itemIf present attributeType endpoint transaction).foldlM
        (fun state item => visitSuccess transaction state item.1 item.2) state = .ok state' := by
    intro present attributeType endpoint state state' hfa htr
    cases present with
    | false =>
      rw [hfa rfl]
      rfl
    | true =>
      rw [itemIf, if_pos rfl, foldlM_cons, htr rfl]
      rfl
  unfold successItems
  rw [foldlM_append, bind_ok_iff]
  refine ⟨{ mappedAddress := some attributes.mapped, xorMappedAddress := some attributes.mapped
            responseOrigin := if attributes.hasResponseOrigin then some attributes.responseOrigin
              else none }, ?_, ?_⟩
  · rw [foldlM_append, bind_ok_iff]
    refine ⟨{ mappedAddress := some attributes.mapped, xorMappedAddress := some attributes.mapped },
      ?_, ?_⟩
    · rw [foldlM_cons, (visitSuccess_addressValue hmap).1 rfl, bind_ok_iff]
      refine ⟨_, rfl, ?_⟩
      rw [foldlM_cons, (visitSuccess_addressValue hmap).2.1 rfl]
      rfl
    · refine hif (fun hfa => ?_) fun htr => ?_
      · rw [hfa]
        rfl
      · rw [(visitSuccess_addressValue (hori htr)).2.2.1 rfl, htr]
        rfl
  · refine hif (fun hfa => ?_) fun htr => ?_
    · rw [hfa]
      rfl
    · rw [(visitSuccess_addressValue (hot htr)).2.2.2 rfl, htr]
      rfl

/-- **A success response is read back.** -/
theorem parseBehaviorBindingSuccess_build {packet : Bytes}
    (hti : attributes.Tidy) (h : buildBehaviorBindingSuccess transaction attributes = .ok packet) :
    parseBehaviorBindingSuccess packet transaction = .ok attributes := by
  obtain ⟨rfl, hmap, hval, hvali, hvalid⟩ := buildBehaviorBindingSuccess_ok h
  have hali : ∀ item ∈ successItems transaction attributes, Aligned item := by
    intro item hit
    obtain ⟨_, _, _, rfl⟩ := mem_successItems hit
    exact addressValue_aligned _ _ _ _
  have hco := successItems_length transaction attributes
  have hsm : ((successItems transaction attributes).flatMap attributeBytes).length ≤ 1004 := by
    have hite : ∀ item ∈ successItems transaction attributes, (attributeBytes item).length ≤ 24 := by
      intro item hit
      obtain ⟨_, _, _, rfl⟩ := mem_successItems hit
      simp only [attributeBytes, length_append, addressValue_length, appendUint16, length_cons,
        length_nil]
      split <;> omega
    rw [length_flatMap]
    have hsum := sum_le_card_nsmul _ 24 (forall_mem_map.2 hite)
    rw [length_map] at hsum
    change _ ≤ (successItems transaction attributes).length * 24 at hsum
    omega
  unfold parseBehaviorBindingSuccess
  rw [validateSTUNHeader_stunMessage (flatMap_attributeBytes_length hali) hsm,
    walkAttributes_stunMessage (by omega) hali, walk_successItems hval hvali hvalid,
    stunTransaction_stunMessage]
  obtain ⟨mapped, responseOrigin, otherAddress, hasMapped, hasO, hasOt⟩ := attributes
  obtain rfl : hasMapped = true := hmap
  have hori := hti.origin
  have hot := hti.other
  cases hasO <;> cases hasOt <;>
    simp_all [failIf, bind, Except.bind, pure, Except.pure]

end Winkyou.HardNat
