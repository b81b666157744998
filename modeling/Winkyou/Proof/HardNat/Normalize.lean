import Mathlib.Data.List.Perm.Basic
import Winkyou.Proof.HardNat.Accept
import Winkyou.Proof.HardNat.Remote

/-!
# What normalization keeps

* `normalizeEvidence_run`: the five loops of a normalization that succeeds.
* `observeExchange_ok`: what is known of an exchange of a transcript that derives.
* `reusable_ok_iff`: the search for a reusable endpoint finds the one offer, if there is any.
* `suffixAt_perm`: the suffix of allocation samples does not depend on their order.
-/

namespace Winkyou.HardNat

open Except (failIf bind_ok_iff failIf_ok_iff mapError_ok_iff)
open List
open Dedup (Accepted keys)

variable {t : TransactionID} {transcript : RFC5780Transcript}

/-! ## The manifest -/

/-- What `addIssued` checks of a whole manifest. -/
structure ManifestOK (trusted : TrustedValidationContext) (manifest : List IssuedTransaction) :
    Prop where
  nodup : (manifest.map (·.transactionID)).Nodup
  valid : ∀ issued ∈ manifest, validIssuedTransaction issued trusted = true

variable {manifest : List IssuedTransaction} {α : Type} {l l' kept : List α} {k : EntryKind α}

theorem addIssued_ok_iff {trusted : TrustedValidationContext} {issued : List IssuedTransaction} :
    issued.foldlM (addIssued trusted) [] = .ok manifest ↔
      manifest = issued ∧ ManifestOK trusted issued := by
  refine (Dedup.foldlM_append_ok_iff ?_).trans (and_congr_right' ⟨fun h => ⟨h.1, h.2⟩,
    fun h => ⟨h.nodup, h.valid⟩⟩)
  simp [addIssued, pure, Except.pure]

/-- A search for the only element that meets a condition does not depend on the order. -/
theorem find?_perm {p : α → Bool} (huni : ∀ a ∈ l, ∀ b ∈ l, p a = true → p b = true → a = b)
    (h : l.Perm l') : l.find? p = l'.find? p := by
  cases hfi : l'.find? p with
  | none =>
    rw [find?_eq_none] at hfi ⊢
    exact fun a ha => hfi a (h.mem_iff.1 ha)
  | some b =>
    have hb : b ∈ l := h.mem_iff.2 (mem_of_find?_eq_some hfi)
    obtain ⟨a, ha⟩ := Option.isSome_iff_exists.1 (find?_isSome.2 ⟨b, hb, find?_some hfi⟩)
    rw [ha]
    exact congrArg some
      (huni a (mem_of_find?_eq_some ha) b hb (find?_some ha) (find?_some hfi))

theorem issuedFor_some {issued : IssuedTransaction}
    (h : issuedFor manifest t = some issued) : issued ∈ manifest ∧ issued.transactionID = t := by
  unfold issuedFor at h
  exact ⟨mem_of_find?_eq_some h, by simpa using find?_some h⟩

/-! ## Kinds of transactions -/

/-- The manifest issues the transaction for a kind of evidence. -/
def KindOf (manifest : List IssuedTransaction) (t : TransactionID) (kind : KindName) : Prop :=
  ∃ issued, issuedFor manifest t = some issued ∧ issued.kind = .known kind

theorem Issued.kindOf {b : Binding} (h : Issued manifest b) :
    KindOf manifest b.transaction b.kind := by
  obtain ⟨issued, hfor, hma⟩ := h
  simp only [Binding.matches, Bool.and_eq_true, beq_iff_eq] at hma
  exact ⟨issued, hfor, hma.1.1.1.1.1.1⟩

theorem KindOf.unique {kind kind' : KindName} (h : KindOf manifest t kind)
    (h' : KindOf manifest t kind') : kind = kind' := by
  obtain ⟨issued, hfor, hki⟩ := h
  obtain ⟨issued', hfor', hki'⟩ := h'
  rw [hfor] at hfor'
  cases hfor'
  exact Named.known.inj (hki.symm.trans hki')

/-- Every accepted transaction was issued for one of some kinds. -/
def KeysOf (manifest : List IssuedTransaction) (kinds : List KindName) (seen : Seen) : Prop :=
  ∀ t ∈ keys seen, ∃ kind ∈ kinds, KindOf manifest t kind

section Kinds

variable {graph : EvidenceGraph} {manifest : List IssuedTransaction} {seen seen' : Seen}
  {kinds : List KindName}

theorem KeysOf.fresh (h : KeysOf manifest kinds seen) {kind : KindName}
    (ht : KindOf manifest t kind) (hki : kind ∉ kinds) : t ∉ keys seen := by
  intro hmem
  obtain ⟨kind', hki', ht'⟩ := h t hmem
  exact hki (ht.unique ht' ▸ hki')

theorem KeysOf.entries {entries : List α} (hke : KeysOf manifest kinds seen)
    (h : Accepted (k.rule graph manifest) seen entries kept seen') :
    KeysOf manifest (k.kind :: kinds) seen' := by
  intro t ht
  rcases h.mem_keys_iff.1 ht with ht | ⟨entry, hen, hlo, ht⟩
  · obtain ⟨kind, hki, hof⟩ := hke t ht
    exact ⟨kind, mem_cons_of_mem _ hki, hof⟩
  · obtain rfl := mem_singleton.1 ht
    exact ⟨k.kind, mem_cons_self, (h.ok entry hen hlo).1.issued.kindOf⟩

theorem transaction_kindOf {transcript : RFC5780Transcript} (h : TranscriptOK manifest transcript)
    (ht : t ∈ transcript.transactions) : KindOf manifest t .rfc5780 := by
  rw [← transcriptBindings_transactions] at ht
  obtain ⟨b, hb, rfl⟩ := mem_map.1 ht
  have hki : b.kind = .rfc5780 := by
    obtain ⟨item, -, rfl⟩ := mem_map.1 hb
    rfl
  exact hki ▸ (h.issued b hb).kindOf

end Kinds

/-! ## The five loops -/

/-- The loops of a normalization that succeeds, with the records accepted after each of them. -/
structure NormalRun (graph : EvidenceGraph) (manifest : List IssuedTransaction) where
  mapping : List MappingEvidence
  filtering : List FilteringEvidence
  ipPooling : List IPPoolingEvidence
  allocation : List AllocationSample
  readings : List Reading
  seen₁ : Seen
  seen₂ : Seen
  seen₃ : Seen
  seen₄ : Seen
  seen₅ : Seen
  mapping_ok : Accepted (mappingEntries.rule graph manifest) [] graph.mapping mapping seen₁
  filtering_ok : Accepted (filteringEntries.rule graph manifest) seen₁ graph.filtering filtering seen₂
  ipPooling_ok : Accepted (ipPoolingEntries.rule graph manifest) seen₂ graph.ipPooling ipPooling seen₃
  allocation_ok : Accepted (allocationEntries.rule graph manifest) seen₃ graph.allocation allocation
    seen₄
  readings_ok : Accepted (transcriptRule graph manifest) seen₄ graph.rfc5780 readings seen₅

def NormalRun.normalized {graph : EvidenceGraph} {manifest : List IssuedTransaction}
    (run : NormalRun graph manifest) :
    EvidenceGraph :=
  normalizedGraph graph run.mapping run.filtering run.ipPooling run.allocation run.readings

theorem normalizeEvidence_run {sha256 : Bytes → Digest} {graph normalized : EvidenceGraph}
    {trusted : TrustedValidationContext} {digest : Digest}
    (h : normalizeEvidence sha256 graph trusted = .ok (normalized, digest)) :
    validateTrustedHeader graph trusted = .ok () ∧ digestValidationContext sha256 trusted =
      .ok digest ∧ ManifestOK trusted trusted.issued ∧
      ∃ run : NormalRun graph trusted.issued, run.seen₅.length = trusted.issued.length ∧
        normalized = run.normalized := by
  unfold normalizeEvidence at h
  simp only [bind_ok_iff, failIf_ok_iff, not_not] at h
  obtain ⟨⟨⟩, hhea, digest', hdig, manifest, hman, ⟨⟩, -, ⟨mapping, seen₁⟩, hmap,
    ⟨filtering, seen₂⟩, hfil, ⟨ipPooling, seen₃⟩, hpoo, ⟨allocation, seen₄⟩, hallo,
    ⟨readings, seen₅⟩, hrea, ⟨⟩, hall, hres⟩ := h
  cases hres
  obtain ⟨rfl, hok⟩ := addIssued_ok_iff.1 hman
  have h₁ := acceptEntries_accepted (by simp) hmap
  have h₂ := acceptEntries_accepted h₁.nodup hfil
  have h₃ := acceptEntries_accepted h₂.nodup hpoo
  have h₄ := acceptEntries_accepted h₃.nodup hallo
  have h₅ := acceptTranscripts_accepted h₄.nodup hrea
  exact ⟨hhea, hdig, hok, ⟨mapping, filtering, ipPooling, allocation, readings, seen₁, seen₂, seen₃,
    seen₄, seen₅, h₁, h₂, h₃, h₄, h₅⟩, hall, rfl⟩

namespace NormalRun

variable {graph : EvidenceGraph} {manifest : List IssuedTransaction} (run : NormalRun graph manifest)

include run

theorem keysOf₁ : KeysOf manifest [.mapping] run.seen₁ :=
  KeysOf.entries (by simp [KeysOf]) run.mapping_ok

theorem keysOf₂ : KeysOf manifest [.filtering, .mapping] run.seen₂ :=
  run.keysOf₁.entries run.filtering_ok

theorem keysOf₃ : KeysOf manifest [.ipPooling, .filtering, .mapping] run.seen₃ :=
  run.keysOf₂.entries run.ipPooling_ok

/-- No entry has used a transaction of a local transcript. -/
theorem transactions_fresh (tr : RFC5780Transcript) (htr : tr ∈ graph.rfc5780) (hlo : tr.isLocal)
    (t : TransactionID) (ht : t ∈ tr.transactions) : t ∉ keys run.seen₄ :=
  (run.keysOf₃.entries run.allocation_ok).fresh (transaction_kindOf (run.readings_ok.ok tr htr
    hlo).1 ht) (by decide)

end NormalRun

/-! ## Exchanges -/

theorem mem_transcriptBindings {b : Binding} :
    b ∈ transcriptBindings transcript ↔
      ∃ i : Fin rfc5780ExchangeCount, b = exchangeBinding transcript i
        (transcript.exchanges.get i) := by
  unfold transcriptBindings
  rw [mem_map]
  constructor
  · rintro ⟨⟨exchange, i⟩, hmem, rfl⟩
    obtain ⟨hi, heq⟩ := List.getElem?_eq_some_iff.1 (mem_zipIdx_iff_getElem?.1 hmem)
    rw [Vector.length_toList] at hi
    refine ⟨⟨i, hi⟩, ?_⟩
    rw [← heq]
    rfl
  · rintro ⟨i, rfl⟩
    refine ⟨(transcript.exchanges.get i, i), mem_zipIdx_iff_getElem?.2 ?_, rfl⟩
    exact List.getElem?_eq_some_iff.2 ⟨by simp, rfl⟩

theorem foldlM_deriveExchange_observes {machine next : RFC5780Machine}
    {items : List (StepName × RFC5780Exchange)}
    (h : items.foldlM deriveExchange machine = .ok next) :
    ∀ item ∈ items, ∃ observation, observeExchange item.1 item.2 = .ok observation := by
  induction items generalizing machine with
  | nil => simp
  | cons item items ih =>
    rw [foldlM_cons] at h
    obtain ⟨mid, hmid, hre⟩ := bind_ok_iff.1 h
    obtain ⟨observation, hobs, -⟩ := bind_ok_iff.1 hmid
    exact forall_mem_cons.2 ⟨⟨observation, hobs⟩, ih hre⟩

theorem derive_observes {derived : DerivedTranscript}
    (h : deriveRFC5780Transcript transcript = .ok derived) (i : Fin rfc5780ExchangeCount) :
    ∃ observation, observeExchange (orderedRFC5780Steps.get i)
      (transcript.exchanges.get i) = .ok observation := by
  unfold deriveRFC5780Transcript at h
  obtain ⟨machine, hmac, -⟩ := bind_ok_iff.1 h
  refine foldlM_deriveExchange_observes hmac (orderedRFC5780Steps.get i, transcript.exchanges.get i) ?_
  have hst : i.val < orderedRFC5780Steps.length := i.isLt
  have hlen : i.val < (orderedRFC5780Steps.zip transcript.exchanges.toList).length := by
    rw [length_zip, transcript.exchanges.length_toList]
    exact lt_min hst i.isLt
  refine mem_iff_getElem.2 ⟨i.val, hlen, ?_⟩
  rw [getElem_zip]
  rfl

theorem observeExchange_ok {step : StepName} {exchange : RFC5780Exchange}
    {observation : DiscoveryObservation} (h : observeExchange step exchange = .ok observation) :
    exchange.step = .known step ∧ exchange.requestDestination.valid = true ∧
      exchange.request.length ≤ 1024 ∧
      (exchange.responseSource.valid = true ∨ exchange.responseSource = .zero) := by
  simp only [observeExchange, bind_ok_iff, failIf_ok_iff, mapError_ok_iff, not_or, not_not,
    Bool.not_eq_false] at h
  obtain ⟨⟨⟩, ⟨hst, -, hdes⟩, ⟨transaction, change⟩, hreq, ⟨⟩, -, attributes, hatt, -⟩ := h
  refine ⟨hst, hdes, ?_, ?_⟩
  · simp only [parseBehaviorBindingRequest, bind_ok_iff] at hreq
    obtain ⟨⟨⟩, hhea, -⟩ := hreq
    unfold validateSTUNHeader at hhea
    split at hhea
    · rename_i heq
      simp only [bind_ok_iff, failIf_ok_iff, not_or, not_lt] at hhea
      obtain ⟨⟨⟩, ⟨-, hlen, -⟩, -⟩ := hhea
      exact hlen
    · cases hhea
  · unfold exchangeAttributes at hatt
    split at hatt
    · simp only [bind_ok_iff, failIf_ok_iff, not_or, Bool.not_eq_false] at hatt
      obtain ⟨⟨⟩, ⟨-, hsou⟩, -⟩ := hatt
      exact .inl hsou
    · simp only [bind_ok_iff, failIf_ok_iff, not_or, not_not] at hatt
      obtain ⟨⟨⟩, ⟨-, hsou⟩, -⟩ := hatt
      exact .inr hsou

/-! ## The reusable endpoint -/

/-- The endpoint and the slot that a transcript offers for reuse. -/
def Offers (tr : RFC5780Transcript) (found : AddressPort × UInt16) : Prop :=
  ∃ derived, deriveRFC5780Transcript tr = .ok derived ∧ derived.mapping = .known .eim ∧
    found = (derived.endpoint, tr.socketSlot)

theorem reusableStep_ok_iff {found found' : AddressPort × UInt16} {tr : RFC5780Transcript} :
    reusableStep found tr = .ok found' ↔ (∃ derived, deriveRFC5780Transcript tr = .ok derived) ∧
      (Offers tr found' ∧ found'.1.valid = true ∧ (found.1.valid = true → found = found') ∨
        (∀ offer, ¬ Offers tr offer) ∧ found' = found) := by
  unfold reusableStep
  rw [bind_ok_iff]
  constructor
  · rintro ⟨derived, hder, hst⟩
    refine ⟨⟨derived, hder⟩, ?_⟩
    split at hst
    · rename_i hot
      cases hst
      refine .inr ⟨fun offer hof => ?_, rfl⟩
      obtain ⟨derived', hder', heim, -⟩ := hof
      cases hder.symm.trans hder'
      exact hot heim
    · rename_i heim
      simp only [bind_ok_iff, failIf_ok_iff, Bool.not_eq_false] at hst
      obtain ⟨⟨⟩, hva, ⟨⟩, hsa, hfo⟩ := hst
      cases hfo
      refine .inl ⟨⟨derived, hder, not_not.1 heim, rfl⟩, hva, fun hv => ?_⟩
      simp only [not_and, not_or, not_not] at hsa
      exact Prod.ext (hsa hv).1 (hsa hv).2
  · rintro ⟨⟨derived, hder⟩, hca⟩
    refine ⟨derived, hder, ?_⟩
    rcases hca with ⟨⟨derived', hder', heim, rfl⟩, hva, hsa⟩ | ⟨hno, rfl⟩
    · cases hder.symm.trans hder'
      rw [if_neg (not_not.2 heim)]
      simp only [bind_ok_iff, failIf_ok_iff, Bool.not_eq_false]
      refine ⟨(), hva, (), ?_, rfl⟩
      rintro ⟨hv, hne | hne⟩
      · exact hne (congrArg Prod.fst (hsa hv))
      · exact hne (congrArg Prod.snd (hsa hv))
    · exact if_pos fun heim => hno _ ⟨derived, hder, heim, rfl⟩

/-- What the search for a reusable endpoint finds: the one offer, if there is any. -/
theorem reusable_ok_iff {transcripts : List RFC5780Transcript}
    {found result : AddressPort × UInt16} :
    transcripts.foldlM reusableStep found = .ok result ↔
      (∀ tr ∈ transcripts, ∃ derived, deriveRFC5780Transcript tr = .ok derived) ∧
      (∀ tr ∈ transcripts, ∀ offer, Offers tr offer → offer.1.valid = true ∧ result = offer) ∧
      (found.1.valid = true → result = found) ∧
      ((∀ tr ∈ transcripts, ∀ offer, ¬ Offers tr offer) → result = found) := by
  induction transcripts generalizing found with
  | nil =>
    constructor
    · intro h
      cases h
      simp
    · rintro ⟨-, -, -, h⟩
      rw [h (by simp)]
      rfl
  | cons tr transcripts ih =>
    have huni : ∀ {offer offer'}, Offers tr offer → Offers tr offer' → offer = offer' := by
      rintro _ _ ⟨derived, hderi, -, rfl⟩ ⟨derived', hderi', -, rfl⟩
      cases hderi.symm.trans hderi'
      rfl
    simp only [foldlM_cons, bind_ok_iff, forall_mem_cons]
    constructor
    · rintro ⟨mid, hmid, hre⟩
      obtain ⟨hder, hoff, hva, hnone⟩ := ih.1 hre
      obtain ⟨hderive, ⟨hof, hmidV, hsa⟩ | ⟨hot, rfl⟩⟩ := reusableStep_ok_iff.1 hmid
      · have hres : result = mid := hva hmidV
        refine ⟨⟨hderive, hder⟩, ⟨fun offer ho => ?_, hoff⟩, fun hv => ?_, fun hno => ?_⟩
        · rw [huni ho hof]
          exact ⟨hmidV, hres⟩
        · rw [hres, hsa hv]
        · exact absurd hof (hno.1 mid)
      · exact ⟨⟨hderive, hder⟩, ⟨fun offer ho => absurd ho (hot offer), hoff⟩, hva,
          fun hno => hnone hno.2⟩
    · rintro ⟨⟨hderive, hder⟩, ⟨hhe, hoff⟩, hva, hnone⟩
      by_cases hof : ∃ offer, Offers tr offer
      · obtain ⟨offer, hof⟩ := hof
        obtain ⟨hoffe, rfl⟩ := hhe offer hof
        exact ⟨result, reusableStep_ok_iff.2 ⟨hderive, .inl ⟨hof, hoffe, fun hv => (hva hv).symm⟩⟩,
          ih.2 ⟨hder, hoff, fun _ => rfl, fun _ => rfl⟩⟩
      · have hot : ∀ offer, ¬ Offers tr offer := fun offer ho => hof ⟨offer, ho⟩
        exact ⟨found, reusableStep_ok_iff.2 ⟨hderive, .inr ⟨hot, rfl⟩⟩,
          ih.2 ⟨hder, hoff, hva, fun hno => hnone ⟨hot, hno⟩⟩⟩

/-! ## The allocation samples -/

variable {entries : List AllocationSample}

theorem addByOrdinal_ok_iff {byOrdinal : List AllocationSample} :
    entries.foldlM addByOrdinal [] = .ok byOrdinal ↔
      byOrdinal = entries ∧ (entries.map (·.ordinal)).Nodup := by
  refine (Dedup.foldlM_append_ok_iff (k := (·.ordinal)) (P := fun _ => True) ?_).trans (by simp)
  simp [addByOrdinal, pure, Except.pure]

theorem suffixAt_perm {entries' : List AllocationSample} (hno : (entries.map (·.ordinal)).Nodup)
    (h : entries.Perm entries') (ordinal : ℕ) :
    suffixAt entries' ordinal = suffixAt entries ordinal := by
  have hfi : ∀ ordinal, entries.find? (fun e => decide (e.ordinal.toNat = ordinal)) =
      entries'.find? fun e => decide (e.ordinal.toNat = ordinal) := by
    intro ordinal
    refine find?_perm (fun a ha b hb hpa hpb => inj_on_of_nodup_map hno ha hb ?_) h
    exact UInt32.toNat_inj.1 ((of_decide_eq_true hpa).trans (of_decide_eq_true hpb).symm)
  induction ordinal with
  | zero =>
    unfold suffixAt
    rw [hfi]
  | succ below ih =>
    unfold suffixAt
    simp only [hfi, ih]

end Winkyou.HardNat
