import Winkyou.Lib.Dedup
import Winkyou.Spec.HardNat.Evidence

/-!
# What the loops of normalization accept

A loop keeps the first entry of each transaction and the record it was accepted with. So a loop that
succeeds determines the record of every local entry (`Dedup.Accepted`).

* `acceptEntries_accepted`: the loops over single entries.
* `acceptTranscripts_accepted`: the loop over transcripts.
-/

namespace Winkyou.HardNat

open Except (failIf bind_ok_iff failIf_ok_iff)
open Dedup (Accepted Round Rule keys keys_append mem_keys)

variable {graph : EvidenceGraph} {manifest : List IssuedTransaction} {seen seen' : Seen}
  {transcript : RFC5780Transcript}
  {t : TransactionID} {machine next : RFC5780Machine}

theorem lookup_eq_none : seen.lookup t = none ↔ t ∉ keys seen := by
  rw [List.lookup_eq_none_iff]
  simp only [keys, List.mem_map, not_exists, not_and, bne_iff_ne, ne_eq]
  exact ⟨fun h p hp heq => h p hp heq.symm, fun h p hp heq => h p hp heq.symm⟩

theorem mem_of_lookup {r : Bytes} (h : seen.lookup t = some r) : (t, r) ∈ seen := by
  obtain ⟨l₁, l₂, rfl, -⟩ := List.lookup_eq_some_iff.1 h
  simp

/-! ## One binding -/

/-- The manifest has an entry that agrees with the binding. -/
def Issued (manifest : List IssuedTransaction) (b : Binding) : Prop :=
  ∃ issued, issuedFor manifest b.transaction = some issued ∧ b.matches issued = true

theorem acceptBound_ok_iff {b : Binding} {duplicate : Bool} :
    acceptBound manifest seen b = .ok (duplicate, seen') ↔ Issued manifest b ∧
      (duplicate = true ∧ seen.lookup b.transaction = some b.record ∧ seen' = seen ∨
        duplicate = false ∧ b.transaction ∉ keys seen ∧
          seen' = seen ++ [(b.transaction, b.record)]) := by
  unfold acceptBound Issued
  rcases hiss : issuedFor manifest b.transaction with _ | issued
  · simp
  rcases hma : b.matches issued with _ | _
  · simp [hma]
  rw [← lookup_eq_none]
  cases hloo : seen.lookup b.transaction with
  | none =>
    simp only [hma, Bool.true_eq_false, if_false, Except.ok.injEq, Prod.mk.injEq, Option.some.injEq,
      exists_eq_left', true_and, reduceCtorEq, false_and, and_false, false_or]
    exact and_congr eq_comm eq_comm
  | some previous =>
    by_cases hrec : previous = b.record
    · simp only [hma, hrec, Bool.true_eq_false, if_false, if_true, Except.ok.injEq, Prod.mk.injEq,
        Option.some.injEq, exists_eq_left', true_and, reduceCtorEq, false_and, and_false, or_false]
      exact and_congr eq_comm eq_comm
    · simp [hma, hrec]

/-! ## Single entries -/

section Entries

variable {α : Type} {k : EntryKind α} {entries kept : List α}

def EntryKind.isLocal (k : EntryKind α) (entry : α) : Prop :=
  (k.md entry).origin ≠ .known .remoteReport

/-- What the loop checks of every local entry. -/
structure EntryOK (k : EntryKind α) (graph : EvidenceGraph) (manifest : List IssuedTransaction)
    (entry : α) : Prop where
  admissible : k.admissible entry = true
  actionable : actionableMeta (k.md entry) graph = true
  issued : Issued manifest (k.binding entry)

/-- What the loop over entries of one kind does. -/
def EntryKind.rule (k : EntryKind α) (graph : EvidenceGraph) (manifest : List IssuedTransaction) :
    Rule α α TransactionID Bytes :=
  .single k.isLocal (EntryOK k graph manifest) fun entry => ((k.md entry).transactionID, k.encode entry)

theorem acceptEntry_round {acc acc' : List α × Seen} {entry : α}
    (h : acceptEntry k graph manifest acc entry = .ok acc') :
    ∃ out, Round (k.rule graph manifest) acc.2 entry out acc'.2 ∧ acc'.1 = acc.1 ++ out.toList := by
  unfold acceptEntry at h
  split at h
  · rename_i hrem
    cases h
    exact ⟨none, .skipped fun hlo => hlo hrem, by simp⟩
  · rename_i hlo
    simp only [bind_ok_iff, failIf_ok_iff, not_or, Bool.not_eq_false] at h
    obtain ⟨⟨⟩, ⟨hadm, hact⟩, ⟨duplicate, seen'⟩, hbo, hacc⟩ := h
    obtain ⟨hiss, hca⟩ := acceptBound_ok_iff.1 hbo
    have hok : EntryOK k graph manifest entry := ⟨hadm, hact, hiss⟩
    rcases hca with ⟨rfl, hloo, rfl⟩ | ⟨rfl, hnew, rfl⟩
    · cases hacc
      exact ⟨none, .repeated hlo hok (List.forall_mem_singleton.2 (mem_of_lookup hloo)), by simp⟩
    · cases hacc
      exact ⟨some entry, .kept hlo hok (List.forall_mem_singleton.2 hnew) rfl, rfl⟩

/-- **What a loop over single entries does, when it succeeds.** -/
theorem acceptEntries_accepted (hno : (keys seen).Nodup)
    (h : acceptEntries k graph manifest entries seen = .ok (kept, seen')) :
    Accepted (k.rule graph manifest) seen entries kept seen' := by
  obtain ⟨outs, rfl, hacc⟩ := Dedup.accepted_of_foldlM (r := k.rule graph manifest)
    (I := fun _ outs kept => kept = outs) (fun hI _ hst => by
      obtain ⟨out, hro, heq⟩ := acceptEntry_round hst
      exact ⟨out, hro, hI ▸ heq⟩) rfl hno h
  exact hacc

end Entries

/-! ## Transcripts -/

def RFC5780Transcript.transactions (transcript : RFC5780Transcript) : List TransactionID :=
  transcript.exchanges.toList.map (·.transactionID)

def RFC5780Transcript.isLocal (transcript : RFC5780Transcript) : Prop :=
  transcript.origin ≠ .known .remoteReport

/-- What a binding is accepted as. -/
def Binding.item (b : Binding) : TransactionID × Bytes := (b.transaction, b.record)

theorem transcriptBindings_transactions (transcript : RFC5780Transcript) :
    (transcriptBindings transcript).map (·.transaction) = transcript.transactions := by
  unfold transcriptBindings RFC5780Transcript.transactions
  rw [List.map_map]
  calc (transcript.exchanges.toList.zipIdx.map _)
      = (transcript.exchanges.toList.zipIdx.map Prod.fst).map (·.transactionID) := by
        rw [List.map_map]; rfl
    _ = _ := by rw [List.zipIdx_map_fst]

theorem transactions_length (transcript : RFC5780Transcript) :
    transcript.transactions.length = rfc5780ExchangeCount := by
  simp [RFC5780Transcript.transactions]

/-! ### The transactions of a transcript that derives are distinct -/

theorem deriveExchange_transactions {item : StepName × RFC5780Exchange}
    (h : deriveExchange machine item = .ok next) :
    item.2.transactionID ∉ machine.transactions ∧
      next.transactions = item.2.transactionID :: machine.transactions := by
  unfold deriveExchange observeExchange RFC5780Machine.advance at h
  simp only [bind_ok_iff] at h
  obtain ⟨observation, ⟨_, -, _, -, _, -, attributes, -, hobs⟩, _, -, _, -, _, hnew, _, -, next', -,
    hne⟩ := h
  cases hobs
  cases hne
  exact ⟨failIf_ok_iff.1 hnew, rfl⟩

theorem foldlM_deriveExchange_transactions {items : List (StepName × RFC5780Exchange)}
    (h : items.foldlM deriveExchange machine = .ok next) (hno : machine.transactions.Nodup) :
    next.transactions.Nodup ∧ next.transactions = (items.map (·.2.transactionID)).reverse ++
      machine.transactions := by
  induction items generalizing machine with
  | nil =>
    cases h
    exact ⟨hno, rfl⟩
  | cons item items ih =>
    rw [List.foldlM_cons] at h
    obtain ⟨mid, hmid, hre⟩ := bind_ok_iff.1 h
    obtain ⟨hnew, hmidT⟩ := deriveExchange_transactions hmid
    obtain ⟨hne, heq⟩ := ih hre (hmidT ▸ List.nodup_cons.2 ⟨hnew, hno⟩)
    exact ⟨hne, by rw [heq, hmidT]; simp⟩

theorem derive_transactions_nodup {derived : DerivedTranscript}
    (h : deriveRFC5780Transcript transcript = .ok derived) : transcript.transactions.Nodup := by
  unfold deriveRFC5780Transcript at h
  obtain ⟨machine, hmac, -⟩ := bind_ok_iff.1 h
  obtain ⟨hno, heq⟩ := foldlM_deriveExchange_transactions hmac List.nodup_nil
  have hfi : transcript.exchanges.toList.length ≤ orderedRFC5780Steps.length :=
    transcript.exchanges.length_toList.le
  have hzip : (orderedRFC5780Steps.zip transcript.exchanges.toList).map (·.2.transactionID) =
    transcript.transactions := by
    calc _ = ((orderedRFC5780Steps.zip transcript.exchanges.toList).map Prod.snd).map
          (·.transactionID) := by
          rw [List.map_map]; rfl
      _ = _ := by rw [List.map_snd_zip hfi]; rfl
  rw [heq, hzip, newRFC5780Machine, List.append_nil] at hno
  exact List.nodup_reverse.1 hno

/-! ### Five bindings in turn -/

/-- What the loop over the bindings of a transcript does. -/
def bindingRule (manifest : List IssuedTransaction) : Rule Binding Binding TransactionID Bytes :=
  .single (fun _ => True) (Issued manifest) Binding.item

theorem foldlM_countBound_ok {bs : List Binding} {n : ℕ} (hno : (keys seen).Nodup)
    (h : bs.foldlM (countBound manifest) (0, seen) = .ok (n, seen')) :
    ∃ new, n + new.length = bs.length ∧ Accepted (bindingRule manifest) seen bs new seen' := by
  refine Dedup.accepted_of_foldlM (I := fun bs new n => n + new.length = bs.length) ?_ rfl hno h
  intro bs new acc acc' b hI _ hst
  unfold countBound at hst
  obtain ⟨⟨duplicate, seen'⟩, hbo, hacc⟩ := bind_ok_iff.1 hst
  obtain ⟨hiss, hca⟩ := acceptBound_ok_iff.1 hbo
  cases hacc
  rcases hca with ⟨rfl, hloo, rfl⟩ | ⟨rfl, hnew, rfl⟩
  · exact ⟨none, .repeated trivial hiss (List.forall_mem_singleton.2 (mem_of_lookup hloo)), by
      simp; omega⟩
  · exact ⟨some b, .kept trivial hiss (List.forall_mem_singleton.2 hnew) rfl, by simp; omega⟩

/-! ### The loop -/

/-- What the loop checks of every local transcript. -/
structure TranscriptOK (manifest : List IssuedTransaction) (transcript : RFC5780Transcript) : Prop where
  origin : transcript.origin = .known .localTransaction
  derives : ∃ derived, deriveRFC5780Transcript transcript = .ok derived
  issued : ∀ b ∈ transcriptBindings transcript, Issued manifest b

def Reads (graph : EvidenceGraph) (transcript : RFC5780Transcript) (reading : Reading) : Prop :=
  ∃ derived, deriveRFC5780Transcript transcript = .ok derived ∧
    reading = readTranscript graph transcript derived

theorem Reads.transcript_eq {reading : Reading} (h : Reads graph transcript reading) :
    reading.transcript = transcript := by
  obtain ⟨derived, -, rfl⟩ := h
  rfl

/-- What a transcript adds to the accepted records. -/
def RFC5780Transcript.items (transcript : RFC5780Transcript) : Seen :=
  (transcriptBindings transcript).map Binding.item

theorem keys_items (transcript : RFC5780Transcript) :
    keys transcript.items = transcript.transactions := by
  rw [← transcriptBindings_transactions, RFC5780Transcript.items, keys, List.map_map]
  rfl

theorem bindings_length (transcript : RFC5780Transcript) :
    (transcriptBindings transcript).length = rfc5780ExchangeCount := by
  rw [← transactions_length transcript, ← transcriptBindings_transactions, List.length_map]

/-- What the loop over transcripts does: a local transcript is wholly new or wholly repeated. -/
def transcriptRule (graph : EvidenceGraph) (manifest : List IssuedTransaction) :
    Rule RFC5780Transcript Reading TransactionID Bytes where
  takes := RFC5780Transcript.isLocal
  checked := TranscriptOK manifest
  items := RFC5780Transcript.items
  keeps := Reads graph
  source := Reading.transcript
  items_ne_nil transcript := List.ne_nil_of_length_pos (by
    rw [RFC5780Transcript.items, List.length_map, bindings_length]
    decide)
  items_nodup hok := by
    obtain ⟨derived, hderived⟩ := hok.derives
    rw [keys_items]
    exact derive_transactions_nodup hderived
  source_eq := Reads.transcript_eq

theorem mem_keys_transcript :
    t ∈ keys ((transcriptRule graph manifest).items transcript) ↔ t ∈ transcript.transactions :=
  iff_of_eq (congrArg (t ∈ ·) (keys_items transcript))

theorem acceptTranscript_round {acc acc' : List Reading × Seen}
    (hno : (keys acc.2).Nodup) (h : acceptTranscript graph manifest acc transcript = .ok acc') :
    ∃ out, Round (transcriptRule graph manifest) acc.2 transcript out acc'.2 ∧
      acc'.1 = acc.1 ++ out.toList := by
  unfold acceptTranscript at h
  split at h
  · rename_i hrem
    cases h
    exact ⟨none, .skipped fun hlo => hlo hrem, by simp⟩
  rename_i hlo
  simp only [bind_ok_iff, failIf_ok_iff, not_not] at h
  obtain ⟨⟨⟩, hori, derived, hder, ⟨duplicates, seen'⟩, hco, ⟨⟩, hwh, hacc⟩ := h
  obtain ⟨new, hlen, hbin⟩ := foldlM_countBound_ok hno hco
  have hok : TranscriptOK manifest transcript :=
    ⟨hori, ⟨derived, hder⟩, fun b hb => (hbin.ok b hb trivial).1⟩
  have hse := hbin.seen_eq
  rw [bindings_length] at hlen
  by_cases hall : duplicates = rfc5780ExchangeCount
  · -- nothing was new, so nothing was added
    rw [List.eq_nil_of_length_eq_zero (show new.length = 0 by omega), List.flatMap_nil,
      List.append_nil] at hse
    rw [if_pos hall] at hacc
    cases hacc
    subst hse
    refine ⟨none, .repeated hlo hok fun item hitem => ?_, by simp⟩
    obtain ⟨b, hb, rfl⟩ := List.mem_map.1 hitem
    exact (hbin.ok b hb trivial).2 List.mem_cons_self
  · have hnew : new = transcriptBindings transcript := by
      have hsub := hbin.sublist.eq_of_length (by rw [List.length_map, bindings_length]; omega)
      exact (List.map_id new).symm.trans hsub
    have hit : new.flatMap (fun b => [b.item]) = transcript.items := by
      rw [hnew, ← List.map_eq_flatMap]
      rfl
    rw [if_neg hall] at hacc
    cases hacc
    have hse' : seen' = acc.2 ++ transcript.items := hse.trans (congrArg _ hit)
    have hke := hbin.nodup
    rw [hse', keys_append, List.nodup_append] at hke
    subst hse'
    exact ⟨some (readTranscript graph transcript derived), .kept hlo hok
      (fun k hk hmem => hke.2.2 k hmem k hk rfl) ⟨derived, hder, rfl⟩, rfl⟩

variable {transcripts : List RFC5780Transcript} {readings : List Reading}

/-- **What the loop over transcripts does, when it succeeds.** -/
theorem acceptTranscripts_accepted (hno : (keys seen).Nodup)
    (h : transcripts.foldlM (acceptTranscript graph manifest) ([], seen) = .ok (readings, seen')) :
    Accepted (transcriptRule graph manifest) seen transcripts readings seen' := by
  obtain ⟨outs, rfl, hacc⟩ := Dedup.accepted_of_foldlM (r := transcriptRule graph manifest)
    (I := fun _ outs readings => readings = outs) (fun hI hno hst => by
      obtain ⟨out, hro, heq⟩ := acceptTranscript_round hno hst
      exact ⟨out, hro, hI ▸ heq⟩) rfl hno h
  exact hacc

end Winkyou.HardNat
