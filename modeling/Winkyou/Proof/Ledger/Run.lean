import Winkyou.Proof.Codec
import Winkyou.Proof.Ledger.Steps

/-!
# Runs of the ledger

Over any run of calls by any succession of owners, at any clock, the journal stays a
chain of valid records that every later owner can read (`WorldOK`, `reachable_ok`).

The one check of replay that depends on the reader is the circuit of a reset. The writer
skips its own pending admissions; a reader that counts them as failures sees the same
circuit open no later (`circuit_mono`), so it accepts the reset too.
-/

namespace Winkyou

open List Except Option

variable {sha : Sha256} {o : String} {w : World Journal} {a : Action Bool} {x : Record} {frame : Bytes}

/-! ## Actions -/

section Actions

variable {σ ω ω' : Type}

/-- The record that an action appends after it has read the journal, with its frame. -/
def Action.plan (sha : Sha256) (read : Time → Reading) (owner : String) :
    Action ω → Option (Record × Bytes)
  | .takeOver _ => none
  | .admitRequest now request _ => (planAdmit sha read owner now request).toOption
  | .finish now receipt reason _ => (planFinish sha read owner now receipt reason).toOption.join
  | .resetCircuit now expectedSequence note _ => (planReset sha read now expectedSequence note).toOption
  | .resetHardNATCampaignCircuit now expectedSequence note _ =>
    (planCampaignReset sha read now expectedSequence note).toOption

/-- The receipt that an action hands out once its record is synchronized. -/
def Action.issues (verified : Time → Reading) (owner : String) (x : Record) :
    Action ω → Option Receipt
  | .admitRequest _ request _ => (verifyAdmit (verified x.recordedAt) x owner request).toOption
  | _ => none

/-- What happens to the append of a call; a takeover makes none. -/
def Action.outcome : Action ω → Option ω
  | .takeOver _ => none
  | .admitRequest _ _ o | .finish _ _ _ o | .resetCircuit _ _ _ o | .resetHardNATCampaignCircuit _ _
      _ o => some o

/-- The world after an append: the receipt is handed out when the append is reported as
synchronized. -/
def World.after (S : Storage σ ω) (w : World σ) (a : Action ω') (x : Record) (r : σ × Bool) :
    World σ :=
  { w with
    journal := r.1
    receipts := (if r.2 then (a.issues (S.read r.1 w.owner) w.owner x).toList else []) ++ w.receipts }

theorem reset_journal (S : Storage σ ω) {α : Type} {statusAt : Snapshot → Time → α}
    {plan : Except LedgerErr (Record × Bytes)} {j : σ} {owner : String} {o : ω} :
    (S.reset j owner statusAt plan o).1 = plan.toOption.elim j fun p => (S.append j o p.1 p.2).1 := by
  cases plan with
  | error e => rfl
  | ok p =>
    simp only [Storage.reset, Except.toOption, Option.elim]
    cases S.append j o p.1 p.2 with
    | mk j b => cases b <;> rfl

/-- **A call** appends the record it plans. -/
theorem act_eq (S : Storage σ ω) (sha : Sha256) (w : World σ) {a : Action ω} {o : ω}
    (ho : a.outcome = some o) :
    w.act S sha a = match a.plan sha (S.read w.journal w.owner) w.owner with
      | none => w | some (x, frame) => w.after S a x (S.append w.journal o x frame) := by
  cases a with
  | takeOver _ => cases ho
  | admitRequest now request o' =>
    obtain rfl := some.inj ho
    simp only [World.act, Storage.admitRequest, Action.plan, World.after, Action.issues]
    rcases planAdmit sha (S.read w.journal w.owner) w.owner now request with e | p
    · rfl
    obtain ⟨x, frame⟩ := p
    simp only [Except.toOption]
    cases hj : S.append w.journal o' x frame with
    | mk j b =>
      cases b with
      | false => rfl
      | true =>
        simp only [if_true]
        cases verifyAdmit (S.read j w.owner x.recordedAt) x w.owner request <;> rfl
  | finish now receipt reason o' =>
    obtain rfl := some.inj ho
    simp only [World.act, Storage.finish, Action.plan, World.after, Action.issues]
    rcases planFinish sha (S.read w.journal w.owner) w.owner now receipt reason with e | p
    · rfl
    cases p with
    | none => rfl
    | some p =>
      obtain ⟨x, frame⟩ := p
      simp only [Except.toOption, join_some]
      cases hj : S.append w.journal o' x frame with
      | mk j b => cases b <;> rfl
  | resetCircuit now n note o' =>
    obtain rfl := some.inj ho
    simp only [World.act, Storage.resetCircuit, reset_journal, Action.plan]
    cases (planReset sha (S.read w.journal w.owner) now n note).toOption <;>
      simp [World.after, Action.issues]
  | resetHardNATCampaignCircuit now n note o' =>
    obtain rfl := some.inj ho
    simp only [World.act, Storage.resetHardNATCampaignCircuit, reset_journal, Action.plan]
    cases (planCampaignReset sha (S.read w.journal w.owner) now n note).toOption <;>
      simp [World.after, Action.issues]

theorem Action.takeOver_of_outcome {a : Action ω} (ho : a.outcome = none) :
    ∃ o, a = .takeOver o := by
  cases a with
  | takeOver o => exact ⟨o, rfl⟩
  | admitRequest | finish | resetCircuit | resetHardNATCampaignCircuit => cases ho

end Actions

/-- The record that an action appends, with its frame. -/
def World.appends (sha : Sha256) (w : World Journal) (a : Action Bool) : Option (Record × Bytes) :=
  a.plan sha (w.journal.read w.owner) w.owner

/-- **An action appends at most one record.** -/
theorem act_journal (sha : Sha256) (w : World Journal) (a : Action Bool) :
    (w.act journalStorage sha a).journal =
      match w.appends sha a with
      | some (x, frame) => w.journal.append x frame | none => w.journal := by
  cases ho : a.outcome with
  | none =>
    obtain ⟨o, rfl⟩ := Action.takeOver_of_outcome ho
    rfl
  | some o =>
    rw [act_eq journalStorage sha w ho]
    change (match w.appends sha a with | none => w | some (x, frame) => _).journal = _
    cases w.appends sha a <;> rfl

theorem toOption_eq_some {ε α : Type} {e : Except ε α} {v : α} (h : e.toOption = some v) :
    e = .ok v := by
  cases e with
  | error e => cases h
  | ok u => simpa [Except.toOption] using h

theorem appends_written (h : Readable w.journal w.owner) (hx : w.appends sha a = some (x, frame)) :
    Written sha w.journal w.owner x frame := by
  cases a with
  | takeOver o => cases hx
  | admitRequest now request ok => exact (planAdmit_written h (toOption_eq_some hx)).1
  | finish now receipt reason ok =>
    exact (planFinish_written h (toOption_eq_some (join_eq_some_iff.1 hx))).1
  | resetCircuit now n note ok => exact (planReset_written h (toOption_eq_some hx)).1
  | resetHardNATCampaignCircuit now n note ok =>
    exact (planCampaignReset_written h (toOption_eq_some hx)).1

/-- Only `Finish` appends a FINISH record, for the credential of a receipt of the caller. -/
theorem appends_finish (h : Readable w.journal w.owner) (hx : w.appends sha a = some (x, frame))
    (ht : x.type = .finish) : ∃ now receipt reason o, a = .finish now receipt reason o ∧
      x.credentialID = receipt.credentialID ∧ x.reason = reason ∧
        receipt.ownerInstanceID = w.owner := by
  cases a with
  | takeOver o => cases hx
  | admitRequest now request ok =>
    have hbu := (planAdmit_written h (toOption_eq_some hx)).2.1
    cases ht.symm.trans hbu
  | finish now receipt reason ok =>
    obtain ⟨-, -, hcr, -, hrea, hown⟩ := planFinish_written h (toOption_eq_some (join_eq_some_iff.1 hx))
    exact ⟨now, receipt, reason, ok, rfl, hcr, hrea, hown⟩
  | resetCircuit now n note ok =>
    have hre := (planReset_written h (toOption_eq_some hx)).2
    cases ht.symm.trans hre
  | resetHardNATCampaignCircuit now n note ok =>
    have hre := (planCampaignReset_written h (toOption_eq_some hx)).2
    cases ht.symm.trans hre

theorem ownerInstanceID_ne_empty (h : validatePairingOwnerInstanceID o = .ok ()) : o ≠ "" := by
  rintro rfl
  revert h
  decide

/-! ## The invariant -/

/-- **An owner instance that reads the journal**: the diagnostic reader, the current owner, or
an instance that has burned nothing. -/
def World.MayRead (w : World Journal) (o : String) : Prop :=
  o = "" ∨ o = w.owner ∨ ∀ b ∈ burns w.journal.records, b.ownerInstanceID ≠ o

/-- **The invariant of a run.** -/
structure WorldOK (w : World Journal) : Prop where
  chain : Chain w.journal.records
  ne : w.journal.records ≠ []
  valid : ∀ r ∈ w.journal.records, validatePairingJournalRecord r = .ok () ∧ r.expiresAt.isUTC = true
  replays : ∀ o, w.MayRead o → Replays o w.journal.records
  records_le : w.journal.records.length ≤ maxPairingLedgerRecords
  bytes_le : w.journal.bytes ≤ maxPairingLedgerBytes
  owner : w.owner ∈ w.owners ∧ w.owner ≠ ""
  owned : ∀ b ∈ burns w.journal.records, b.ownerInstanceID ∈ w.owners
  receipts : ∀ q ∈ w.receipts, ∃ b ∈ burns w.journal.records,
    b.credentialID = q.credentialID ∧ b.ownerInstanceID = q.ownerInstanceID

theorem WorldOK.readable (h : WorldOK w) (ho : w.MayRead o) : Readable w.journal o :=
  ⟨h.chain, h.ne, h.replays o ho, h.records_le, h.bytes_le⟩

theorem WorldOK.readable_owner (h : WorldOK w) : Readable w.journal w.owner :=
  h.readable (.inr (.inl rfl))

theorem WorldOK.times (h : WorldOK w) : ∀ r ∈ w.journal.records, r.recordedAt.nanos ≠ 0 :=
  fun r hr => (valid_time (h.valid r hr).1).1

/-- **A reset that its writer accepts is accepted by every later reader.** -/
theorem WorldOK.resetOK (h : WorldOK w) (ho : w.MayRead o)
    (hr : ResetOK w.journal.records w.owner x) : ResetOK w.journal.records o x := by
  intro ht
  have hx := hr ht
  have hsub : ∀ c, ∀ b ∈ pendingBurns c w.journal.records, Foreign w.owner b = true →
    Foreign o b = true := by
    intro c b hb hf
    rcases ho with rfl | rfl | ho
    · simp [Foreign]
    · exact hf
    · simp [Foreign, ho b (mem_pendingBurns hb).1]
  have hmo : ∀ c, openedAt w.journal.records w.owner c ≠ 0 →
      openedAt w.journal.records o c ≠ 0 ∧
        openedAt w.journal.records o c ≤ openedAt w.journal.records w.owner c := by
    intro c hc
    rw [openedAt_eq h.chain] at hc
    rw [openedAt_eq h.chain, openedAt_eq h.chain]
    exact circuit_mono h.chain h.times (hsub c) hc
  split at hx
  · rw [if_pos ‹_›]
    exact (hmo _ hx).1
  · rw [if_neg ‹_›]
    obtain ⟨h1, h2⟩ := hmo _ hx.1
    exact ⟨h1, by omega⟩

theorem initial_ok (h : w.Initial sha) : WorldOK w := by
  obtain ⟨now, rebuild, frame, owner, henc, hown, rfl⟩ := h
  have hlen := encode_length henc
  have hty : (firstRecord now rebuild).type = .init ∨ (firstRecord now rebuild).type =
    .rebuildBaseline := by
    cases rebuild
    · exact .inl rfl
    · exact .inr rfl
  have hbu : burns [firstRecord now rebuild] = [] := by
    rcases hty with ht | ht <;> simp [burns, ht]
  have hfol : Follows [] (firstRecord now rebuild) := by
    refine ⟨rfl, fun hne => absurd rfl hne, ?_⟩
    rcases hty with ht | ht <;> simp [FitsType, ht]
  refine ⟨Chain.snoc Chain.nil hfol, by simp, ?_, ?_, ?_, ?_, ?_, ?_, by simp⟩
  · intro r hr
    rw [mem_singleton.1 hr]
    exact ⟨encode_valid henc, rfl⟩
  · intro o _
    have hnil : Replays o ([] ++ [firstRecord now rebuild]) := by
      refine replays_concat.2 ⟨fun P r S hS => ?_, fun ht => ?_⟩
      · simp at hS
      · rcases hty with h | h <;> rw [h] at ht <;> cases ht
    exact hnil
  · simp [maxPairingLedgerRecords]
  · simp only [maxPairingLedgerFrameBytes, maxPairingLedgerBytes] at hlen ⊢; omega
  · exact ⟨by simp, ownerInstanceID_ne_empty hown⟩
  · simp [hbu]

theorem WorldOK.append (h : WorldOK w) (hx : Written sha w.journal w.owner x frame) :
    WorldOK { w with journal := w.journal.append x frame } := by
  have hbu : burns (w.journal.append x frame).records = burns w.journal.records ++ burns [x] :=
    burns_append ..
  have hmem : ∀ b ∈ burns w.journal.records, b ∈ burns (w.journal.append x frame).records := by
    intro b hb; rw [hbu]; exact mem_append_left _ hb
  refine ⟨Chain.snoc h.chain hx.follows, by simp [Journal.append], ?_, ?_, ?_, ?_, h.owner, ?_, ?_⟩
  · exact forall_mem_append.2 ⟨h.valid, forall_mem_singleton.2 ⟨encode_valid hx.encoded, hx.utc⟩⟩
  · intro o ho
    -- a reader of the longer journal was one of the shorter
    have ho' : w.MayRead o := by
      rcases ho with ho | ho | ho
      · exact .inl ho
      · exact .inr (.inl ho)
      · exact .inr (.inr fun b hb => ho b (hmem b hb))
    exact replays_concat.2 ⟨h.replays o ho', h.resetOK ho' hx.reset⟩
  · simpa [Journal.append] using hx.records_le
  · exact hx.bytes_le
  · intro b hb
    rw [hbu] at hb
    rcases mem_append.1 hb with hb | hb
    · exact h.owned b hb
    · obtain ⟨hbx, ht⟩ := mem_burns.1 hb
      rw [mem_singleton.1 hbx] at ht ⊢
      rw [hx.owner ht]
      exact h.owner.1
  · intro q hq
    obtain ⟨b, hb, hqb⟩ := h.receipts q hq
    exact ⟨b, hmem b hb, hqb⟩

theorem verifyAdmit_ok {verified : Reading} {request : AdmissionRequest} {q : Receipt}
    (h : verifyAdmit verified x o request = .ok q) :
    q.credentialID = request.credentialID ∧ q.ownerInstanceID = o := by
  unfold verifyAdmit at h
  split at h
  · cases h
  split at h
  · split at h
    · obtain rfl := ok.inj h
      exact ⟨rfl, rfl⟩
    · cases h
  · cases h

theorem issues_burn {j : Journal} {verified : Time → Reading} {q : Receipt} (h : Readable j o)
    (hx : a.plan sha (j.read o) o = some (x, frame)) (hq : a.issues verified o x = some q) :
    x.type = .burnAndAdmit ∧ x.credentialID = q.credentialID ∧
      x.ownerInstanceID = q.ownerInstanceID := by
  cases a with
  | takeOver | finish | resetCircuit | resetHardNATCampaignCircuit => cases hq
  | admitRequest now request ok =>
    obtain ⟨hwr, hty, hcr, -⟩ := planAdmit_written h (toOption_eq_some hx)
    obtain ⟨hc, ho⟩ := verifyAdmit_ok (toOption_eq_some hq)
    exact ⟨hty, hcr.trans hc.symm, (hwr.owner hty).trans ho.symm⟩

theorem WorldOK.takeOver (h : WorldOK w) (hfr : o ∉ w.owners)
    (hva : validatePairingOwnerInstanceID o = .ok ()) :
    WorldOK { w with owner := o, owners := o :: w.owners } := by
  refine ⟨h.chain, h.ne, h.valid, ?_, h.records_le, h.bytes_le,
    ⟨by simp, ownerInstanceID_ne_empty hva⟩, ?_, h.receipts⟩
  · intro o' ho'
    refine h.replays o' ?_
    rcases ho' with ho' | ho' | ho'
    · exact .inl ho'
    · -- the new owner has burned nothing
      refine .inr (.inr fun b hb hbo => hfr ?_)
      have hbo' : b.ownerInstanceID = o := hbo.trans ho'
      exact hbo' ▸ h.owned b hb
    · exact .inr (.inr ho')
  · intro b hb
    exact mem_cons_of_mem _ (h.owned b hb)

/-- **Every action keeps the invariant.** -/
theorem act_ok (h : WorldOK w) (hl : a.legal w) : WorldOK (w.act journalStorage sha a) := by
  rcases ho : a.outcome with _ | o
  · obtain ⟨o, rfl⟩ := Action.takeOver_of_outcome ho
    exact h.takeOver hl.1 hl.2
  rw [act_eq journalStorage sha w ho]
  rcases hx : a.plan sha (journalStorage.read w.journal w.owner) w.owner with _ | p
  · exact h
  obtain ⟨x, frame⟩ := p
  have hok := h.append (appends_written h.readable_owner hx)
  refine { hok with receipts := ?_ }
  intro q hq
  rcases mem_append.1 hq with hq | hq
  · split at hq
    · obtain ⟨hty, hcr, hown⟩ := issues_burn h.readable_owner hx (mem_toList.1 hq)
      exact ⟨x, by simp [World.after, journalStorage, Journal.append, hty], hcr, hown⟩
    · cases hq
  · exact hok.receipts q hq

/-- **Every reachable world satisfies the invariant.** -/
theorem reachable_ok (h : World.Reachable sha w) : WorldOK w := by
  induction h with
  | init h => exact initial_ok h
  | act a _ hl ih => exact act_ok ih hl

/-! ## Runs of actions -/

def World.run (sha : Sha256) (w : World Journal) (as : List (Action Bool)) : World Journal :=
  as.foldl (fun w a => w.act journalStorage sha a) w

theorem run_concat (p : List (Action Bool)) (a : Action Bool) :
    w.run sha (p ++ [a]) = (w.run sha p).act journalStorage sha a := by
  simp [World.run]

/-- Every action of a list is legal when it is taken, and `P` holds at the end. -/
def World.Along (sha : Sha256) (P : World Journal → Prop) :
    World Journal → List (Action Bool) → Prop
  | w, [] => P w
  | w, a :: as => a.legal w ∧ World.Along sha P (w.act journalStorage sha a) as

instance World.decidableAlong (sha : Sha256) (P : World Journal → Prop) [DecidablePred P] :
    (w : World Journal) → (as : List (Action Bool)) → Decidable (World.Along sha P w as)
  | w, [] => inferInstanceAs (Decidable (P w))
  | w, a :: as =>
    have := World.decidableAlong sha P (w.act journalStorage sha a) as
    inferInstanceAs (Decidable (a.legal w ∧ World.Along sha P (w.act journalStorage sha a) as))

theorem along_run {P : World Journal → Prop} {as : List (Action Bool)} (hw : World.Reachable sha w)
    (h : World.Along sha P w as) : World.Reachable sha (w.run sha as) ∧ P (w.run sha as) := by
  induction as generalizing w with
  | nil => exact ⟨hw, h⟩
  | cons a as ih => exact ih (.act a hw h.1) h.2

/-! ## A sample run

The first owner burns two credentials and dies; the second burns two more, and finishes
one as a failure. -/

/-- A hash for samples. -/
def zeroSha : Sha256 := fun _ => zeroDigest

namespace LateSuccess

def base : Time := ⟨63900000000 * second, true⟩

/-- Seconds after the start of the sample. -/
def at_ (seconds : ℤ) : Time := base.add (seconds * second)

def envelope : Envelope := ⟨1, 1, 1, 1, 1, 1000, false⟩

def digest : String := String.ofList (replicate 64 '0')

def ownerA : String := String.ofList (replicate 32 'a')

def ownerB : String := String.ofList (replicate 32 'b')

def opaqueID (c : Char) : String := String.ofList (c :: replicate 21 'A')

/-- An ordinary admission request. -/
def request (cred attempt : Char) (seconds : ℤ) : AdmissionRequest :=
  ⟨.ordinary, opaqueID cred, opaqueID attempt, digest, .machine, at_ (seconds + 300), envelope⟩

def receipt (sequence : ℕ) (cred attempt : Char) (seconds : ℤ) : Receipt :=
  ⟨sequence, .ordinary, opaqueID cred, opaqueID attempt, digest, ownerB, at_ seconds⟩

def start : World Journal where
  journal := ⟨[firstRecord base false],
    ((encodePairingJournalFrame zeroSha (firstRecord base false)).toOption.getD []).length⟩
  owner := ownerA
  owners := [ownerA]

/-- The calls up to the failure that opens the circuit. -/
def calls : List (Action Bool) :=
  [.admitRequest (at_ 60) (request 'A' 'B' 60) true, .admitRequest (at_ 120) (request 'C' 'D' 120) true,
    .takeOver ownerB,
    .admitRequest (at_ 180) (request 'E' 'F' 180) true,
    .admitRequest (at_ 240) (request 'G' 'H' 240) true,
    .finish (at_ 300) (receipt 4 'E' 'F' 180) .carrierError true]

/-- The success that closes it. -/
def success : Action Bool := .finish (at_ 360) (receipt 5 'G' 'H' 240) .success true

/-- The opened-at time is zero in the view of the current owner. -/
def closed (w : World Journal) : Option Bool :=
  (buildPairingLedgerSnapshot w.journal.records w.journal.bytes w.owner).toOption.map fun s =>
    (s.failureState .ordinary).2.isZero

theorem start_initial : start.Initial zeroSha := by
  have hok : (encodePairingJournalFrame zeroSha (firstRecord base false)).isOk =
    true := by decide +kernel
  have hown : validatePairingOwnerInstanceID ownerA = .ok () := by decide +kernel
  obtain ⟨frame, hfr⟩ := exists_ok_of_isOk hok
  exact ⟨base, false, frame, ownerA, hfr, hown, by simp [start, hfr, Except.toOption]⟩

theorem start_reachable : World.Reachable zeroSha start := .init start_initial

theorem calls_evaluated :
    World.Along zeroSha (fun w => closed w = some false ∧ receipt 5 'G' 'H' 240 ∈ w.receipts ∧
      closed (w.act journalStorage zeroSha success) = some true ∧
      (burns w.journal.records).length = 4) start calls := by
  decide +kernel

theorem reached : ∃ w, World.Reachable zeroSha w ∧ closed w = some false ∧
    receipt 5 'G' 'H' 240 ∈ w.receipts ∧
    closed (w.act journalStorage zeroSha success) = some true ∧ (burns w.journal.records).length = 4 :=
  ⟨_, along_run start_reachable calls_evaluated⟩

end LateSuccess

/-! ## The journal is never lost -/

/-- **Every journal the ledger writes can be read back by every later owner**: by the current
owner, by an instance that has burned nothing, and without an owner id. Replay succeeds,
with exactly the records written, and at no time is the journal indeterminate. -/
theorem journal_readable_by_later_owners (hw : World.Reachable sha w) {o : String}
    (ho : w.MayRead o) :
    (∃ s, buildPairingLedgerSnapshot w.journal.records w.journal.bytes o = .ok s ∧
      s.records = w.journal.records ∧ s.ownerInstanceID = o) ∧
    ∀ now, (journalStorage.read w.journal o now).snapshot.status.state ≠ .indeterminate ∧
      (journalStorage.read w.journal o now).snapshot.status.state ≠ .notInitialized := by
  have h := reachable_ok hw
  have hr := h.readable ho
  refine ⟨⟨_, build_ok hr.chain hr.replays hr.ne, rfl, rfl⟩, fun now => ?_⟩
  have hs : (journalStorage.read w.journal o now).snapshot = readSnap w.journal o now :=
    congrArg Reading.snapshot hr.read_eq
  rw [hs]
  exact readSnap_live.symm

/-- The journal of the sample run once its circuit is reset, for a reader without an owner id. -/
theorem sample_journal_readable :
    ∃ w, World.Reachable zeroSha w ∧ (burns w.journal.records).length = 4 ∧
    (w.journal.records.map (·.type)).getLast? = some .circuitReset ∧
    ∃ s, buildPairingLedgerSnapshot w.journal.records w.journal.bytes "" = .ok s ∧
      s.records = w.journal.records := by
  have hreset : World.Along zeroSha (fun w => (burns w.journal.records).length = 4 ∧
      (w.journal.records.map (·.type)).getLast? = some .circuitReset) LateSuccess.start
      (LateSuccess.calls ++ [.resetCircuit (LateSuccess.at_ 90000) 6 "checked" true]) := by
        decide +kernel
  obtain ⟨hw, hburns, hlast⟩ := along_run LateSuccess.start_reachable hreset
  obtain ⟨⟨s, hs, hr, -⟩, -⟩ := journal_readable_by_later_owners hw (.inl rfl)
  exact ⟨_, hw, hburns, hlast, s, hs, hr⟩

end Winkyou
