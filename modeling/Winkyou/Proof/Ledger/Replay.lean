import Winkyou.Proof.Ledger.Status

/-!
# Replay is a function of the records

`buildPairingLedgerSnapshot` threads a snapshot through the records and fails at the
first bad one. Here the snapshot is given in closed form (`view`): it depends on the
records alone, and the owner id is only copied into it.

* `JournalOK`: the shape of every journal that replays.
* `Follows`: what replay asks of the next record, apart from the circuit of a reset.
* `replayRecord_view`: one step of replay, in these terms.
* `build_ok_iff`: a journal replays for an owner iff every record follows the ones before
  it and every reset finds the circuit open in that owner's view.
-/

namespace Winkyou

open List Snapshot Except

variable {R : List Record} {r : Record} {bytes : ℕ} {o : String}

/-! ## The closed form -/

def burns (R : List Record) : List Record := R.filter (·.type = .burnAndAdmit)

def finishes (R : List Record) : List Record := R.filter (·.type = .finish)

def finishOf (R : List Record) (credentialID : String) : Option Record :=
  (finishes R).find? (·.credentialID = credentialID)

def Finished (R : List Record) (credentialID : String) : Prop := (finishOf R credentialID).isSome

instance (R : List Record) (credentialID : String) : Decidable (Finished R credentialID) :=
  inferInstanceAs (Decidable ((finishOf R credentialID).isSome = true))

/-- The time of the rebuild baseline, or zero. -/
def rebuiltAt (R : List Record) : Time :=
  R.foldl (fun t r => if r.type = .rebuildBaseline then r.recordedAt else t) .zero

def highWater (R : List Record) : Time :=
  R.foldl (fun t r => if r.recordedAt.after t then r.recordedAt else t) .zero

/-- **The snapshot that replay computes**, before its final status. -/
def view (R : List Record) (bytes : ℕ) (o : String) : Snapshot where
  status := { state := .ready }
  records := R
  admissionOrder := (burns R).map fun b => ⟨b, finishOf R b.credentialID⟩
  rebuildAt := rebuiltAt R
  bytes := bytes
  highWatermark := highWater R
  ownerInstanceID := o

@[simp] theorem burns_append (R S : List Record) : burns (R ++ S) = burns R ++ burns S :=
  filter_append ..

@[simp] theorem finishes_append (R S : List Record) :
    finishes (R ++ S) = finishes R ++ finishes S :=
  filter_append ..

variable {b f : Record}

@[simp] theorem mem_burns : b ∈ burns R ↔ b ∈ R ∧ b.type = .burnAndAdmit := by
  simp [burns]

@[simp] theorem mem_finishes : f ∈ finishes R ↔ f ∈ R ∧ f.type = .finish := by
  simp [finishes]

/-- A credential is finished by a record of its own. -/
theorem finished_iff {c : String} :
    Finished R c ↔ ∃ f ∈ R, f.type = .finish ∧ f.credentialID = c := by
  simp [Finished, finishOf, and_assoc]

theorem finished_concat {c : String} :
    Finished (R ++ [x]) c ↔ Finished R c ∨ x.type = .finish ∧ x.credentialID = c := by
  simp [finished_iff, or_and_right, exists_or]

theorem highWater_concat : highWater (R ++ [r]) =
    if r.recordedAt.after (highWater R) then r.recordedAt else highWater R := by
  simp [highWater]

/-- The last baseline counts. -/
theorem rebuiltAt_concat :
    rebuiltAt (R ++ [r]) = if r.type = .rebuildBaseline then r.recordedAt else rebuiltAt R := by
  simp [rebuiltAt]

theorem highWater_le_iff {last : ℤ} :
    (highWater R).nanos ≤ last ↔ 0 ≤ last ∧ ∀ r ∈ R, r.recordedAt.nanos ≤ last :=
  latest_le_iff

theorem recordedAt_le_highWater (hb : b ∈ R) : b.recordedAt.nanos ≤ (highWater R).nanos :=
  (highWater_le_iff.1 le_rfl).2 b hb

/-! ## Lookups in the view -/

theorem view_admissions (c : String) : (view R bytes o).admissions c =
    ((burns R).find? (·.credentialID = c)).map fun b => ⟨b, finishOf R b.credentialID⟩ := by
  simp only [admissions, view, find?_map]
  congr 1

theorem view_attempts (c : String) : (view R bytes o).attempts c =
    ((burns R).find? (·.attemptID = c)).map fun b => ⟨b, finishOf R b.credentialID⟩ := by
  simp only [attempts, view, find?_map]
  congr 1

/-- The view knows the credentials that were burnt. -/
theorem view_admissions_isSome (c : String) : ((view R bytes o).admissions c).isSome ↔
    ∃ b ∈ burns R, b.credentialID = c := by
  simp [view_admissions]

theorem view_attempts_isSome (c : String) :
    ((view R bytes o).attempts c).isSome ↔ ∃ b ∈ burns R, b.attemptID = c := by
  simp [view_attempts]

/-! ## Journals that replay -/

/-- What replay asks of the record after `R`, by its type. -/
def FitsType (R : List Record) (r : Record) : Prop :=
  match r.type with
  | .init | .rebuildBaseline => R = []
  | .burnAndAdmit => R ≠ [] ∧ (∀ b ∈ burns R, b.credentialID ≠ r.credentialID) ∧
      ∀ b ∈ burns R, b.attemptID ≠ r.attemptID
  | .finish => (∃ b ∈ burns R, b.credentialID = r.credentialID ∧ b.attemptID = r.attemptID ∧
      b.recordClass = r.recordClass) ∧ ¬ Finished R r.credentialID
  | .circuitReset => R ≠ []
  | .unknown _ => False

/-- **What a record written after `R` satisfies**, apart from the circuit of a reset: replay
checks the sequence and the type, and the effective clock is never behind the
high-watermark. -/
structure Follows (R : List Record) (r : Record) : Prop where
  seq : r.sequence = R.length + 1
  clock : R ≠ [] → (highWater R).nanos ≤ r.recordedAt.nanos
  fits : FitsType R r

/-- A journal in which every record follows the ones before it. -/
inductive Chain : List Record → Prop
  | nil : Chain []
  | snoc {R : List Record} {r : Record} : Chain R → Follows R r → Chain (R ++ [r])

/-- When the circuit of a class opened, in an owner's view; zero while it is closed. -/
def openedAt (R : List Record) (o : String) (c : RecordClass) : ℤ :=
  ((view R 0 o).failureState c).2.nanos

/-- A reset finds the circuit of its class open in the view of owner `o`, and an ordinary
one comes after the horizon. -/
def ResetOK (R : List Record) (o : String) (r : Record) : Prop :=
  r.type = .circuitReset →
    if r.recordClass = .hardNATCampaign then openedAt R o .hardNATCampaign ≠ 0
    else openedAt R o .ordinary ≠ 0 ∧
      openedAt R o .ordinary + pairingAdmissionCircuitHorizon ≤ r.recordedAt.nanos

/-- Every reset of the journal is accepted in the view of owner `o`. -/
def Replays (o : String) (R : List Record) : Prop :=
  ∀ P r S, R = P ++ r :: S → ResetOK P o r

theorem replays_concat : Replays o (R ++ [r]) ↔ Replays o R ∧ ResetOK R o r := by
  constructor
  · intro h
    refine ⟨fun P x S hS => h P x (S ++ [r]) (by simp [hS]), h R r [] rfl⟩
  · rintro ⟨h, hr⟩ P x S hS
    rcases eq_nil_or_concat S with rfl | ⟨S, y, rfl⟩
    · obtain ⟨rfl, hx⟩ := append_inj' hS rfl
      obtain rfl : r = x := by simpa using hx
      exact hr
    · rw [concat_eq_append, ← cons_append, ← append_assoc] at hS
      exact h P x S (append_inj' hS rfl).1

/-! ## Facts of a chain -/

theorem find_of_nodup {L : List Record} {key : Record → String} (hL : (L.map key).Nodup)
    (hr : r ∈ L) :
    L.find? (key · = key r) = some r := by
  cases hf : L.find? (key · = key r) with
  | none => simpa using find?_eq_none.1 hf r hr
  | some a =>
    have hkey := find?_some hf
    rw [inj_on_of_nodup_map hL (mem_of_find?_eq_some hf) hr (by simpa using hkey)]

namespace Chain

section

variable (h : Chain R)

include h

theorem seq {i : ℕ} (hi : R[i]? = some r) : r.sequence = i + 1 := by
  induction h with
  | nil => simp at hi
  | @snoc R x _ hx ih =>
    rw [getElem?_append] at hi
    split at hi
    · exact ih hi
    rename_i hlen
    have h0 : i - R.length = 0 := by
      by_contra hne
      rw [getElem?_eq_none (by simp; omega)] at hi
      cases hi
    rw [h0] at hi
    obtain rfl : x = r := by simpa using hi
    rw [hx.seq]; omega

/-- A sequence number names one record. -/
theorem eq_of_seq {a : Record} (ha : a ∈ R) (hb : b ∈ R) (hab : a.sequence = b.sequence) :
    a = b := by
  obtain ⟨i, hi⟩ := getElem?_of_mem ha
  obtain ⟨j, hj⟩ := getElem?_of_mem hb
  have h1 := h.seq hi
  have h2 := h.seq hj
  obtain rfl : i = j := by omega
  exact Option.some.inj (hi.symm.trans hj)

theorem mono : R.Pairwise fun a b => a.recordedAt.nanos ≤ b.recordedAt.nanos := by
  induction h with
  | nil => exact List.Pairwise.nil
  | @snoc R x _ hx ih =>
    refine pairwise_append.2 ⟨ih, by simp, ?_⟩
    intro a ha b hb
    rw [mem_singleton.1 hb]
    exact le_trans (recordedAt_le_highWater ha) (hx.clock (ne_nil_of_mem ha))

theorem matched (hf : f ∈ finishes R) : ∃ b ∈ burns R,
    b.credentialID = f.credentialID ∧ b.attemptID = f.attemptID ∧ b.recordClass = f.recordClass := by
  induction h with
  | nil => simp [finishes] at hf
  | @snoc R x _ hx ih =>
    rw [finishes_append, mem_append] at hf
    rcases hf with hf | hf
    · obtain ⟨b, hb, h⟩ := ih hf
      exact ⟨b, by rw [burns_append]; exact mem_append_left _ hb, h⟩
    · obtain ⟨hfx, ht⟩ := mem_finishes.1 hf
      rw [mem_singleton.1 hfx] at ht ⊢
      have := hx.fits
      rw [FitsType, ht] at this
      obtain ⟨⟨b, hb, h⟩, -⟩ := this
      exact ⟨b, by rw [burns_append]; exact mem_append_left _ hb, h⟩

theorem burns_pairwise :
    (burns R).Pairwise fun a b => a.credentialID ≠ b.credentialID ∧ a.attemptID ≠ b.attemptID := by
  induction h with
  | nil => exact List.Pairwise.nil
  | @snoc R x _ hx ih =>
    rw [burns_append]
    refine pairwise_append.2 ⟨ih, ?_, ?_⟩
    · exact List.Pairwise.filter _ (pairwise_singleton ..)
    · intro a ha b hb
      obtain ⟨hbx, ht⟩ := mem_burns.1 hb
      rw [mem_singleton.1 hbx] at ht ⊢
      have := hx.fits
      rw [FitsType, ht] at this
      exact ⟨this.2.1 a ha, this.2.2 a ha⟩

theorem finishes_pairwise : (finishes R).Pairwise fun a b => a.credentialID ≠ b.credentialID := by
  induction h with
  | nil => exact List.Pairwise.nil
  | @snoc R x _ hx ih =>
    rw [finishes_append]
    refine pairwise_append.2 ⟨ih, ?_, ?_⟩
    · exact List.Pairwise.filter _ (pairwise_singleton ..)
    · intro a ha b hb hab
      obtain ⟨hbx, ht⟩ := mem_finishes.1 hb
      rw [mem_singleton.1 hbx] at ht hab
      have := hx.fits
      rw [FitsType, ht] at this
      obtain ⟨haR, hat⟩ := mem_finishes.1 ha
      exact this.2 (finished_iff.2 ⟨a, haR, hat, hab⟩)

/-- No credential is burnt twice. -/
theorem burn_creds_nodup : ((burns R).map (·.credentialID)).Nodup :=
  pairwise_map.2 (h.burns_pairwise.imp fun hab => hab.1)

theorem burn_attempts_nodup : ((burns R).map (·.attemptID)).Nodup :=
  pairwise_map.2 (h.burns_pairwise.imp fun hab => hab.2)

theorem eq_of_cred {a : Record} (ha : a ∈ burns R) (hb : b ∈ burns R)
    (hab : a.credentialID = b.credentialID) : a = b :=
  inj_on_of_nodup_map h.burn_creds_nodup ha hb hab

theorem find_burn (hb : b ∈ burns R) : (burns R).find? (·.credentialID = b.credentialID) = some b :=
  find_of_nodup h.burn_creds_nodup hb

theorem finishOf_eq (hf : f ∈ finishes R) : finishOf R f.credentialID = some f :=
  find_of_nodup (pairwise_map.2 h.finishes_pairwise) hf

end

end Chain

/-! ## Replay succeeds -/

theorem view_watermark : (view R bytes o).watermark r =
    { view R bytes o with highWatermark := highWater (R ++ [r]) } := by
  rw [highWater_concat, watermark]
  by_cases h : r.recordedAt.after (highWater R) = true
  · simp [view, h]
  · simp [view, h]

theorem checkOrder_view (hf : Follows R r) : (view R bytes o).checkOrder r = .ok () := by
  have hla : ∀ p ∈ R.getLast?, ¬ r.recordedAt.before p.recordedAt := by
    intro p hp
    have hpR := mem_of_getLast? hp
    have := hf.clock (ne_nil_of_mem hpR)
    have := recordedAt_le_highWater hpR
    simp only [Time.before_iff]; omega
  simp only [checkOrder, bind_ok_iff, failIf_ok_iff]
  refine ⟨(), by simp [view, hf.seq], ?_⟩
  cases hl : R.getLast? with
  | none => simp [view, hl]
  | some p =>
    have := hla p hl
    simpa [view, hl] using this

/-- A burn adds an entry, a finish sets one, other records leave the entries. -/
theorem view_entries_concat (h : Chain R) (hf : Follows R r) :
    (view (R ++ [r]) bytes o).admissionOrder =
      match r.type with
      | .burnAndAdmit => (view R bytes o).admissionOrder ++ [{ record := r }]
      | .finish => ((view R bytes o).setFinish r).admissionOrder
      | _ => (view R bytes o).admissionOrder := by
  have hfin : r.type ≠ .finish → ∀ c, finishOf (R ++ [r]) c = finishOf R c := by
    intro ht c
    simp [finishOf, finishes, ht]
  have hbur : r.type ≠ .burnAndAdmit → burns (R ++ [r]) = burns R := by
    intro ht
    simp [burns, ht]
  have hfi := hf.fits
  cases ht : r.type with
  | burnAndAdmit =>
    rw [FitsType, ht] at hfi
    -- no finish can be there before its burn
    have hnew : finishOf R r.credentialID = none := by
      rw [← Option.not_isSome_iff_eq_none]
      intro hs
      obtain ⟨f, hfR, hft, hfc⟩ := finished_iff.1 hs
      obtain ⟨b, hb, hbc, -⟩ := h.matched (mem_finishes.2 ⟨hfR, hft⟩)
      exact hfi.2.1 b hb (hbc.trans hfc)
    have hb : burns (R ++ [r]) = burns R ++ [r] := by simp [burns, ht]
    simp only [view, hb, map_append, map_cons, map_nil, hfin (by simp [ht]), hnew]
  | finish =>
    rw [FitsType, ht] at hfi
    have hb := hbur (by simp [ht])
    simp only [view, setFinish, hb, map_map]
    refine map_congr_left fun b _ => ?_
    simp only [Function.comp_apply, beq_iff_eq]
    by_cases hc : b.credentialID = r.credentialID
    · have hno : finishOf R r.credentialID = none := by
        simpa [Finished] using hfi.2
      rw [if_pos hc, hc]
      have : finishOf (R ++ [r]) r.credentialID = some r := by
        unfold finishOf at hno ⊢
        rw [finishes_append, find?_append, hno]
        simp [finishes, ht]
      rw [this]
    · rw [if_neg hc]
      have : finishOf (R ++ [r]) b.credentialID = finishOf R b.credentialID := by
        have hne : ¬ r.credentialID = b.credentialID := fun h => hc h.symm
        simp [finishOf, finishes, ht, find?_append, hne]
      rw [this]
  | init | rebuildBaseline | circuitReset | unknown =>
    simp only [view, hbur (by simp [ht]), hfin (by simp [ht])]

/-- The failure state reads the records, the entries and the owner only. -/
theorem failureState_congr {s t : Snapshot} (hr : s.records = t.records)
    (ha : s.admissionOrder = t.admissionOrder) (ho : s.ownerInstanceID = t.ownerInstanceID)
    (c : RecordClass) : s.failureState c = t.failureState c := by
  cases s
  cases t
  simp only at hr ha ho
  subst hr ha ho
  rfl

/-- **One step of replay.** A record that follows `R`, and is not a reset the owner's view
rejects, is replayed. -/
theorem replayRecord_view (h : Chain R) (hf : Follows R r) (hr : ResetOK R o r) :
    (view R bytes o).replayRecord r = .ok (view (R ++ [r]) bytes o) := by
  have hent : (view (R ++ [r]) bytes o).admissionOrder = _ := view_entries_concat h hf
  have hfi := hf.fits
  set s := (view R bytes o).watermark r with hs
  have hsR : s.records = R := by rw [hs, view_watermark]; rfl
  have hv : { view (R ++ [r]) bytes o with records := R } =
      { s with
        admissionOrder := (view (R ++ [r]) bytes o).admissionOrder
        rebuildAt := rebuiltAt (R ++ [r]) } := by
    rw [hs, view_watermark]; rfl
  have hse : s.admissionOrder = (view R bytes o).admissionOrder := by rw [hs, view_watermark]
  have hsA : ∀ c, s.admissions c = (view R bytes o).admissions c := fun _ => congrArg (find? _) hse
  have hsT : ∀ c, s.attempts c = (view R bytes o).attempts c := fun _ => congrArg (find? _) hse
  have hsb : s.rebuildAt = rebuiltAt R := by rw [hs, view_watermark]; rfl
  have happ : s.applyRecord r = .ok { view (R ++ [r]) bytes o with records := R } := by
    rw [hv, hent, rebuiltAt_concat, ← hsb]
    have hlen : s.records.length = 0 ↔ R = [] := by rw [hsR]; exact length_eq_zero_iff
    unfold applyRecord
    unfold FitsType at hfi
    revert hfi
    cases ht : r.type with
    | init | rebuildBaseline =>
      intro hnil
      simp [hlen.2 hnil, failIf, ← hse]
    | burnAndAdmit =>
      rintro ⟨h0, h1, h2⟩
      have n1 : ¬ (s.admissions r.credentialID).isSome := by
        rw [hsA, view_admissions_isSome]
        rintro ⟨b, hb, hc⟩
        exact h1 b hb hc
      have n2 : ¬ (s.attempts r.attemptID).isSome := by
        rw [hsT, view_attempts_isSome]
        rintro ⟨b, hb, hc⟩
        exact h2 b hb hc
      simp [mt hlen.1 h0, n1, n2, failIf, ← hse]
    | finish =>
      rintro ⟨⟨b, hb, hbc, hba, hbk⟩, hnf⟩
      have hadm : s.admissions r.credentialID = some ⟨b, none⟩ := by
        have hno : finishOf R r.credentialID = none := by simpa [Finished] using hnf
        rw [hsA, view_admissions, ← hbc, h.find_burn hb]
        simp [hbc, hno]
      simp [hadm, hba, hbk, failIf, setFinish, ← hse]
    | circuitReset =>
      intro hne
      have hcr : s.checkReset r = .ok () := by
        have hl : s.Live := by rw [hs, view_watermark]; simp [Snapshot.Live, view]
        have hw : s.highWatermark.nanos ≤ r.recordedAt.nanos := by
          rw [hs, view_watermark, highWater_concat]
          split
          · exact le_rfl
          · exact hf.clock hne
        have hfs : ∀ c, (s.failureState c).2.nanos = openedAt R o c := by
          intro c
          rw [failureState_congr (t := view R 0 o) hsR (by rw [hse]; rfl)
            (by rw [hs, view_watermark]; rfl), openedAt]
        rw [checkReset_ok_iff hl hw, hfs, hfs]
        exact hr ht
      simp [mt hlen.1 hne, hcr, failIf, ← hse]
    | unknown text => exact False.elim
  simp only [replayRecord, checkOrder_view hf, ← hs, happ]
  rfl

def snapshotOf (R : List Record) (bytes : ℕ) (o : String) : Snapshot :=
  { view R bytes o with
    sequence := R.length
    status := {
      state := .ready, sequence := R.length, records := R.length, bytes := bytes
      highWatermark := highWater R } }

/-- **A journal that replays is read as its view.** -/
theorem build_ok (h : Chain R) (hr : Replays o R) (hne : R ≠ []) :
    buildPairingLedgerSnapshot R bytes o = .ok (snapshotOf R bytes o) := by
  have hfo : R.foldlM replayRecord (emptySnapshot bytes o) = .ok (view R bytes o) := by
    clear hne
    induction h with
    | nil => rfl
    | @snoc R r hR hf ih =>
      obtain ⟨h1, h2⟩ := replays_concat.1 hr
      exact foldlM_concat_ok_iff.2 ⟨_, ih h1, replayRecord_view hR hf h2⟩
  simp [buildPairingLedgerSnapshot, hfo, failIf, hne]
  rfl

end Winkyou
