import Winkyou.Proof.Ledger.Run
import Winkyou.Spec.Governor.PairingGate

/-!
# The invariant of the pairing gate

The right to write the FINISH record is a token: `finish` makes it when it chooses the terminal, and
it is with that call, with the loopback writer, or spent as the record in the journal.

* `ThreadOK`, `GateOK`: what holds of one call and of the whole gate.
* `advance_ok`: what the next section of a call does to the gate and to itself.
* `step_stepOK`, `initial_gateOK`: the invariant of every run.
-/

namespace Winkyou.PairingGate

open List Bool
open Option (some)
open Gate (advance ret step)

/-! ## The journal -/

section Journal

variable {sha : Sha256} {w : World Journal} {a : Winkyou.Action Bool} {x : Record} {frame : Bytes}

theorem mem_receipts_act {q : Receipt} (hq : q ∈ w.receipts) :
    q ∈ (w.act journalStorage sha a).receipts := by
  cases ho : a.outcome with
  | none =>
    obtain ⟨o, rfl⟩ := Action.takeOver_of_outcome ho
    exact hq
  | some o =>
    rw [act_eq journalStorage sha w ho]
    split
    · exact hq
    · exact mem_append_right _ hq

def finishesOf (credentialID : String) (records : List Record) : List Record :=
  records.filter fun r => r.type == .finish && r.credentialID == credentialID

/-- A call of the ledger adds at most one FINISH record for a credential, and only a `Finish` for it
does. -/
theorem finishesOf_act (h : WorldOK w) (credentialID : String) :
    finishesOf credentialID (w.act journalStorage sha a).journal.records =
      finishesOf credentialID w.journal.records ∨
      ∃ now receipt reason o f, a = .finish now receipt reason o ∧
        receipt.credentialID = credentialID ∧ f.reason = reason ∧
        finishesOf credentialID (w.act journalStorage sha a).journal.records =
          finishesOf credentialID w.journal.records ++ [f] := by
  rw [act_journal]
  rcases hx : w.appends sha a with _ | p
  · exact .inl rfl
  obtain ⟨x, frame⟩ := p
  by_cases hf : x.type = .finish ∧ x.credentialID = credentialID
  · obtain ⟨now, receipt, reason, o, ha, hcr, hrea, -⟩ := appends_finish h.readable_owner hx hf.1
    refine .inr ⟨now, receipt, reason, o, x, ha, hcr ▸ hf.2, hrea, ?_⟩
    simp [finishesOf, Journal.append, hf]
  · left
    simp [finishesOf, Journal.append, filter_append]
    exact fun ht hc => hf ⟨ht, hc⟩

theorem finishesOf_admit {now : Time} {request : AdmissionRequest} {reported : Bool}
    {receipt : Receipt} (hw : World.Reachable sha w)
    (hadm : (journalStorage.admitRequest sha w.journal w.owner now request reported).2 = .ok receipt) :
    finishesOf receipt.credentialID
        (w.act journalStorage sha (.admitRequest now request reported)).journal.records = [] ∧
      receipt ∈ (w.act journalStorage sha (.admitRequest now request reported)).receipts := by
  have hok := reachable_ok hw
  constructor
  · have hadmi : ∃ x frame, planAdmit sha (w.journal.read w.owner) w.owner now request = .ok (x,
      frame) ∧
        receipt.credentialID = request.credentialID := by
      simp only [Storage.admitRequest] at hadm
      split at hadm
      · cases hadm
      · rename_i x frame hpl
        split at hadm
        · exact ⟨x, frame, hpl, (verifyAdmit_ok hadm).1⟩
        · cases hadm
    obtain ⟨x, frame, hpl, hcr⟩ := hadmi
    obtain ⟨hwri, hbu, hx, -⟩ := planAdmit_written hok.readable_owner hpl
    have happ : w.appends sha (.admitRequest now request reported) = some (x, frame) := by
      simp [World.appends, Action.plan, hpl, Except.toOption]
    rw [act_journal, happ, eq_nil_iff_forall_not_mem]
    intro f hf
    simp only [finishesOf, Journal.append, filter_append, mem_append, mem_filter, and_eq_true,
      beq_iff_eq, mem_singleton] at hf
    obtain ⟨hmem, ht, hc⟩ | ⟨rfl, ht, -⟩ := hf
    · -- a FINISH record before the admission would be of an earlier admission of the credential
      obtain ⟨b, hb, hbc, -⟩ := hok.chain.matched (mem_finishes.2 ⟨hmem, ht⟩)
      have hfi := hwri.follows.fits
      rw [FitsType, hbu] at hfi
      exact hfi.2.1 b hb (by rw [hbc, hc, hcr, hx])
    · rw [hbu] at ht
      cases ht
  · simp [World.act, hadm]

end Journal

/-! ## Calls -/

/-- The reason of the chosen terminal, at the points that know it. -/
def Point.terminal : Point → Option TerminalReason
  | .awaitFinish chosen _ _ => some chosen
  | .write reason _ | .complete reason _ _ | .publish reason _ _ | .verdict reason _ | .awaitWriter
      reason _
  | .publishLoopback reason _ _ => some reason
  | _ => none

/-- The reason that a call finishes the attempt with. -/
def Point.reason : Point → Option TerminalReason
  | .finish reason _ | .awaitFinish _ reason _ | .write reason _ | .complete reason _ _ | .publish
      reason _ _
  | .verdict reason _ | .awaitWriter reason _ | .publishLoopback reason _ _ => some reason
  | _ => none

/-- The error that a call finishes the attempt for. -/
def Point.cause : Point → Option Errors
  | .finish _ cause | .awaitFinish _ _ cause | .write _ cause | .complete _ _ cause | .publish _ _ cause
  | .verdict _ cause | .awaitWriter _ cause | .publishLoopback _ _ cause => some cause
  | _ => none

/-- The call has begun and not returned. -/
def Point.inside : Point → Bool
  | .start | .returned _ => false
  | _ => true

/-- The points before a `finish`. -/
def Point.plain : Point → Bool
  | .awaitConsumed | .validate | .awaitTerminal | .inspect => true
  | _ => false

/-- The calls that finish the attempt only because `validate` failed. -/
def Call.validates : Call → Bool
  | .consumeForCarrier | .beforeFirstEmission | .checkActive => true
  | _ => false

/-- The calls that let bytes out. -/
def Call.emits : Call → Bool
  | .beforeFirstEmission | .checkActive => true
  | _ => false

/-- The call that writes the FINISH record next, or starts its writer. -/
def Thread.writing (th : Thread) : Bool := th.point matches .write ..

/-- The call that has consumed the attempt and has not failed. -/
def Thread.consuming (th : Thread) : Bool :=
  (th.call matches .consumeForCarrier) && !(th.point matches .start | .awaitConsumed | .returned
    (_ :: _))

/-- A first emission that was let out. -/
def Thread.emitted (th : Thread) : Bool :=
  (th.call matches .beforeFirstEmission) && (th.point matches .returned [])

open Thread (emitted consuming writing)

variable {th : Thread} {g g' : Gate} {t : ℕ}

theorem Thread.emitted_iff :
    th.emitted = true ↔ th.call = .beforeFirstEmission ∧ th.point = .returned [] := by
  obtain ⟨call, late, point, finished⟩ := th
  cases call <;> cases point with
  | returned err => cases err <;> simp [emitted]
  | _ => simp [emitted]

theorem Thread.emitted_eq_false (hp : ∀ err, th.point ≠ .returned err) : th.emitted = false :=
  eq_false_iff.2 fun he => hp [] (emitted_iff.1 he).2

structure ThreadOK (g : Gate) (t : ℕ) (th : Thread) : Prop where
  terminal : ∀ reason, th.point.terminal = some reason → g.terminalChosen = true ∧
    reason = g.terminalReason
  success : ∀ cause, th.point = .finish .success cause → g.first = true
  cause : th.call.validates = true → ∀ cause, th.point.cause = some cause → cause ≠ []
  late : th.late = true → g.terminalChosen = true ∧
    (th.call.emits = true → th.point ≠ .inspect ∧ th.point ≠ .returned [])
  finished : ∀ reason, th.finished = some (reason, []) → g.terminalChosen = true ∧
    reason = g.terminalReason
  holds : th.call = .beforeFirstEmission → th.point.inside = true → g.holder = some t ∧ g.first = false
  own : ∀ reason, th.call = .finish reason → th.point.plain = false ∧
    (∀ r, th.point.reason = some r → r = reason) ∧
    (th.point = .returned [] → g.terminalChosen = true ∧ reason = g.terminalReason)

/-- What a step of call `t` leaves alone: the terminal once it is chosen, a first emission, and the
mutex of the other calls. -/
structure Keeps (t : ℕ) (g g' : Gate) : Prop where
  terminal : g.terminalChosen = true → g'.terminalChosen = true ∧ g'.terminalReason = g.terminalReason
  first : g.first = true → g'.first = true
  holder : ∀ t' ≠ t, g.holder = some t' → g'.holder = some t' ∧ g'.first = g.first

theorem ThreadOK.mono (h : ThreadOK g t th)
    (hter : g.terminalChosen = true → g'.terminalChosen = true ∧ g'.terminalReason = g.terminalReason)
    (hfi : g.first = true → g'.first = true)
    (hhol : g.holder = some t → g'.holder = some t ∧ g'.first = g.first) : ThreadOK g' t th := by
  have hcho : ∀ {reason}, g.terminalChosen = true ∧ reason = g.terminalReason →
      g'.terminalChosen = true ∧ reason = g'.terminalReason := by
    rintro _ ⟨hc, rfl⟩
    exact ⟨(hter hc).1, (hter hc).2.symm⟩
  refine ⟨fun reason hr => hcho (h.terminal reason hr), fun cause hp => hfi (h.success cause hp),
    h.cause,
    fun hl => ⟨(hter (h.late hl).1).1, (h.late hl).2⟩, fun reason hr => hcho (h.finished reason hr), ?_,
    fun reason hc => ⟨(h.own reason hc).1, (h.own reason hc).2.1,
    fun hp => hcho ((h.own reason hc).2.2 hp)⟩⟩
  intro hc hp
  obtain ⟨hhe, hno⟩ := h.holds hc hp
  exact ⟨(hhol hhe).1, (hhol hhe).2 ▸ hno⟩

theorem ThreadOK.keeps {t' : ℕ} (h : ThreadOK g t' th) (hne : t' ≠ t) (hk : Keeps t g g') :
    ThreadOK g' t' th :=
  h.mono hk.terminal hk.first (hk.holder t' hne)

/-- A step that changes neither the terminal, nor the first emission and its mutex. -/
theorem ThreadOK.same (h : ThreadOK g t th)
    (hcho : g'.terminalChosen = g.terminalChosen) (hrea : g'.terminalReason = g.terminalReason)
    (hfi : g'.first = g.first) (hhol : g'.holder = g.holder) : ThreadOK g' t th :=
  h.mono (fun hc => ⟨hcho ▸ hc, hrea⟩) (fun hf => hfi ▸ hf) fun ht => ⟨hhol ▸ ht, hfi⟩

/-- The loopback writer has the FINISH record before it. -/
def Gate.writerPending (g : Gate) : ℕ :=
  match g.writer with
  | some (_, .hook) | some (_, .keepHookErr _) | some (_, .network _) | some (_, .ledger _ _) => 1
  | _ => 0

structure GateOK (sha : Sha256) (g : Gate) : Prop where
  reachable : World.Reachable sha g.ledger
  receipt : g.receipt ∈ g.ledger.receipts
  threads : ∀ t th, g.threads[t]? = some th → ThreadOK g t th
  consumed : g.threads.countP consuming ≤ g.consumed.toNat
  emitted : g.threads.countP emitted = g.first.toNat
  written : g.threads.countP writing + g.writerPending + g.finishRecords.length ≤ g.terminalChosen.toNat
  reason : ∀ f ∈ g.finishRecords, f.reason = g.terminalReason
  writer : ∀ reason p, g.writer = some (reason, p) → g.terminalChosen = true ∧ reason = g.terminalReason
  success : g.terminalChosen = true → g.terminalReason = .success → g.first = true

/-! ## One section of a call -/

/-- The call is settling the terminal that it has chosen. -/
def Point.settling (p : Point) : Bool :=
  p matches .write .. | .complete .. | .publish .. | .verdict .. | .awaitWriter .. | .publishLoopback ..

/-- The call has started the loopback writer and still needs it. -/
def Point.needsWriter (p : Point) : Bool := p matches .verdict .. | .awaitWriter ..

/-- The call waits for the terminal to be finished. -/
def Point.waits (p : Point) : Bool := p matches .awaitConsumed | .awaitTerminal | .awaitFinish ..

/-- Until the terminal is finished, the call that has chosen it is settling it; while that call
needs the loopback writer, the writer is there, and it ends by saying that it is done. -/
structure Live (g : Gate) : Prop where
  settler : g.terminalChosen = true → g.finished = false →
    ∃ (t : ℕ) (th : Thread), g.threads[t]? = some th ∧ th.point.settling = true
  writer : ∀ (t : ℕ) (th : Thread), g.threads[t]? = some th → th.point.needsWriter = true →
    g.writer.isSome = true
  done : ∀ reason p, g.writer = some (reason, p) → p = .complete ∨ p = .done → g.writerDone = true
  waits : ∀ (t : ℕ) (th : Thread), g.threads[t]? = some th → th.point.waits = true →
    g.terminalChosen = true

/-- What a section of a call means for the terminal: it finishes it, or hands the settling on. -/
structure Settles (g : Gate) (th : Thread) (g' : Gate) (th' : Thread) : Prop where
  finished : g'.finished = false → g.finished = false
  settling : g'.finished = false → th.point.settling = true → th'.point.settling = true
  chosen : g'.terminalChosen = true → g.terminalChosen = true ∨ th'.point.settling = true
  keeps : g.terminalChosen = true → g'.terminalChosen = true
  waits : th'.point.waits = true → g'.terminalChosen = true
  needs : th'.point.needsWriter = true → th.point.needsWriter = true ∨ g'.writer.isSome = true
  writer : g'.writer = g.writer ∧ g'.writerDone = g.writerDone ∨ ∃ reason, g'.writer = some (reason,
    .hook)

/-- What a section of call `t` does: it moves `th` to `th'` and the rest of the gate from `g` to
`g'`. -/
structure Advances (sha : Sha256) (g : Gate) (t : ℕ) (th : Thread) (g' : Gate) (th' : Thread) :
    Prop where
  keeps : Keeps t g g'
  ok : ThreadOK g' t th'
  reachable : World.Reachable sha g'.ledger
  receipt : g'.receipt ∈ g'.ledger.receipts
  consumed : th'.consuming.toNat + g.consumed.toNat ≤ th.consuming.toNat + g'.consumed.toNat
  emitted : th'.emitted.toNat + g.first.toNat = th.emitted.toNat + g'.first.toNat
  written : th'.writing.toNat + g'.writerPending + g'.finishRecords.length + g.terminalChosen.toNat ≤
    th.writing.toNat + g.writerPending + g.finishRecords.length + g'.terminalChosen.toNat
  reason : ∀ f ∈ g'.finishRecords, f.reason = g'.terminalReason
  writer : ∀ reason p, g'.writer = some (reason, p) → g'.terminalChosen = true ∧
    reason = g'.terminalReason
  success : g'.terminalChosen = true → g'.terminalReason = .success → g'.first = true
  settles : Settles g th g' th'

theorem countP_set_add {α : Type} {p : α → Bool} {l : List α} {a b : α} (h : l[t]? = some a) :
    (l.set t b).countP p + (p a).toNat = l.countP p + (p b).toNat := by
  obtain ⟨hlt, rfl⟩ := List.getElem?_eq_some_iff.1 h
  rw [countP_set hlt]
  cases hp : p l[t] with
  | false => cases p b <;> simp
  | true =>
    have hpos : 0 < l.countP p := countP_pos_iff.2 ⟨_, getElem_mem hlt, hp⟩
    cases p b <;> simp <;> omega

theorem Advances.gateOK {sha : Sha256} {th' : Thread} (h : GateOK sha g)
    (hth : g.threads[t]? = some th) (ha : Advances sha g t th g' th') :
    GateOK sha { g' with threads := g.threads.set t th' } where
  reachable := ha.reachable
  receipt := ha.receipt
  threads t' u hu := by
    have hmo : ∀ {u}, ThreadOK g' t' u → ThreadOK { g' with threads := g.threads.set t th' } t' u :=
      fun h => h.same rfl rfl rfl rfl
    simp only [getElem?_set] at hu
    split at hu
    · next heq =>
      split at hu <;> cases hu
      exact hmo (heq ▸ ha.ok)
    · next hne => exact hmo ((h.threads t' u hu).keeps (Ne.symm hne) ha.keeps)
  consumed := by
    have hco := countP_set_add (p := consuming) (b := th') hth
    have hc := h.consumed
    have hst := ha.consumed
    show (g.threads.set t th').countP consuming ≤ g'.consumed.toNat
    omega
  emitted := by
    have hco := countP_set_add (p := Thread.emitted) (b := th') hth
    have hc := h.emitted
    have hst := ha.emitted
    show (g.threads.set t th').countP Thread.emitted = g'.first.toNat
    omega
  written := by
    have hco := countP_set_add (p := writing) (b := th') hth
    have hc := h.written
    have hst := ha.written
    show (g.threads.set t th').countP writing + g'.writerPending + g'.finishRecords.length ≤
      g'.terminalChosen.toNat
    omega
  reason := ha.reason
  writer := ha.writer
  success := ha.success

section Sections

variable {sha : Sha256} {g g' : Gate} {t : ℕ} {th th' : Thread} {o : Answer}
  {reason : TerminalReason} {err cause : Errors}

theorem Live.advance (h : Live g) (hth : g.threads[t]? = some th) (hs : Settles g th g' th') :
    Live { g' with threads := g.threads.set t th' } := by
  have hlt : t < g.threads.length := (List.getElem?_eq_some_iff.1 hth).1
  have hse : (g.threads.set t th')[t]? = some th' := by simp [hlt]
  refine ⟨?_, ?_, ?_, ?_⟩
  · intro hcho hfin
    rcases hs.chosen hcho with hc | hnew
    · obtain ⟨u, uh, hu, hset⟩ := h.settler hc (hs.finished hfin)
      by_cases hut : t = u
      · subst hut
        obtain rfl := some.inj (hth.symm.trans hu)
        exact ⟨t, th', hse, hs.settling hfin hset⟩
      · exact ⟨u, uh, by simp only [getElem?_set_ne hut]; exact hu, hset⟩
    · exact ⟨t, th', hse, hnew⟩
  · intro u uh hu hne
    have hso : ∀ (v : ℕ) (vh : Thread), g.threads[v]? = some vh → vh.point.needsWriter = true →
      g'.writer.isSome = true := by
      intro v vh hv hn
      rcases hs.writer with ⟨hw, -⟩ | ⟨r, hw⟩
      · rw [hw]
        exact h.writer v vh hv hn
      · rw [hw]
        rfl
    by_cases hut : t = u
    · subst hut
      obtain rfl := some.inj (hse.symm.trans hu)
      rcases hs.needs hne with hn | hw
      · exact hso t th hth hn
      · exact hw
    · rw [getElem?_set_ne hut] at hu
      exact hso u uh hu hne
  · intro r p hw hp
    rcases hs.writer with ⟨hw', hd⟩ | ⟨r', hw'⟩
    · exact hd ▸ h.done r p (hw' ▸ hw) hp
    · have hho : some (r', WriterPoint.hook) = some (r, p) := hw'.symm.trans hw
      cases hho
      rcases hp with hp | hp <;> cases hp
  · intro u uh hu hwa
    by_cases hut : t = u
    · subst hut
      obtain rfl := some.inj (hse.symm.trans hu)
      exact hs.waits hwa
    · rw [getElem?_set_ne hut] at hu
      exact hs.keeps (h.waits u uh hu hwa)

/-- A section that touches neither the terminal, nor the first emission, nor the journal and its
writer. -/
structure Quiet (t : ℕ) (g g' : Gate) : Prop where
  ledger : g'.ledger = g.ledger
  receipt : g'.receipt = g.receipt
  writer : g'.writer = g.writer ∧ g'.writerDone = g.writerDone
  finished : g'.finished = false → g.finished = false
  chosen : g'.terminalChosen = g.terminalChosen
  reason : g'.terminalReason = g.terminalReason
  first : g'.first = g.first
  holder : ∀ t' ≠ t, g.holder = some t' → g'.holder = some t'

theorem Quiet.refl : Quiet t g g := ⟨rfl, rfl, ⟨rfl, rfl⟩, id, rfl, rfl, rfl, fun _ _ h => h⟩

theorem Quiet.trans {g'' : Gate} (h : Quiet t g g') (h' : Quiet t g' g'') : Quiet t g g'' :=
  ⟨h'.ledger.trans h.ledger, h'.receipt.trans h.receipt,
    ⟨h'.writer.1.trans h.writer.1, h'.writer.2.trans h.writer.2⟩, fun hf => h.finished (h'.finished hf),
    h'.chosen.trans h.chosen, h'.reason.trans h.reason, h'.first.trans h.first,
    fun t' hne ht => h'.holder t' hne (h.holder t' hne ht)⟩

theorem Quiet.keeps (h : Quiet t g g') : Keeps t g g' where
  terminal hcho := ⟨h.chosen ▸ hcho, h.reason⟩
  first hfi := h.first ▸ hfi
  holder t' hne ht := ⟨h.holder t' hne ht, h.first⟩

theorem Quiet.writerPending (h : Quiet t g g') : g'.writerPending = g.writerPending := by
  rw [Gate.writerPending, h.writer.1, Gate.writerPending]

theorem Quiet.finishRecords (h : Quiet t g g') : g'.finishRecords = g.finishRecords := by
  rw [Gate.finishRecords, h.ledger, h.receipt, Gate.finishRecords]

/-- A quiet move is an advance. -/
theorem Quiet.advances (h : GateOK sha g) (hq : Quiet t g g') (hok : ThreadOK g' t th')
    (hcon : th'.consuming.toNat + g.consumed.toNat ≤ th.consuming.toNat + g'.consumed.toNat)
    (hemi : th'.emitted = th.emitted) (hwri : th'.writing.toNat ≤ th.writing.toNat)
    (hset : g'.finished = false → th.point.settling = true → th'.point.settling = true)
    (hwa : th'.point.waits = true → g.terminalChosen = true)
    (hne : th'.point.needsWriter = true → th.point.needsWriter = true) :
    Advances sha g t th g' th' where
  keeps := hq.keeps
  ok := hok
  reachable := hq.ledger ▸ h.reachable
  receipt := by rw [hq.receipt, hq.ledger]; exact h.receipt
  consumed := hcon
  emitted := by rw [hemi, hq.first]
  written := by rw [hq.writerPending, hq.finishRecords, hq.chosen]; omega
  reason := by rw [hq.finishRecords, hq.reason]; exact h.reason
  writer := by rw [hq.writer.1, hq.chosen, hq.reason]; exact h.writer
  success := by rw [hq.chosen, hq.reason, hq.first]; exact h.success
  settles :=
    { finished := hq.finished
      settling := hset
      chosen := fun hc => .inl (hq.chosen ▸ hc)
      keeps := fun hc => hq.chosen ▸ hc
      waits := fun hw => hq.chosen ▸ hwa hw
      needs := fun hn => .inl (hne hn)
      writer := .inl hq.writer }

theorem ret_quiet (err : Errors) : Quiet t g (g.ret t th err).1 where
  ledger := rfl
  receipt := rfl
  writer := ⟨rfl, rfl⟩
  finished := id
  chosen := rfl
  reason := rfl
  first := rfl
  holder t' hne ht := by
    simp [ret, ht, hne]

theorem ThreadOK.not_finish (hth : ThreadOK g t th) (hp : th.point.plain = true)
    (reason : TerminalReason) :
    th.call ≠ .finish reason := by
  intro hc
  rw [(hth.own reason hc).1] at hp
  cases hp

theorem reasonForGateError_ne_success (err : Errors) :
    pairingTerminalReasonForGateError err ≠ .success := by
  unfold pairingTerminalReasonForGateError
  split_ifs <;> simp

theorem ThreadOK.stays (hth : ThreadOK g t th) (hin : th.point.inside = true) :
    th.call = .beforeFirstEmission → g.holder = some t ∧ g.first = false := fun hc => hth.holds hc hin

theorem ThreadOK.settled (hth : ThreadOK g t th) {p : Point}
    (hter : th.point.terminal = some reason) (hca : th.point.cause = some cause)
    (hter' : p.terminal = some reason) (hrea : p.reason = th.point.reason)
    (hca' : p.cause = some cause) :
    ThreadOK g t { th with point := p } := by
  have hin : th.point.inside = true := by
    cases hpt : th.point <;> simp_all [Point.cause, Point.inside]
  refine ⟨fun r hr => hth.terminal r (hter.trans (hter'.symm.trans hr)), ?_, ?_, ?_, hth.finished,
    fun hc _ => hth.holds hc hin, ?_⟩
  · rintro c rfl
    cases hter'
  · intro hv c hc
    exact some.inj (hca'.symm.trans hc) ▸ hth.cause hv cause hca
  · intro hl
    refine ⟨(hth.late hl).1, fun _ => ⟨?_, ?_⟩⟩
    · rintro rfl
      cases hca'
    · rintro rfl
      cases hca'
  · intro r hc
    refine ⟨?_, fun r' hr => (hth.own r hc).2.1 r' (hrea ▸ hr), ?_⟩
    · cases p <;> simp_all [Point.plain, Point.cause]
    · rintro rfl
      cases hca'

/-- The write of the FINISH record changes the journal only, by at most one record. -/
theorem finishLedger_spec (h : GateOK sha g) (o : Answer) (hrea : reason = g.terminalReason) :
    ∃ w, (g.finishLedger sha reason o).1 = { g with ledger := w } ∧ World.Reachable sha w ∧
      g.receipt ∈ w.receipts ∧
      ({ g with ledger := w } : Gate).finishRecords.length ≤ g.finishRecords.length + 1 ∧
      ∀ f ∈ ({ g with ledger := w } : Gate).finishRecords, f.reason = g.terminalReason := by
  unfold Gate.finishLedger
  split_ifs with herr
  · exact ⟨g.ledger, rfl, h.reachable, h.receipt, Nat.le_succ _, h.reason⟩
  let a : Winkyou.Action Bool := .finish o.now g.receipt reason o.reported
  refine ⟨g.ledger.act journalStorage sha a, rfl, h.reachable.act a h.receipt,
    mem_receipts_act h.receipt, ?_⟩
  change (finishesOf g.receipt.credentialID (g.ledger.act journalStorage sha
    a).journal.records).length ≤
    (finishesOf g.receipt.credentialID g.ledger.journal.records).length + 1 ∧
    ∀ f ∈ finishesOf g.receipt.credentialID (g.ledger.act journalStorage sha a).journal.records, _
  rcases finishesOf_act (reachable_ok h.reachable) g.receipt.credentialID with hsa |
    ⟨_, _, r, _, f, ha, -, hf, hadd⟩
  · rw [hsa]
    exact ⟨Nat.le_succ _, h.reason⟩
  · have hr : reason = r := (Winkyou.Action.finish.inj ha).2.2.1
    rw [hadd]
    refine ⟨by simp, forall_mem_append.2 ⟨h.reason, forall_mem_singleton.2 ?_⟩⟩
    rw [hf, ← hr, hrea]

variable (h : GateOK sha g) (hth : ThreadOK g t th)

include h hth

section

variable (hp : ∀ err, th.point ≠ .returned err) (hq : Quiet t g g')

include hp hq

theorem ret_advances (hcon : g'.consumed = g.consumed) {finished : Option (TerminalReason × Errors)}
    (hfin : ∀ reason, finished = some (reason, []) → g.terminalChosen = true ∧
      reason = g.terminalReason)
    (hla : th.late = true → th.call.emits = true → err ≠ [])
    (hfi : th.call = .beforeFirstEmission → err ≠ [])
    (hcons : th.call = .consumeForCarrier → err = [] → th.consuming = true)
    (hown : ∀ reason, th.call = .finish reason → err = [] → g.terminalChosen = true ∧
      reason = g.terminalReason)
    (hset : g'.finished = false → th.point.settling = false) :
    Advances sha g t th (g'.ret t { th with finished := finished } err).1
      (g'.ret t { th with finished := finished } err).2 := by
  have hemi := Thread.emitted_eq_false hp
  refine Quiet.advances h (hq.trans (ret_quiet err)) ?_ ?_ ?_ ?_ (fun hf hs => ?_) nofun nofun
  · constructor
    · exact nofun
    · exact nofun
    · exact nofun
    · intro hl
      refine ⟨hq.chosen ▸ (hth.late hl).1, fun hem => ⟨by simp [ret], ?_⟩⟩
      simpa [ret] using hla hl hem
    · intro reason hr
      have hcho := hfin reason hr
      rw [← hq.chosen, ← hq.reason] at hcho
      exact hcho
    · exact nofun
    · intro reason hc
      refine ⟨rfl, fun r hr => (by cases hr), fun hr => ?_⟩
      have hnil := Point.returned.inj hr
      have hcho := hown reason hc hnil
      rw [← hq.chosen, ← hq.reason] at hcho
      exact hcho
  · have hle : (g'.ret t { th with finished := finished } err).2.consuming.toNat ≤
      th.consuming.toNat := by
      cases hca : th.call with
      | consumeForCarrier =>
        cases err with
        | nil => rw [hcons hca rfl]; exact toNat_le _
        | cons e err => simp [consuming, ret]
      | _ => simp [consuming, ret, hca]
    have hsa : (g'.ret t { th with finished := finished } err).1.consumed = g.consumed := hcon
    rw [hsa]
    omega
  · rw [hemi]
    cases hca : th.call with
    | beforeFirstEmission =>
      cases err with
      | nil => exact absurd rfl (hfi hca)
      | cons e err => simp [emitted, ret]
    | _ => simp [emitted, ret]
  · simp [writing, ret]
  · exact absurd (hs.symm.trans (hset hf)) nofun

/-- A call that goes on to a point that is neither a return nor the write. -/
theorem move_advances (p : Point) (hret : ∀ err, p ≠ .returned err)
    (hwr : ∀ reason cause, p ≠ .write reason cause)
    (hter : ∀ reason, p.terminal = some reason → g.terminalChosen = true ∧ reason = g.terminalReason)
    (hsuc : ∀ cause, p = .finish .success cause → g.first = true)
    (hca : th.call.validates = true → ∀ cause, p.cause = some cause → cause ≠ [])
    (hla : th.late = true → p ≠ .inspect)
    (hho : th.call = .beforeFirstEmission → g'.holder = some t ∧ g.first = false)
    (hcon : ({ th with point := p } : Thread).consuming.toNat + g.consumed.toNat ≤
      th.consuming.toNat + g'.consumed.toNat)
    (hown : ∀ reason, th.call = .finish reason → p.plain = false ∧ ∀ r, p.reason = some r → r = reason)
    (hset : th.point.settling = true → p.settling = true)
    (hwa : p.waits = true → g.terminalChosen = true)
    (hne : p.needsWriter = true → th.point.needsWriter = true) :
    Advances sha g t th g' { th with point := p } := by
  have hemi : ({ th with point := p } : Thread).emitted = th.emitted :=
    (Thread.emitted_eq_false hret).trans (Thread.emitted_eq_false hp).symm
  refine Quiet.advances h hq ?_ hcon hemi ?_ (fun _ => hset) hwa hne
  · constructor
    · intro reason hr
      rw [hq.chosen, hq.reason]
      exact hter reason hr
    · intro cause hc
      exact hq.first ▸ hsuc cause hc
    · exact hca
    · intro hl
      exact ⟨hq.chosen ▸ (hth.late hl).1, fun _ => ⟨hla hl, hret []⟩⟩
    · intro reason hr
      rw [hq.chosen, hq.reason]
      exact hth.finished reason hr
    · intro hc _
      exact ⟨(hho hc).1, hq.first ▸ (hho hc).2⟩
    · intro reason hc
      exact ⟨(hown reason hc).1, (hown reason hc).2, fun hr => absurd hr (hret [])⟩
  · cases p with
    | write reason cause => exact absurd rfl (hwr reason cause)
    | _ => simp [writing]

theorem plain_advances (p : Point) (hpl : p.plain = true) (hla : th.late = true → p ≠ .inspect)
    (hho : th.call = .beforeFirstEmission → g'.holder = some t ∧ g.first = false)
    (hcon : ({ th with point := p } : Thread).consuming.toNat + g.consumed.toNat ≤
      th.consuming.toNat + g'.consumed.toNat) (hca : ∀ reason, th.call ≠ .finish reason)
    (hset : th.point.settling = false) (hwa : p.waits = true → g.terminalChosen = true) :
    Advances sha g t th g' { th with point := p } := by
  refine move_advances h hth hp hq p ?_ ?_ ?_ ?_ ?_ hla hho hcon (fun reason hc =>
    absurd hc (hca reason))
    (by simp [hset]) hwa ?_ <;>
    cases p <;> simp_all [Point.plain, Point.terminal, Point.cause, Point.needsWriter]

end

theorem invalid_advances (hp : th.point = .awaitTerminal ∨ th.point = .inspect) (err : Errors) :
    Advances sha g t th (g.invalid th err).1 (g.invalid th err).2 := by
  have hin : th.point.inside = true := by rcases hp with hp | hp <;> rw [hp] <;> rfl
  have hpl : th.point.plain = true := by rcases hp with hp | hp <;> rw [hp] <;> rfl
  refine move_advances h hth ?_ .refl _ ?_ ?_ ?_ ?_ ?_ ?_ (hth.stays hin) ?_
    (fun reason hc => absurd hc (hth.not_finish hpl reason)) ?_ nofun nofun
  · rcases hp with hp | hp <;> simp [hp]
  · simp
  · simp
  · simp [Point.terminal]
  · intro cause hc
    exact absurd (Point.finish.inj hc).1 (reasonForGateError_ne_success err)
  · simp [Point.cause]
  · simp
  · have hcon : ∀ q : Point, (q = .awaitTerminal ∨ q = .inspect) →
        ({ th with point := q } : Thread).consuming = (th.call matches .consumeForCarrier) := by
      rintro q (rfl | rfl) <;> simp [consuming]
    have hth' : th.consuming = (th.call matches .consumeForCarrier) := hcon th.point hp
    rw [hth']
    simp [consuming]
  · rcases hp with hp | hp <;> simp [hp, Point.settling]

/-- A call that returns an error without having finished the attempt. -/
theorem fail_advances (hp : ∀ err, th.point ≠ .returned err) (hset : th.point.settling = false)
    (e : GateErr) (err : Errors) :
    Advances sha g t th (g.ret t th (e :: err)).1 (g.ret t th (e :: err)).2 :=
  ret_advances h hth hp .refl rfl hth.finished (by simp) (by simp) (by simp) (by simp) fun _ => hset

theorem start_advances (hp : th.point = .start)
    (hs : g.startCall t th = some (g', th')) : Advances sha g t th g' th' := by
  have hret : ∀ err, th.point ≠ .returned err := by simp [hp]
  have hset : th.point.settling = false := by rw [hp]; rfl
  have hfr : g.holder.isSome = false → ∀ t' ≠ t, g.holder = some t' → some t = some t' := by
    intro hfr t' _ ht
    rw [ht] at hfr
    cases hfr
  unfold Gate.startCall at hs
  split at hs
  · rename_i hca
    split_ifs at hs with hcon hcho
    · cases hs
      exact fail_advances h hth hret hset _ _
    · cases hs
      refine plain_advances h hth hret .refl .awaitConsumed rfl (by simp) (by simp [hca]) ?_
        (by simp [hca])
        hset fun _ => hcho
      simp [consuming]
    · cases hs
      have hq : Quiet t g { g with consumed := true } := ⟨rfl, rfl, ⟨rfl, rfl⟩, id, rfl, rfl, rfl,
        fun _ _ ht => ht⟩
      refine plain_advances h hth hret hq .validate rfl (by simp) (by simp [hca]) ?_ (by simp [hca])
        hset
        nofun
      simp [consuming, hca, hcon]
  · rename_i hca
    split_ifs at hs with hhe hfi
    · cases hs
      exact fail_advances h hth hret hset _ _
    · cases hs
      have hq : Quiet t g { g with holder := some t } :=
        ⟨rfl, rfl, ⟨rfl, rfl⟩, id, rfl, rfl, rfl, hfr (by simpa using hhe)⟩
      refine plain_advances h hth hret hq .validate rfl (by simp) (fun _ =>
        ⟨rfl, by simpa using hfi⟩) ?_
        (by simp [hca]) hset nofun
      simp [consuming, hca]
  · rename_i hca
    split_ifs at hs with hhe hfi
    · cases hs
      refine plain_advances h hth hret .refl .validate rfl (by simp) (by simp [hca]) ?_
        (by simp [hca]) hset
        nofun
      simp [consuming, hca]
    · cases hs
      exact fail_advances h hth hret hset _ _
  · rename_i reason hca
    split_ifs at hs with hhe hsuc
    · cases hs
      exact fail_advances h hth hret hset _ _
    cases hs
    refine move_advances h hth hret .refl (.finish reason []) (by simp) (by simp)
      (by simp [Point.terminal]) ?_
      (by simp [hca, Call.validates]) (by simp) (by simp [hca]) ?_ ?_ (by simp [hset]) nofun nofun
    · intro cause hc
      obtain ⟨rfl, -⟩ := Point.finish.inj hc
      simpa using hsuc
    · simp [consuming, hca]
    · intro r hc
      obtain rfl : reason = r := Call.finish.inj (hca.symm.trans hc)
      exact ⟨rfl, fun r hr => (some.inj hr).symm⟩
  · rename_i hca
    split_ifs at hs
    cases hs
    exact ret_advances h hth hret .refl rfl hth.finished (by simp [hca, Call.emits]) (by simp [hca])
      (by simp [hca]) (by simp [hca]) fun _ => hset

theorem finishRet_advances (hq : Quiet t g g') (hcon : g'.consumed = g.consumed)
    (hp : th.point.cause = some cause) (hrea : th.point.reason = some reason)
    (herr : err = [] → g.terminalChosen = true ∧ reason = g.terminalReason)
    (hset : g'.finished = false → th.point.settling = false) :
    Advances sha g t th (g'.finishRet t th reason err cause).1
      (g'.finishRet t th reason err cause).2 := by
  have hcau : th.call.validates = true → cause ≠ [] := fun hv => hth.cause hv cause hp
  refine ret_advances h hth ?_ hq hcon ?_ ?_ ?_ ?_ ?_ hset
  · intro e he
    rw [he] at hp
    cases hp
  · intro r hr
    obtain ⟨rfl, rfl⟩ := Prod.mk.inj (some.inj hr)
    exact herr rfl
  · intro _ hem
    have hval : th.call.validates = true := by
      cases hca : th.call <;> simp_all [Call.emits, Call.validates]
    simp [hcau hval]
  · intro hca
    simp [hcau (by rw [hca]; rfl)]
  · intro hca hnil
    simp [hcau (by rw [hca]; rfl)] at hnil
  · intro r hca hnil
    rw [← (hth.own r hca).2.1 reason hrea]
    exact herr (append_eq_nil_iff.1 hnil).2

theorem accept_advances (hp : th.point = .inspect) :
    Advances sha g t th (g.accept t th).1 (g.accept t th).2 := by
  have hret : ∀ err, th.point ≠ .returned err := by simp [hp]
  have hla : th.late = true → th.call.emits = false := by
    intro hl
    have hpo := (hth.late hl).2
    rw [hp] at hpo
    simpa using hpo
  cases hca : th.call with
  | beforeFirstEmission =>
    obtain ⟨hhol, hfi⟩ := hth.holds hca (by rw [hp]; rfl)
    have hacc : g.accept t th = { g with first := true }.ret t th [] := by rw [Gate.accept, hca]
    have hnot : th.late = false := by
      cases hl : th.late with
      | false => rfl
      | true => have := hla hl; rw [hca] at this; cases this
    rw [hacc]
    refine ⟨⟨fun hc => ⟨hc, rfl⟩, fun _ => rfl, ?_⟩, ?_, h.reachable, h.receipt, ?_, ?_, ?_,
      h.reason, h.writer, fun _ _ => rfl, id, ?_, .inl, id, nofun, nofun, .inl ⟨rfl, rfl⟩⟩
    · intro t' hne ht
      rw [hhol] at ht
      exact absurd (some.inj ht).symm hne
    · refine ⟨?_, ?_, ?_, ?_, hth.finished, ?_, fun reason hc => absurd (hca.symm.trans hc) (by simp)⟩
      · exact nofun
      · exact nofun
      · exact nofun
      · intro hl
        have hl' : th.late = true := hl
        cases hnot.symm.trans hl'
      · exact nofun
    · simp [consuming, ret, hca]
    · simp [emitted, ret, hca, hp, hfi]
    · simp [writing, ret, hp, Gate.writerPending, Gate.finishRecords]
    · simp [hp, Point.settling]
  | _ =>
    have hacc : g.accept t th = g.ret t th [] := by rw [Gate.accept, hca]
    rw [hacc]
    refine ret_advances h hth hret .refl rfl hth.finished ?_ (by simp [hca]) ?_
      (fun reason hc => absurd hc (hth.not_finish (by rw [hp]; rfl) reason)) fun _ => by rw [hp]; rfl
    · intro hl hem
      rw [hla hl] at hem
      cases hem
    · simp [consuming, hp, hca]

theorem choose_advances (hp : th.point = .finish reason cause) :
    Advances sha g t th (g.choose t th reason cause).1 (g.choose t th reason cause).2 := by
  have hca : th.point.cause = some cause := by rw [hp]; rfl
  have hrea : th.point.reason = some reason := by rw [hp]; rfl
  have hret : ∀ err, th.point ≠ .returned err := by simp [hp]
  have hin : th.point.inside = true := by rw [hp]; rfl
  unfold Gate.choose
  split_ifs with hva hcho
  · exact finishRet_advances h hth .refl rfl hca hrea (by simp) fun _ => by rw [hp]; rfl
  · refine move_advances h hth hret .refl (.awaitFinish g.terminalReason reason cause) (by simp)
      (by simp) ?_ (by simp)
      ?_ (by simp) (hth.stays hin) ?_ (fun r hc => ⟨rfl,
        fun r' hr => (hth.own r hc).2.1 r' (hrea.trans hr)⟩)
      (by simp [hp, Point.settling]) (fun _ => hcho) nofun
    · simp [Point.terminal, hcho]
    · simpa [Point.cause] using fun hv => hth.cause hv cause hca
    · simp [consuming, hp]
  -- the terminal is chosen here: the token is made
  have hcho : g.terminalChosen = false := by simpa using hcho
  have hno : g.writerPending = 0 ∧ g.finishRecords = [] := by
    have hw := h.written
    rw [hcho, toNat_false] at hw
    exact ⟨by omega, eq_nil_of_length_eq_zero (by omega)⟩
  refine ⟨⟨?_, id, fun _ _ ht => ⟨ht, rfl⟩⟩, ?_, h.reachable, h.receipt, ?_, ?_, ?_, ?_, ?_, ?_, id,
    fun _ _ => rfl, fun _ => .inr rfl, fun _ => rfl, nofun, nofun, .inl ⟨rfl, rfl⟩⟩
  · intro hc
    cases hcho.symm.trans hc
  · refine ⟨?_, ?_, ?_, ?_, ?_, fun hc _ => hth.stays hin hc,
      fun r hc => ⟨rfl, fun r' hr => (hth.own r hc).2.1 r' (hrea.trans hr), fun hr => by cases hr⟩⟩
    · intro r hr
      exact ⟨rfl, (some.inj hr).symm⟩
    · exact nofun
    · intro hv c hc
      exact some.inj hc ▸ hth.cause hv cause hca
    · intro hl
      exact ⟨rfl, fun _ => ⟨by simp, by simp⟩⟩
    · intro r hr
      have hfin := (hth.finished r hr).1
      cases hcho.symm.trans hfin
  · simp [consuming, hp]
  · simp [emitted, hp]
  · change 1 + g.writerPending + g.finishRecords.length + g.terminalChosen.toNat ≤
      th.writing.toNat + g.writerPending + g.finishRecords.length + 1
    rw [hcho, toNat_false]
    omega
  · change ∀ f ∈ g.finishRecords, f.reason = reason
    simp [hno.2]
  · intro r p hw
    have hc := (h.writer r p hw).1
    cases hcho.symm.trans hc
  · intro _ hsuc
    have hsuc : reason = .success := hsuc
    exact hth.success cause (hsuc ▸ hp)

/-- A call that goes on after it has chosen the terminal, with the token handed on. -/
theorem settled_advances {p : Point} (hter : th.point.terminal = some reason)
    (hca : th.point.cause = some cause) (hter' : p.terminal = some reason)
    (hrea : p.reason = th.point.reason) (hca' : p.cause = some cause)
    (hwr : ({ th with point := p } : Thread).writing = false) (hset : p.settling = true)
    (hwa : p.waits = false) (hne : p.needsWriter = true → th.point.needsWriter = true) :
    Advances sha g t th g { th with point := p } := by
  -- a call with a cause has neither returned nor not consumed
  have hsa : ∀ q : Point, q.cause = some cause →
      ({ th with point := q } : Thread).consuming = (th.call matches .consumeForCarrier) ∧
        ({ th with point := q } : Thread).emitted = false := by
    intro q hq
    cases q <;> simp_all [Point.cause, consuming, emitted]
  obtain ⟨hcon, hemi⟩ : th.consuming = _ ∧ th.emitted = _ := hsa th.point hca
  refine Quiet.advances h .refl (hth.settled hter hca hter' hrea hca') ?_
    ((hsa p hca').2.trans hemi.symm) (by simp [hwr]) (fun _ _ => hset) (by simp [hwa]) hne
  rw [hcon, (hsa p hca').1]

theorem write_advances (hp : th.point = .write reason cause)
    (hs : g.advance sha t th o = some (g', th')) : Advances sha g t th g' th' := by
  have hter : th.point.terminal = some reason := by rw [hp]; rfl
  have hca : th.point.cause = some cause := by rw [hp]; rfl
  have hpo : some reason = th.point.reason := by rw [hp]; rfl
  obtain ⟨hcho, hrea⟩ := hth.terminal reason hter
  simp only [advance, hp] at hs
  split_ifs at hs with hloo
  · cases hs
    refine ⟨⟨fun hc => ⟨hc, rfl⟩, id, fun _ _ ht => ⟨ht, rfl⟩⟩,
      (hth.settled (p := .verdict reason cause) hter hca rfl hpo rfl).same rfl rfl rfl rfl,
      h.reachable, h.receipt, ?_, ?_, ?_, h.reason, ?_,
      h.success, id, fun _ _ => rfl, .inl, id, nofun, fun _ => .inr rfl, .inr ⟨reason, rfl⟩⟩
    · simp [consuming, hp]
    · simp [emitted, hp]
    · simp only [writing, hp, Gate.finishRecords, Gate.writerPending]
      simp
    · intro r p hw
      cases hw
      exact ⟨hcho, hrea⟩
  · obtain ⟨w, hw, hre, hrec, hlen, hreas⟩ := finishLedger_spec h o hrea
    rw [hw] at hs
    cases hs
    refine ⟨⟨fun hc => ⟨hc, rfl⟩, id, fun _ _ ht => ⟨ht, rfl⟩⟩,
      (hth.settled (p := .complete reason _ cause) hter hca rfl hpo rfl).same rfl rfl rfl rfl,
      hre, hrec, ?_, ?_, ?_, hreas, h.writer,
      h.success, id, fun _ _ => rfl, .inl, id, nofun, nofun, .inl ⟨rfl, rfl⟩⟩
    · simp [consuming, hp]
    · simp [emitted, hp]
    · simp only [writing, hp, Gate.writerPending]
      simp
      omega

theorem publish_advances (hter : th.point.terminal = some reason)
    (hrea : th.point.reason = some reason) (hca : th.point.cause = some cause) :
    Advances sha g t th (g.publish t th reason err cause).1 (g.publish t th reason err cause).2 := by
  have hq : Quiet t g { g with terminalErr := err, finished := true } :=
    ⟨rfl, rfl, ⟨rfl, rfl⟩, nofun, rfl, rfl, rfl, fun _ _ ht => ht⟩
  exact finishRet_advances h hth hq rfl hca hrea (fun _ => hth.terminal reason hter) nofun

/-- **What a section of a call does.** -/
theorem advance_ok (hs : g.advance sha t th o = some (g', th')) : Advances sha g t th g' th' := by
  have hst := hs
  revert hst
  fun_cases advance sha g t th o
  case case1 hp => exact start_advances h hth hp
  case case7 hp =>
    intro hst
    split_ifs at hst
    · have hacc := accept_advances h hth hp
      rwa [some.inj hst] at hacc
    · cases hst
      exact invalid_advances h hth (.inr hp) _
  case case8 hp =>
    intro hst
    have hchoo := choose_advances h hth hp
    rwa [some.inj hst] at hchoo
  case case11 hp _ | case12 hp _ _ _ _ => exact fun _ => write_advances h hth hp hs
  all_goals rintro ⟨⟩
  case case2 hp _ => exact fail_advances h hth (by simp [hp]) (by rw [hp]; rfl) _ _
  case case4 hp =>
    refine plain_advances h hth (by simp [hp]) .refl _ ?_ ?_ (hth.stays (by rw [hp]; rfl)) ?_
      (hth.not_finish (by rw [hp]; rfl)) (by rw [hp]; rfl) ?_
    · split_ifs <;> rfl
    · intro hl
      simp [(hth.late hl).1]
    · split_ifs <;> simp [consuming, hp]
    · split_ifs with hcho <;> simp [Point.waits, hcho]
  case case5 hp _ => exact invalid_advances h hth (.inl hp) _
  case case9 chosen _ _ hp _ =>
    refine finishRet_advances h hth .refl rfl (by rw [hp]; rfl) (by rw [hp]; rfl) ?_ fun _ => by
      rw [hp]; rfl
    split_ifs with hne
    · simp
    · obtain ⟨hcho, hrea⟩ := hth.terminal chosen (by rw [hp]; rfl)
      exact fun _ => ⟨hcho, not_not.1 hne ▸ hrea⟩
  case case15 hp =>
    refine settled_advances h hth (by rw [hp]; rfl) (by rw [hp]; rfl) ?_ ?_ ?_ ?_ ?_ ?_ fun _ => by
      rw [hp]; rfl
    all_goals split_ifs
    all_goals first | rfl | rw [hp]; rfl
  case case13 hp | case16 hp _ =>
    exact settled_advances h hth (by rw [hp]; rfl) (by rw [hp]; rfl) rfl (by rw [hp]; rfl)
      rfl rfl rfl rfl nofun
  case case14 hp | case18 hp =>
    exact publish_advances h hth (by rw [hp]; rfl) (by rw [hp]; rfl) (by rw [hp]; rfl)

end Sections

/-! ## Every step -/

section Steps

variable {sha : Sha256} {g g' : Gate} {o : Answer}

/-- What a step does: it keeps the invariant and the terminal that was chosen, and the calls that
settle it can go on. -/
structure StepOK (sha : Sha256) (g g' : Gate) : Prop where
  ok : GateOK sha g'
  terminal : g.terminalChosen = true → g'.terminalChosen = true ∧ g'.terminalReason = g.terminalReason
  live : Live g → Live g'

theorem writer_stepOK (h : GateOK sha g) {reason : TerminalReason} {p p' : WriterPoint}
    (hw : g.writer = some (reason, p)) (err : Errors) (done : Bool)
    (hle : ({ g with writer := some (reason, p') } : Gate).writerPending ≤ g.writerPending)
    (hdo : Live g → p' = .complete ∨ p' = .done → done = true) :
    StepOK sha g { g with writer := some (reason, p'), writerErr := err, writerDone := done } where
  ok :=
    { h with
      threads := fun t th ht => (h.threads t th ht).same rfl rfl rfl rfl
      written := (Nat.add_le_add_right (Nat.add_le_add_left hle _) _).trans h.written
      writer := fun r q hr => by
        cases hr
        exact h.writer reason p hw }
  terminal hcho := ⟨hcho, rfl⟩
  live hl := ⟨hl.settler, fun _ _ _ _ => rfl, fun r q hq hd => (by cases hq; exact hdo hl hd), hl.waits⟩

theorem write_stepOK (h : GateOK sha g) (hs : g.write sha o = some g') : StepOK sha g g' := by
  revert hs
  fun_cases Gate.write sha g o <;> rintro ⟨⟩
  case case3 hw | case4 hw | case5 hw =>
    exact writer_stepOK h hw _ _ (by simp [Gate.writerPending, hw]) (by simp)
  case case6 reason hook networkErr hw g₁ finishErr hfin =>
    -- the token becomes the record
    obtain ⟨w, hled, hre, hrec, hlen, hrea⟩ := finishLedger_spec h o (h.writer reason _ hw).2
    rw [hfin] at hled
    simp only at hled
    subst hled
    have hwri := h.written
    refine ⟨⟨hre, hrec, fun t th ht => (h.threads t th ht).same rfl rfl rfl rfl, h.consumed,
      h.emitted, ?_, hrea,
      ?_, h.success⟩, fun hcho => ⟨hcho, rfl⟩, fun hl => ⟨hl.settler, fun _ _ _ _ => rfl, ?_, hl.waits⟩⟩
    · have hpen : g.writerPending = 1 := by simp [Gate.writerPending, hw]
      rw [hpen] at hwri
      change g.threads.countP writing + 0 + ({ g with ledger := w } : Gate).finishRecords.length ≤ _
      exact le_trans (by omega) hwri
    · intro r q hr
      cases hr
      exact h.writer reason _ hw
    · intro r q hr hd
      cases hr
      rcases hd with hd | hd <;> cases hd
  case case7 hw => exact writer_stepOK h hw _ _ (by simp [Gate.writerPending]) fun _ _ => rfl
  case case8 reason hw =>
    exact writer_stepOK h hw _ _ (by simp [Gate.writerPending]) fun hl _ =>
      hl.done reason _ hw (.inl rfl)

/-- Another process appends to the ledger. -/
theorem other_gateOK (h : GateOK sha g) {a : Winkyou.Action Bool} (ha : g.foreign a) :
    GateOK sha { g with ledger := g.ledger.act journalStorage sha a } := by
  have hrec : ({ g with ledger := g.ledger.act journalStorage sha a } : Gate).finishRecords =
    g.finishRecords := by
    change finishesOf _ _ = finishesOf _ _
    rcases @finishesOf_act sha g.ledger a (reachable_ok h.reachable) g.receipt.credentialID with
      hsa | ⟨_, _, _, _, _, rfl, hcr, -⟩
    · exact hsa
    · have hfor := ha.2
      simp [Gate.finishes, hcr] at hfor
  refine { h with
    reachable := h.reachable.act a ha.1, receipt := mem_receipts_act h.receipt
    threads := fun t th ht => (h.threads t th ht).same rfl rfl rfl rfl, written := ?_, reason := ?_ }
  · rw [hrec]
    exact h.written
  · rw [hrec]
    exact h.reason

theorem call_gateOK (h : GateOK sha g) (call : Call) :
    GateOK sha { g with threads := g.threads ++ [{ call := call, late := g.terminalChosen }] } := by
  have hnew : ThreadOK { g with threads := g.threads ++ [{ call := call, late := g.terminalChosen }] } g.threads.length
      { call := call, late := g.terminalChosen } := by
    refine ⟨?_, ?_, ?_, fun hl => ⟨hl, fun _ => ⟨by simp, by simp⟩⟩, ?_, ?_,
      fun r _ => ⟨rfl, by simp [Point.reason], by simp⟩⟩
    · exact nofun
    · exact nofun
    · exact nofun
    · exact nofun
    · exact nofun
  refine ⟨h.reachable, h.receipt, ?_, ?_, ?_, ?_, h.reason, h.writer, h.success⟩
  · intro t th ht
    rcases Nat.lt_or_ge t g.threads.length with hlt | hge
    · rw [List.getElem?_append_left hlt] at ht
      exact (h.threads t th ht).same rfl rfl rfl rfl
    · rw [getElem?_append_right hge] at ht
      obtain ⟨hz, rfl⟩ := List.getElem?_eq_some_iff.1 ht
      have hz' : t - g.threads.length = 0 := by simpa using hz
      have ht' : t = g.threads.length := by omega
      simp only [ht', Nat.sub_self, getElem_cons_zero]
      exact hnew
  · simpa [consuming] using h.consumed
  · simpa [emitted] using h.emitted
  · simpa [writing, Gate.writerPending, Gate.finishRecords] using h.written

theorem Live.call (h : Live g) (call : Call) :
    Live { g with threads := g.threads ++ [{ call := call, late := g.terminalChosen }] } := by
  -- a new call neither needs the writer nor waits
  have hold : ∀ (u : ℕ) (uh : Thread), (g.threads ++
    [{ call := call, late := g.terminalChosen }])[u]? = some uh →
      uh.point ≠ .start → ∃ v : ℕ, g.threads[v]? = some uh := by
    intro u uh hu hst
    rcases mem_append.1 (mem_of_getElem? hu) with hmem | hnew
    · exact mem_iff_getElem?.1 hmem
    · rw [mem_singleton.1 hnew] at hst
      exact absurd rfl hst
  refine ⟨?_, ?_, h.done, ?_⟩
  · intro hc hf
    obtain ⟨u, uh, hu, hset⟩ := h.settler hc hf
    exact ⟨u, uh, by rw [List.getElem?_append_left (List.getElem?_eq_some_iff.1 hu).1]; exact hu, hset⟩
  · intro u uh hu hne
    obtain ⟨v, hv⟩ := hold u uh hu fun hp => by rw [hp] at hne; cases hne
    exact h.writer v uh hv hne
  · intro u uh hu hwa
    obtain ⟨v, hv⟩ := hold u uh hu fun hp => by rw [hp] at hwa; cases hwa
    exact h.waits v uh hv hwa

theorem Advances.stepOK {th' : Thread} (h : GateOK sha g) (hth : g.threads[t]? = some th)
    (ha : Advances sha g t th g' th') : StepOK sha g { g' with threads := g.threads.set t th' } :=
  ⟨ha.gateOK h hth, ha.keeps.terminal, fun hl => hl.advance hth ha.settles⟩

theorem fire_stepOK (h : GateOK sha g) (invalidation : Invalidation) {late : Bool}
    {finished : Option (TerminalReason × Errors)} {rest : List Thread}
    (hthr : g.threads = ⟨.watchInvalidation, late, .start, finished⟩ :: rest) :
    StepOK sha g { g with threads := ⟨.watchInvalidation, late, .finish invalidation.reason [],
      finished⟩ :: rest } := by
  have hth : g.threads[0]? = some ⟨.watchInvalidation, late, .start, finished⟩ := by simp [hthr]
  have hmo : Advances sha g 0 ⟨.watchInvalidation, late, .start, finished⟩ g
      ⟨.watchInvalidation, late, .finish invalidation.reason [], finished⟩ := by
    refine move_advances h (h.threads 0 _ hth) (by simp) .refl (.finish invalidation.reason [])
      (by simp) (by simp)
      (by simp [Point.terminal]) ?_ (by simp [Call.validates]) (by simp) (by simp)
        (by simp [consuming]) (by simp)
      nofun nofun nofun
    intro cause hc
    have hsuc := (Point.finish.inj hc).1
    cases invalidation with
    | contextEnd deadline => cases deadline <;> cases hsuc
    | _ => cases hsuc
  have hset : StepOK sha g { g with threads := g.threads.set 0 _ } := hmo.stepOK h hth
  rwa [hthr, set_cons_zero] at hset

/-- **What a step does.** -/
theorem step_stepOK (h : GateOK sha g) {a : Gate.Action} (hs : g.step sha a = some g') :
    StepOK sha g g' := by
  cases a with
  | call call =>
    simp only [step] at hs
    split_ifs at hs
    cases hs
    exact ⟨call_gateOK h call, fun hcho => ⟨hcho, rfl⟩, fun hl => hl.call call⟩
  | run t o =>
    simp only [step, Option.bind_eq_bind, Option.bind_eq_some_iff] at hs
    obtain ⟨th, hth, ⟨g₁, th₁⟩, hadv, hs⟩ := hs
    cases hs
    exact (advance_ok h (h.threads t th hth) hadv).stepOK h hth
  | fire invalidation =>
    simp only [step] at hs
    split at hs <;> cases hs
    rename_i hthr
    exact fire_stepOK h invalidation hthr
  | write o => exact write_stepOK h hs
  | other a =>
    simp only [step] at hs
    split_ifs at hs with ha
    cases hs
    exact ⟨other_gateOK h ha, fun hcho => ⟨hcho, rfl⟩, fun hl => ⟨hl.settler, hl.writer, hl.done,
      hl.waits⟩⟩

theorem initial_gateOK (h : Gate.Initial sha g) : GateOK sha g := by
  obtain ⟨w, now, request, reported, receipt, loopback, hw, hadm, rfl⟩ := h
  obtain ⟨hno, hrece⟩ := finishesOf_admit hw hadm
  have hrec : ({ ledger := w.act journalStorage sha (.admitRequest now request reported)
                 receipt := receipt
                 loopback := loopback } : Gate).finishRecords = [] := hno
  refine ⟨hw.act (.admitRequest now request reported) trivial, hrece, ?_, by simp [consuming],
    by simp [emitted], ?_, ?_, ?_, ?_⟩
  · intro t th ht
    obtain ⟨hlt, rfl⟩ := List.getElem?_eq_some_iff.1 ht
    have ht0 : t = 0 := by simpa using hlt
    subst ht0
    constructor <;> simp [Point.terminal, Point.cause, Point.inside, Point.reason]
  · rw [hrec]
    simp [writing, Gate.writerPending]
  · rw [hrec]
    simp
  · exact nofun
  · exact nofun

end Steps

end Winkyou.PairingGate
