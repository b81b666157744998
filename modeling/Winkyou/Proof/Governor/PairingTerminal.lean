import Winkyou.Lib.Transition
import Winkyou.Proof.Governor.PairingGate

/-!
# The pairing gate has one terminal

* `GateOK.linearised`: one terminal, one authorization and one first emission.
* `Live`, `call_returns`: the call that has chosen the terminal can finish it, so no call is left
  waiting for it.
* `gate_linearised`: both, in every interleaving.
-/

namespace Winkyou.PairingGate

open List Bool
open Gate (advance write)

variable {reason : TerminalReason} {cause err : Errors}

/-! ## One terminal -/

/-- The gate has one terminal, one authorization and one first emission. -/
structure Linearised (g : Gate) : Prop where
  /-- At most one FINISH record, with the reason of the terminal that was chosen. -/
  one_finish : g.finishRecords.length ≤ 1 ∧ ∀ f ∈ g.finishRecords, g.terminalChosen = true ∧
    f.reason = g.terminalReason
  one_authorization :
    (g.threads.filter fun th => (th.call matches .consumeForCarrier) &&
      (th.point matches .returned [])).length ≤ 1
  one_emission :
    (g.threads.filter fun th => (th.call matches .beforeFirstEmission) &&
      (th.point matches .returned [])).length ≤ 1
  /-- A FINISH(success) record is there only after a `BeforeFirstEmission` has succeeded. -/
  success_after_emission : ∀ f ∈ g.finishRecords, f.reason = .success →
    ∃ th ∈ g.threads, th.call = .beforeFirstEmission ∧ th.point = .returned []
  /-- A `finish` with another reason than the chosen one returned an error, and so did a
  `Finish`. -/
  other_reason_fails : ∀ th ∈ g.threads, ∀ reason, ¬ (g.terminalChosen = true ∧
    reason = g.terminalReason) →
    th.finished ≠ some (reason, []) ∧ (th.call = .finish reason → th.point ≠ .returned [])
  /-- What begins after the terminal was chosen fails. -/
  late_fails : ∀ th ∈ g.threads, th.late = true → th.call = .beforeFirstEmission ∨
    th.call = .checkActive → th.point ≠ .returned []

theorem GateOK.chosen_of_record {sha : Sha256} {g : Gate} (h : GateOK sha g) {f : Record}
    (hf : f ∈ g.finishRecords) : g.terminalChosen = true := by
  have hwri := h.written
  have hpos := length_pos_of_mem hf
  cases hc : g.terminalChosen with
  | true => rfl
  | false =>
    rw [hc, toNat_false] at hwri
    omega

theorem GateOK.linearised {sha : Sha256} {g : Gate} (h : GateOK sha g) : Linearised g where
  one_finish := by
    have hwri := h.written
    have hle : g.terminalChosen.toNat ≤ 1 := toNat_le _
    exact ⟨by omega, fun f hf => ⟨h.chosen_of_record hf, h.reason f hf⟩⟩
  one_authorization := by
    rw [← countP_eq_length_filter]
    calc _ ≤ g.threads.countP Thread.consuming := by
          refine countP_mono_left fun th _ hth => ?_
          obtain ⟨call, late, point, finished⟩ := th
          cases call <;> cases point with
          | returned err => cases err <;> simp_all [Thread.consuming]
          | _ => simp_all
      _ ≤ g.consumed.toNat := h.consumed
      _ ≤ 1 := toNat_le _
  one_emission := by
    rw [← countP_eq_length_filter]
    exact h.emitted.trans_le (toNat_le _)
  success_after_emission := by
    intro f hf hsuc
    have hfi := h.success (h.chosen_of_record hf) ((h.reason f hf).symm.trans hsuc)
    have hco := h.emitted
    rw [hfi, toNat_true] at hco
    obtain ⟨th, hmem, hth⟩ := countP_pos_iff.1 (hco ▸ Nat.one_pos)
    exact ⟨th, hmem, Thread.emitted_iff.1 hth⟩
  other_reason_fails := by
    intro th hmem reason hne
    obtain ⟨t, ht⟩ := mem_iff_getElem?.1 hmem
    have hth := h.threads t th ht
    exact ⟨fun hf => hne (hth.finished reason hf), fun hc hp => hne ((hth.own reason hc).2.2 hp)⟩
  late_fails := by
    intro th hmem hl hca
    obtain ⟨t, ht⟩ := mem_iff_getElem?.1 hmem
    refine (((h.threads t th ht).late hl).2 ?_).2
    rcases hca with hc | hc <;> rw [hc] <;> rfl

/-! ## No call waits for ever -/

section Progress

variable {sha : Sha256} {g g' : Gate} {t : ℕ} {th th' : Thread} {o : Answer}

theorem finishLedger_fields (g : Gate) (reason : TerminalReason) (o : Answer) :
    ∃ w, (g.finishLedger sha reason o).1 = { g with ledger := w } := by
  unfold Gate.finishLedger
  split_ifs
  · exact ⟨g.ledger, rfl⟩
  · exact ⟨_, rfl⟩

theorem initial_live (h : Gate.Initial sha g) : Live g := by
  obtain ⟨w, now, request, reported, receipt, loopback, -, -, rfl⟩ := h
  refine ⟨(fun hc => nomatch hc), ?_, (fun r p hw => nomatch hw), ?_⟩
  · intro t th ht hne
    rw [mem_singleton.1 (mem_of_getElem? ht)] at hne
    cases hne
  · intro t th ht hwa
    rw [mem_singleton.1 (mem_of_getElem? ht)] at hwa
    cases hwa

/-- Steps from `g` after which call `t` has returned, the terminal is finished if `t` was settling
it, and the other calls are where they were. -/
def Ends (sha : Sha256) (g : Gate) (t : ℕ) (finishes : Bool) : Prop :=
  ∃ g', Transition.Reachable (Gate.step sha) (· = g) (fun _ _ => True) g' ∧
    (finishes = true → g'.finished = true) ∧
    (∀ u ≠ t, g'.threads[u]? = g.threads[u]?) ∧ ∃ th err, g'.threads[t]? = some th ∧
      th.point = .returned err

variable {finishes : Bool}

theorem Ends.of_step {a : Gate.Action} (hs : g.step sha a = some g')
    (hfr : ∀ u ≠ t, g'.threads[u]? = g.threads[u]?) (h : Ends sha g' t finishes) :
    Ends sha g t finishes := by
  obtain ⟨g'', hrun, hfin, hfr', hret⟩ := h
  have hfi : Transition.Reachable (Gate.step sha) (· = g) (fun _ _ => True) g' :=
    .step (.start rfl) trivial hs
  exact ⟨g'', hfi.trans hrun, hfin, fun u hu => (hfr' u hu).trans (hfr u hu), hret⟩

section

variable (hth : g.threads[t]? = some th) (hs : g.advance sha t th o = some (g', th'))

include hth hs

theorem run_step :
    g.step sha (.run t o) = some { g' with threads := g.threads.set t th' } ∧
      (∀ u ≠ t, (g.threads.set t th')[u]? = g.threads[u]?) ∧ (g.threads.set t th')[t]? = some th' := by
  have hlt : t < g.threads.length := (List.getElem?_eq_some_iff.1 hth).1
  refine ⟨by simp [Gate.step, hth, hs], fun u hu => List.getElem?_set_ne (Ne.symm hu), by simp [hlt]⟩

theorem Ends.of_run (h : Ends sha { g' with threads := g.threads.set t th' } t finishes) :
    Ends sha g t finishes := by
  obtain ⟨hst, hfr, -⟩ := run_step hth hs
  exact h.of_step hst hfr

theorem Ends.of_return (hret : th'.point = .returned err)
    (hfin : finishes = true → g'.finished = true) : Ends sha g t finishes := by
  obtain ⟨hst, hfr, hse⟩ := run_step hth hs
  exact ⟨_, .step (.start rfl) trivial hst, hfin, hfr, th', err, hse, hret⟩

end

def quietAnswer : Answer := { now := .zero }

/-- The verdict of a finalization that has timed out. -/
def timeoutAnswer : Answer := { err := [.other "terminal_finalization_timeout"], now := .zero }

section

variable (hth : g.threads[t]? = some th)

include hth

theorem ends_publish
    (hp : th.point = .publish reason err cause ∨ th.point = .publishLoopback reason err cause) :
    Ends sha g t true := by
  have hs : ∃ err', g.advance sha t th quietAnswer =
      some ((g.publish t th reason err' cause).1, (g.publish t th reason err' cause).2) := by
    rcases hp with hp | hp
    · exact ⟨err, by simp only [advance, hp]⟩
    · exact ⟨err ++ g.writerErr, by simp only [advance, hp]⟩
  obtain ⟨err', hs⟩ := hs
  exact .of_return hth hs rfl fun _ => rfl

theorem ends_complete (hp : th.point = .complete reason err cause) : Ends sha g t true := by
  have hs : g.advance sha t th quietAnswer = some (g,
    { th with point := .publish reason (err ++ []) cause }) := by
    simp only [advance, hp, quietAnswer]
  exact .of_run hth hs (ends_publish (run_step hth hs).2.2 (.inl rfl))

theorem ends_verdict (hp : th.point = .verdict reason cause) : Ends sha g t true := by
  have hs : g.advance sha t th timeoutAnswer =
      some (g, { th with point := .publishLoopback reason timeoutAnswer.err cause }) := by
    simp [advance, hp, timeoutAnswer]
  exact .of_run hth hs (ends_publish (run_step hth hs).2.2 (.inr rfl))

/-- The call that writes the terminal record ends. -/
theorem ends_write (hp : th.point = .write reason cause) : Ends sha g t true := by
  cases hl : g.loopback with
  | true =>
    have hs : g.advance sha t th quietAnswer =
        some ({ g with writer := some (reason, .hook) },
          { th with point := .verdict reason cause }) := by
      simp [advance, hp, hl]
    exact .of_run hth hs (ends_verdict (run_step hth hs).2.2 rfl)
  | false =>
    have hs : g.advance sha t th quietAnswer = some ((g.finishLedger sha reason quietAnswer).1,
        { th with point := .complete reason (g.finishLedger sha reason quietAnswer).2 cause }) := by
      simp [advance, hp, hl]
    exact .of_run hth hs (ends_complete (run_step hth hs).2.2 rfl)

theorem ends_awaitWriter (hp : th.point = .awaitWriter reason cause) (hli : Live g) :
    Ends sha g t true := by
  have hdo : ∀ g : Gate, g.threads[t]? = some th → g.writerDone = true → Ends sha g t true := by
    intro g hth hd
    have hs : g.advance sha t th quietAnswer = some (g,
      { th with point := .publishLoopback reason [] cause }) := by
      simp [advance, hp, hd]
    exact .of_run hth hs (ends_publish (run_step hth hs).2.2 (.inr rfl))
  have hwr : ∀ g g' : Gate, g.write sha quietAnswer = some g' → g'.threads = g.threads →
    Ends sha g' t true →
      Ends sha g t true := by
    intro g g' hs hthr h
    exact h.of_step (a := .write quietAnswer) hs fun u _ => by rw [hthr]
  have hpub : ∀ g : Gate, g.threads[t]? = some th → ∀ r err, g.writer = some (r, .publish err) →
    Ends sha g t true := by
    intro g hth r err hw
    refine hwr g { g with writerErr := err, writerDone := true, writer := some (r,
      .complete) } ?_ rfl ?_
    · simp [write, hw]
    · exact hdo _ hth rfl
  have hled : ∀ g : Gate, g.threads[t]? = some th → ∀ r e n, g.writer = some (r, .ledger e n) →
    Ends sha g t true := by
    intro g hth r e n hw
    obtain ⟨w, hg⟩ := @finishLedger_fields sha g r quietAnswer
    refine hwr g { g with ledger := w, writer := some (r,
      .publish (e ++ n ++ (g.finishLedger sha r quietAnswer).2)) }
      ?_ rfl ?_
    · simp [write, hw, hg]
    · exact hpub _ hth r _ rfl
  have hnet : ∀ g : Gate, g.threads[t]? = some th → ∀ r e, g.writer = some (r, .network e) →
    Ends sha g t true := by
    intro g hth r e hw
    refine hwr g { g with writer := some (r, .ledger e []) } ?_ rfl ?_
    · simp [write, hw, quietAnswer]
    · exact hled _ hth r e [] rfl
  have hke : ∀ g : Gate, g.threads[t]? = some th → ∀ r e, g.writer = some (r, .keepHookErr e) →
    Ends sha g t true := by
    intro g hth r e hw
    refine hwr g { g with writerErr := e, writer := some (r, .network e) } ?_ rfl ?_
    · simp [write, hw]
    · exact hnet _ hth r e rfl
  obtain ⟨⟨r, p⟩, hw⟩ := Option.isSome_iff_exists.1 (hli.writer t th hth (by rw [hp]; rfl))
  cases p with
  | hook =>
    refine hwr g { g with writer := some (r, .keepHookErr []) } ?_ rfl (hke _ hth r [] rfl)
    simp [write, hw, quietAnswer]
  | keepHookErr e => exact hke g hth r e hw
  | network e => exact hnet g hth r e hw
  | ledger e n => exact hled g hth r e n hw
  | publish err => exact hpub g hth r err hw
  | complete => exact hdo g hth (hli.done r _ hw (.inl rfl))
  | done => exact hdo g hth (hli.done r _ hw (.inr rfl))

theorem ends_settling (hp : th.point.settling = true) (hli : Live g) : Ends sha g t true := by
  cases hpt : th.point with
  | write reason cause => exact ends_write hth hpt
  | complete reason err cause => exact ends_complete hth hpt
  | publish reason err cause => exact ends_publish hth (.inl hpt)
  | verdict reason cause => exact ends_verdict hth hpt
  | awaitWriter reason cause => exact ends_awaitWriter hth hpt hli
  | publishLoopback reason result cause => exact ends_publish hth (.inr hpt)
  | _ => rw [hpt] at hp; cases hp

end

theorem finish_waited (hli : Live g) (hth : g.threads[t]? = some th) (hp : th.point.waits = true) :
    ∃ g', Transition.Reachable (Gate.step sha) (· = g) (fun _ _ => True) g' ∧ g'.finished = true ∧
      g'.threads[t]? = some th := by
  cases hf : g.finished with
  | true => exact ⟨g, .start rfl, hf, hth⟩
  | false =>
    obtain ⟨u, uh, hu, hset⟩ := hli.settler (hli.waits t th hth hp) hf
    have hne : t ≠ u := by
      rintro rfl
      obtain rfl := Option.some.inj (hth.symm.trans hu)
      cases hpt : th.point <;> simp_all [Point.settling, Point.waits]
    obtain ⟨g', hrun, hfin, hfr, -⟩ := ends_settling hu hset hli
    exact ⟨g', hrun, hfin rfl, (hfr t hne).trans hth⟩

/-- Steps from `g` after which call `t` has returned. -/
def Returns (sha : Sha256) (g : Gate) (t : ℕ) : Prop :=
  ∃ g', Transition.Reachable (Gate.step sha) (· = g) (fun _ _ => True) g' ∧
    ∃ (th : Thread) (err : Errors), g'.threads[t]? = some th ∧ th.point = .returned err

theorem Returns.of_reachable (h : Transition.Reachable (Gate.step sha) (· = g) (fun _ _ => True) g')
    (hret : Returns sha g' t) : Returns sha g t := by
  obtain ⟨g'', hrun, th, err, hth, hp⟩ := hret
  exact ⟨g'', h.trans hrun, th, err, hth, hp⟩

/-- The invariant of the gate, with what its calls need to go on. -/
structure Sound (sha : Sha256) (g : Gate) : Prop where
  ok : GateOK sha g
  live : Live g

theorem Sound.step (h : Sound sha g) {a : Gate.Action} (hs : g.step sha a = some g') :
    Sound sha g' :=
  ⟨(step_stepOK h.ok hs).ok, (step_stepOK h.ok hs).live h.live⟩

theorem Sound.reachable (h : Sound sha g)
    (hrun : Transition.Reachable (Gate.step sha) (· = g) (fun _ _ => True) g') : Sound sha g' :=
  hrun.invariant (fun _ hg => hg ▸ h) fun _ _ _ _ hg _ hs => hg.step hs

theorem Returns.of_run (hso : Sound sha g) (hth : g.threads[t]? = some th)
    (hs : g.advance sha t th o = some (g', th'))
    (hne : ∀ g₁ : Gate, Sound sha g₁ → g₁.threads[t]? = some th' → Returns sha g₁ t) :
    Returns sha g t := by
  obtain ⟨hst, -, hse⟩ := run_step hth hs
  exact (hne _ (hso.step hst) hse).of_reachable (.step (.start rfl) trivial hst)

theorem returns_of_returned (hth : g.threads[t]? = some th) (hp : th.point = .returned err) :
    Returns sha g t :=
  ⟨g, .start rfl, th, err, hth, hp⟩

section

variable (hso : Sound sha g) (hth : g.threads[t]? = some th)

include hso hth

theorem returns_settling (hp : th.point.settling = true) : Returns sha g t := by
  obtain ⟨g', hrun, -, -, hret⟩ := @ends_settling sha g t th hth hp hso.live
  exact ⟨g', hrun, hret⟩

/-- A call that waits for a finish returns. -/
theorem returns_awaitFinish {chosen : TerminalReason}
    (hp : th.point = .awaitFinish chosen reason cause) : Returns sha g t := by
  obtain ⟨g', hrun, hf, hth'⟩ := @finish_waited sha g t th hso.live hth (by rw [hp]; rfl)
  have hs : ∃ err, g'.advance sha t th quietAnswer = some (g'.finishRet t th reason err cause) := by
    simp only [advance, hp, hf, if_true]
    exact ⟨_, rfl⟩
  obtain ⟨err, hs⟩ := hs
  exact .of_reachable hrun (.of_run (hso.reachable hrun) hth' hs fun _ _ h => returns_of_returned h rfl)

theorem returns_finish (hp : th.point = .finish reason cause) : Returns sha g t := by
  by_cases hva : reason.valid = false
  · have hs : g.advance sha t th quietAnswer =
        some (g.finishRet t th reason [.invalidTerminalReason reason] cause) := by
      simp [advance, hp, Gate.choose, hva]
    exact .of_run hso hth hs fun _ _ h => returns_of_returned h rfl
  by_cases hcho : g.terminalChosen = true
  · have hs : g.advance sha t th quietAnswer =
        some (g, { th with point := .awaitFinish g.terminalReason reason cause }) := by
      simp [advance, hp, Gate.choose, hva, hcho]
    exact .of_run hso hth hs fun _ hso₁ h => returns_awaitFinish hso₁ h rfl
  · have hs : g.advance sha t th quietAnswer =
      some ({ g with terminalChosen := true, terminalReason := reason },
        { th with point := .write reason cause }) := by
      simp [advance, hp, Gate.choose, hva, hcho]
    exact .of_run hso hth hs fun _ hso₁ h => returns_settling hso₁ h rfl

theorem returns_inspect (hp : th.point = .inspect) : Returns sha g t := by
  have hs : g.advance sha t th timeoutAnswer = some (g.invalid th timeoutAnswer.err) := by
    simp [advance, hp, timeoutAnswer]
  exact .of_run hso hth hs fun _ hso₁ h => returns_finish hso₁ h rfl

theorem returns_awaitTerminal (hp : th.point = .awaitTerminal) : Returns sha g t := by
  obtain ⟨g', hrun, hf, hth'⟩ := @finish_waited sha g t th hso.live hth (by rw [hp]; rfl)
  have hs : g'.advance sha t th quietAnswer =
    some (g'.invalid th (.committedAttemptInvalid :: g'.terminalErr)) := by
    simp only [advance, hp, hf, if_true]
  exact .of_reachable hrun (.of_run (hso.reachable hrun) hth' hs fun _ hso₁ h =>
    returns_finish hso₁ h rfl)

end

/-- **A call that has begun can always return**: the mutex of the authorization is the only thing
that a call waits for without end. -/
theorem call_returns (hso : Sound sha g) (hth : g.threads[t]? = some th) (hp : th.point ≠ .start) :
    Returns sha g t := by
  cases hpt : th.point with
  | start => exact absurd hpt hp
  | awaitConsumed =>
    obtain ⟨g', hrun, hf, hth'⟩ := @finish_waited sha g t th hso.live hth (by rw [hpt]; rfl)
    have hs : g'.advance sha t th quietAnswer =
      some (g'.ret t th (.committedAttemptInvalid :: g'.terminalErr)) := by
      simp only [advance, hpt, hf, if_true]
    exact .of_reachable hrun (.of_run (hso.reachable hrun) hth' hs fun _ _ h =>
      returns_of_returned h rfl)
  | validate =>
    have hs : g.advance sha t th quietAnswer =
        some (g, { th with point := if g.terminalChosen then .awaitTerminal else .inspect }) := by
      simp only [advance, hpt]
    refine .of_run hso hth hs fun g₁ hso₁ hth₁ => ?_
    cases hcho : g.terminalChosen with
    | true => exact returns_awaitTerminal hso₁ hth₁ (by simp [hcho])
    | false => exact returns_inspect hso₁ hth₁ (by simp [hcho])
  | awaitTerminal => exact returns_awaitTerminal hso hth hpt
  | inspect => exact returns_inspect hso hth hpt
  | finish reason cause => exact returns_finish hso hth hpt
  | awaitFinish chosen reason cause => exact returns_awaitFinish hso hth hpt
  | write | complete | publish | verdict | awaitWriter | publishLoopback =>
    exact returns_settling hso hth (by rw [hpt]; rfl)
  | returned err => exact returns_of_returned hth hpt

end Progress

/-! ## The result -/

/-- **The pairing gate linearises its terminal**, in every interleaving of the calls, the watcher,
the loopback writer and other uses of the journal. The terminal never changes once it is chosen, and
a call that has begun can return. -/
theorem gate_linearised {sha : Sha256} {g : Gate}
    (hg : Transition.Reachable (Gate.step sha) (Gate.Initial sha) (fun _ _ => True) g) :
    Linearised g ∧
      (∀ a g', g.step sha a = some g' → g.terminalChosen = true →
        g'.terminalChosen = true ∧ g'.terminalReason = g.terminalReason) ∧
      ∀ (t : ℕ) (th : Thread), g.threads[t]? = some th → th.point ≠ .start → Returns sha g t := by
  have hsound : Sound sha g :=
    hg.invariant (fun _ h => ⟨initial_gateOK h, initial_live h⟩) fun _ _ _ _ h _ hs => h.step hs
  exact ⟨hsound.ok.linearised, fun _ _ hs => (step_stepOK hsound.ok hs).terminal,
    fun _ _ hth hp => call_returns hsound hth hp⟩

open LateSuccess in
def sampleReceipt : Receipt := ⟨2, .ordinary, opaqueID 'A', opaqueID 'B', digest, ownerA, at_ 60⟩

open LateSuccess in
def sampleGate : Gate where
  ledger := start.act journalStorage zeroSha (.admitRequest (at_ 60) (request 'A' 'B' 60) true)
  receipt := sampleReceipt
  loopback := false

open LateSuccess in
theorem sampleGate_initial : sampleGate.Initial zeroSha := by
  have hadm : (journalStorage.admitRequest zeroSha start.journal start.owner (at_ 60)
    (request 'A' 'B' 60) true).2.toOption =
      some sampleReceipt := by decide +kernel
  exact ⟨start, at_ 60, request 'A' 'B' 60, true, sampleReceipt, false, start_reachable,
    toOption_eq_some hadm, rfl⟩

open LateSuccess in
/-- The attempt is consumed, emits, and finishes with success; a `Finish` with another reason comes
too late. -/
def sampleActions : List Gate.Action :=
  let o : Answer := { now := at_ 120 }
  [.call .consumeForCarrier, .run 1 o, .run 1 o, .run 1 o, .call .beforeFirstEmission, .run 2 o,
    .run 2 o, .run 2 o, .call (.finish .success), .run 3 o, .run 3 o, .run 3 o, .run 3 o, .run 3 o,
    .call (.finish .cancelled), .run 4 o, .run 4 o, .run 4 o]

/-- What the sample run leaves: the reasons of the FINISH records, and whether each call has
returned without error. -/
def sampleOutcome (g : Gate) : List TerminalReason × List Bool :=
  (g.finishRecords.map (·.reason), g.threads.map fun th => th.point matches .returned [])

theorem gate_linearised_sample :
    ∃ g, sampleOutcome g = ([.success], [false, true, true, true, false]) ∧ Linearised g := by
  have hrun : (Transition.runFrom (Gate.step zeroSha) (fun _ _ =>
    True) sampleGate sampleActions).map sampleOutcome =
      some ([.success], [false, true, true, true, false]) := by decide +kernel
  obtain ⟨g, hg, hout⟩ := Option.map_eq_some_iff.1 hrun
  exact ⟨g, hout, (gate_linearised (.of_run (.start sampleGate_initial) hg)).1⟩

end Winkyou.PairingGate
