import Winkyou.Proof.Routed.Assertions
import Winkyou.Proof.Routed.Dial

/-!
# The result of an OPEN

`relay_needs_committed_open`: the initiator commits one result of its OPEN and never another, and
acknowledges an OPEN_OK only if OPEN_OK is that result. In a run in which no flow is promoted
after an OPEN was rejected, a responder flow that relays has an initiator that committed OPEN_OK.

* An ACK names a sequence only, and OPEN_OK and OPEN_ERROR both have sequence 1. `InitiatorOK` and
  `ResponderOK` say which frames can exist before the initiator has committed OPEN_OK: the ACK of an
  OPEN_ERROR is one, so the responder must have no flow that could take it for the ACK of its
  OPEN_OK.
* `relay_after_open_error`: a copy of the OPEN that is accepted after another was rejected.
-/

namespace Winkyou.Routed

open Winkyou.Routed.Flow Winkyou.Routed.World List Bool

variable {n n' : Node} {f f' : Flow} {closed : Bool} {event : Event} {code : Code}
  {out : List Frame} {codes : List Code} {call : Call}
  {ok' rejected' : Prop} {g : Frame}

/-! ## The committed result -/

/-- OPEN_OK is the result. -/
def Flow.committed (f : Flow) : Prop :=
  f.openTerminal = true ∧ f.openResultType = some .streamOpenOK

/-- The result, once there is one, stays. -/
def Flow.SameResult (f f' : Flow) : Prop :=
  f.openTerminal = true → f'.openTerminal = true ∧ f'.openResultType = f.openResultType

theorem Flow.SameResult.of_eq (h1 : f'.openTerminal = f.openTerminal)
    (h2 : f'.openResultType = f.openResultType) : f.SameResult f' := fun h => ⟨h1.trans h, h2⟩

theorem Flow.SameResult.committed (h : f.SameResult f') (hc : f.committed) : f'.committed := by
  obtain ⟨h1, h2⟩ := h hc.1
  exact ⟨h1, h2.trans hc.2⟩

theorem completeOpenLocally_fields (f : Flow) :
    ∃ opened openTerminal openResultType, f.completeOpenLocally.1 = { f with
      opened := opened, openTerminal := openTerminal, openResultType := openResultType } ∧
      (f.openTerminal = true → openTerminal = true ∧ openResultType = f.openResultType) := by
  unfold completeOpenLocally completeOpen
  split_ifs with hter
  · exact ⟨_, _, _, rfl, fun _ => ⟨hter, rfl⟩⟩
  · exact ⟨_, _, _, rfl, fun h => absurd h hter⟩

/-! ## What a step does to the flow -/

theorem Call.openerAfter_ne {o : Opener} (ho : o ≠ .lock) (call : Call) (ok : Bool) :
    call.openerAfter ok o ≠ .lock := by
  cases call <;> cases ok <;> first | exact ho | exact nofun

theorem afterRead_on (result : ReadEnd) : afterRead result ≠ .off := by
  cases result <;> exact nofun

theorem Call.readerAfter_on {r : Reader} (hr : r ≠ .off) (call : Call) (ok : Bool) :
    call.readerAfter ok r ≠ .off := by
  cases call <;> cases ok <;> first | exact hr | exact afterRead_on _ | exact nofun

/-- A step of a field task: the opener and `readLocal` do not go back to before their start, an
acknowledgement is only used up, and a `send` under way was so before or is the one that the task
begins. -/
structure TaskEffect (f : Flow) (event : Event) (f' : Flow) : Prop where
  initiator : f'.initiator = f.initiator
  acked : f'.acked = f.acked
  result : f.SameResult f'
  opener : f.opener ≠ .lock → f'.opener ≠ .lock
  reader : f.reader ≠ .off → f'.reader ≠ .off
  pendingACK : f'.pendingACK = true → f.pendingACK = true
  sendSeq : f'.sendSeq = f.sendSeq ∨ f.pendingACK = true
  sends : ∀ s, f'.sending = some s →
    (∃ s₀, f.sending = some s₀ ∧ s₀.call = s.call ∧ s₀.sequence = s.sequence) ∨
      Calls f event s.call ∧ s.sequence = f.sendSeq + 1

theorem TaskStep.effect (h : TaskStep closed f event f' out codes) : TaskEffect f event f' := by
  have hsa : ∀ s, f.sending = some s → (∃ s₀, f.sending = some s₀ ∧ s₀.call = s.call ∧
    s₀.sequence = s.sequence) ∨
      Calls f event s.call ∧ s.sequence = f.sendSeq + 1 := fun s hs => .inl ⟨s, hs, rfl, rfl⟩
  cases h with
  | @lock _ call _ _ hca hlo =>
    cases hlo with
    | refused =>
      rw [returnSend_eq]
      exact ⟨rfl, rfl, .of_eq rfl rfl, fun h => call.openerAfter_ne h _,
        fun h => call.readerAfter_on h _, id, .inl rfl, hsa⟩
    | begins =>
      rw [begun_eq]
      refine ⟨rfl, rfl, .of_eq rfl rfl, ?_, ?_, nofun, .inl rfl, ?_⟩
      · cases call <;> first | exact id | exact nofun
      · cases call <;> first | exact id | exact nofun
      · rintro s ⟨⟩
        exact .inr ⟨hca, rfl⟩
  | sendPoint _ hs | transmit hs =>
    refine ⟨rfl, rfl, .of_eq rfl rfl, id, id, id, .inl rfl, ?_⟩
    rintro s ⟨⟩
    exact .inl ⟨_, hs, rfl, rfl⟩
  | @sendReturn s _ ok _ hr =>
    rw [unlockSend_eq]
    refine ⟨rfl, rfl, .of_eq rfl rfl, fun h => s.call.openerAfter_ne h _,
      fun h => s.call.readerAfter_on h _, ?_, ?_, nofun⟩
    · simp only
      split_ifs
      · exact nofun
      · exact id
    · cases hr with
      | acknowledged _ hac => exact .inr (and_eq_true_iff.mp hac).2
      | _ => exact .inl rfl
  | openResult =>
    unfold takeOpenResult
    split_ifs <;> exact ⟨rfl, rfl, .of_eq rfl rfl, nofun, id, id, .inl rfl, hsa⟩
  | listenerDone | openDeadline =>
    obtain ⟨_, _, _, heq, hres⟩ := completeOpenLocally_fields f
    rw [heq]
    exact ⟨rfl, rfl, hres, nofun, id, id, .inl rfl, hsa⟩
  | readNone _ result =>
    exact ⟨rfl, rfl, .of_eq rfl rfl, id, fun _ => afterRead_on result, id, .inl rfl, hsa⟩
  | start => exact ⟨rfl, rfl, .of_eq rfl rfl, nofun, nofun, id, .inl rfl, hsa⟩
  | read | readError | markLocalFIN => exact ⟨rfl, rfl, .of_eq rfl rfl, id, nofun, id, .inl rfl, hsa⟩
  | forwarderDone | flowDone | startAgain | startClosed | startWriterClosed | startWriter =>
    exact ⟨rfl, rfl, .of_eq rfl rfl, nofun, id, id, .inl rfl, hsa⟩
  | _ => exact ⟨rfl, rfl, .of_eq rfl rfl, id, id, id, .inl rfl, hsa⟩

/-- A step of a handler or of `shutdown` leaves the field tasks alone; `fail` may begin a `send`. -/
structure CodeEffect (f : Flow) (code : Code) (f' : Flow) : Prop where
  initiator : f'.initiator = f.initiator
  result : f.SameResult f'
  tasks : f'.opener = f.opener ∧ f'.reader = f.reader ∧ f'.writer = f.writer ∧ f'.started = f.started
  sendSeq : f'.sendSeq = f.sendSeq
  acked : f'.acked = f.acked ∨ ∃ g b, code = .sendACK g b ∧ f'.acked = f.acked ++ [g]
  pendingACK : f'.pendingACK = true → f.pendingACK = true ∨ ∃ sequence, code = .acknowledge sequence
  sending : ∀ s, f'.sending = some s → f.sending = some s ∨ ∃ cause, code = .lockReset cause ∧
    s.call = .reset cause

theorem CodeStep.effect (h : CodeStep closed f code f' out codes) : CodeEffect f code f' := by
  cases h with
  | acknowledge sequence =>
    unfold Flow.acknowledge
    split_ifs <;>
      exact ⟨rfl, .of_eq rfl rfl, ⟨rfl, rfl, rfl, rfl⟩, rfl, .inl rfl, fun _ => .inr ⟨sequence,
        rfl⟩, fun _ => .inl⟩
  | committed hter =>
    exact ⟨rfl, fun h => absurd (hter.symm.trans h) nofun, ⟨rfl, rfl, rfl, rfl⟩, rfl, .inl rfl,
      .inl, fun _ => .inl⟩
  | sendACK g b =>
    exact ⟨rfl, .of_eq rfl rfl, ⟨rfl, rfl, rfl, rfl⟩, rfl, .inr ⟨g, b, rfl, rfl⟩, .inl, fun _ => .inl⟩
  | fail | shutdown =>
    obtain ⟨_, _, _, heq, hres⟩ := completeOpenLocally_fields f
    rw [heq]
    exact ⟨rfl, hres, ⟨rfl, rfl, rfl, rfl⟩, rfl, .inl rfl, .inl, fun _ => .inl⟩
  | @lockReset cause _ _ hlo =>
    cases hlo with
    | refused => exact ⟨rfl, .of_eq rfl rfl, ⟨rfl, rfl, rfl, rfl⟩, rfl, .inl rfl, .inl, fun _ => .inl⟩
    | begins =>
      refine ⟨rfl, .of_eq rfl rfl, ⟨rfl, rfl, rfl, rfl⟩, rfl, .inl rfl, nofun, ?_⟩
      rintro s ⟨⟩
      exact .inr ⟨cause, rfl, rfl⟩
  | _ => exact ⟨rfl, .of_eq rfl rfl, ⟨rfl, rfl, rfl, rfl⟩, rfl, .inl rfl, .inl, fun _ => .inl⟩

variable {w w' : World} {a : Node.Action}

/-! ## The initiator acknowledges the committed result only -/

def noGuards : Guards := ⟨fun _ _ => True, fun _ _ => True, fun _ _ => True⟩

theorem noGuards_meets (n : Node) (action : Node.Action) : noGuards.meets n action := by
  cases action with
  | flow => exact fun _ _ => trivial
  | task => exact ⟨fun _ _ _ _ _ => trivial, fun _ _ => trivial⟩
  | close => trivial

/-- An ACK of an OPEN_OK comes after OPEN_OK was committed. -/
def acksCommitted : Assertions where
  flow f := ∀ g ∈ f.acked, g.type = .streamOpenOK → f.committed
  task f
    | .sendACK g _ => g.type = .streamOpenOK → f.committed
    | .enqueueSequenced g => g.type ≠ .streamOpenOK
    | _ => True
  node _ := True
  frame _ _ := True
  bare _ := True

theorem acksCommitted_task_mono (h : f.SameResult f') (code : Code)
    (ht : acksCommitted.task f code) : acksCommitted.task f' code := by
  cases code with
  | sendACK g b => exact fun hg => h.committed (ht hg)
  | _ => exact ht

theorem acksCommitted_codes (h : CodeStep closed f code f' out codes)
    (ht : acksCommitted.task f code) : ∀ c ∈ codes, acksCommitted.task f' c := by
  cases h <;> try simp only [forall_mem_singleton]
  case duplicate | admitted => exact fun hg => absurd hg ht
  case observeDuplicate _ hty =>
    intro hg
    simp [isOpenResultFrame, hg] at hty
  case resultAgain hag =>
    intro hg
    simpa [shouldAcknowledgeOpenResult, hg, Flow.committed] using hag
  case reset hty =>
    intro hg
    rw [hty] at hg
    cases hg
  case committed => exact fun hg => ⟨rfl, congrArg some hg⟩
  case refused => split_ifs <;> trivial
  case lockReset hlo =>
    intro c hc
    cases hlo with
    | refused =>
      rw [returnSend_codes f _ false c hc]
      trivial
    | begins => cases hc
  case sendACK => split_ifs <;> simp [acksCommitted]
  case observeResult | observeExpected | unexpected | result | fail | shutdown | closeDone
    | closeConn =>
    trivial
  all_goals exact forall_mem_nil _

theorem acksCommitted_kept : Kept acksCommitted noGuards where
  event hs _ hf :=
    { flow := by
        intro g hg hok
        rw [hs.effect.acked] at hg
        exact hs.effect.result.committed (hf g hg hok)
      task := acksCommitted_task_mono hs.effect.result
      frame := fun _ _ => trivial
      out := fun _ _ => .inl trivial
      codes := by
        intro c hc
        rcases hs.next c hc with rfl | ⟨cause, rfl⟩ <;> trivial }
  code hs _ hf ht :=
    { flow := by
        intro g hg hok
        refine hs.effect.result.committed ?_
        rcases hs.effect.acked with heq | ⟨g', b, rfl, heq⟩ <;> rw [heq] at hg
        · exact hf g hg hok
        · rcases mem_append.mp hg with hg | hg
          · exact hf g hg hok
          · exact ht (mem_singleton.mp hg ▸ hok)
      task := acksCommitted_task_mono hs.effect.result
      frame := fun _ _ => trivial
      out := fun _ _ => .inl trivial
      codes := acksCommitted_codes hs ht }
  node hs _ _ := by
    refine ⟨fun _ _ => trivial, fun _ _ => trivial, fun j c hc => ?_⟩
    cases hs with
    | acknowledge _ hj | observe _ hj =>
      cases mem_singleton.mp hc
      exact ⟨hj, fun _ _ => trivial⟩
    | enqueue hty hj =>
      cases mem_singleton.mp hc
      refine ⟨hj, fun _ _ hok => ?_⟩
      rcases hty with h | h <;> rw [h] at hok <;> cases hok
    | _ => simp at hc
  promoted _ := nofun
  shutdown _ _ := trivial

/-! ## The OPEN is the first frame -/

/-- A section of `shutdown`. -/
def Code.closes : Code → Bool
  | .shutdown | .closeDone | .closeConn | .removeFlow => true
  | _ => false

/-- Before the initiator has called `send` nothing has been sent. -/
structure Fresh (w : World) (f : Flow) : Prop where
  flows : w.initiator.flows = [f]
  opener : f.opener = .lock
  sending : f.sending = none
  sendSeq : f.sendSeq = 0
  reader : f.reader = .off
  writer : f.writer = .off
  tasks : ∀ t ∈ w.initiator.tasks, ∃ code : Code, t = .flow 0 code ∧ code.closes = true
  sent : w.initiator.sent = []
  table : w.initiator.table = none ∨ w.initiator.table = some 0
  responder : w.responder.sent = [] ∧ w.responder.tasks = [] ∧ w.responder.flows = [] ∧
    w.responder.table = none

/-- The initiator has called `send`. -/
def Opened (w : World) : Prop := ∃ f, w.initiator.flows[0]? = some f ∧ f.opener ≠ .lock

/-- The first field step of the initiator is its call of `send`. -/
theorem Fresh.firstEvent (h : Fresh w f) (hs : TaskStep closed f event f' out codes) :
    f'.opener ≠ .lock := by
  cases hs with
  | lock hca hlo =>
    cases hca with
    | opener =>
      cases hlo with
      | refused =>
        rw [returnSend_eq]
        cases f.initiator <;> exact nofun
      | begins =>
        rw [begun_eq]
        cases f.initiator <;> exact nofun
    | data hr | fin hr => cases h.reader.symm.trans hr
  | sendPoint _ hse | transmit hse | sendReturn hse => cases h.sending.symm.trans hse
  | openResult ho | listenerDone ho | forwarderDone ho | flowDone ho | openDeadline ho
  | startAgain ho | startClosed ho
  | start ho | startWriterClosed ho | startWriter ho => cases h.opener.symm.trans ho
  | readNone hr | read hr | readError hr | markLocalFIN hr => cases h.reader.symm.trans hr
  | writerDone hw | takeFIN hw | takeData hw | wrote hw | writeFailed hw | closedWrite hw
      | alreadyClosed hw
  | closeFailed hw | markRemoteFIN hw => cases h.writer.symm.trans hw

theorem CodeStep.closes (hs : CodeStep closed f code f' out codes) (hco : code.closes = true) :
    out = [] ∧ ∀ c ∈ codes, c.closes = true := by
  cases hs with
  | shutdown | closeDone | closeConn => exact ⟨rfl, fun c hc => mem_singleton.mp hc ▸ rfl⟩
  | shutdownAgain | removeFlow => exact ⟨rfl, nofun⟩
  | _ => cases hco

theorem Fresh.initiatorStep (h : Fresh w f) (hs : NodeStep w.initiator a n) :
    (∃ f', Fresh (w.set .initiator n) f') ∨ Opened (w.set .initiator n) := by
  have hze : ∀ {j : ℕ} {g : Flow}, w.initiator.flows[j]? = some g → j = 0 ∧ f = g := by
    intro j g hg
    rw [h.flows] at hg
    cases j with
    | zero => exact ⟨rfl, Option.some.inj hg⟩
    | succ j => cases hg
  cases hs with
  | event hg hs =>
    obtain ⟨rfl, rfl⟩ := hze hg
    refine .inr ⟨_, ?_, h.firstEvent hs⟩
    show (w.initiator.flows.set 0 _)[0]? = _
    rw [h.flows]
    rfl
  | @code i j answer code g f' out codes ht hg hs =>
    obtain ⟨rfl, rfl⟩ := hze hg
    obtain ⟨_, heq, hco⟩ := h.tasks _ (mem_of_getElem? ht)
    cases heq
    obtain ⟨rfl, hcod⟩ := hs.closes hco
    obtain ⟨ho, hr, hw, -⟩ := hs.effect.tasks
    have hse : f'.sending = none := by
      refine Option.eq_none_iff_forall_ne_some.mpr fun s hso => ?_
      rcases hs.effect.sending s hso with h' | ⟨_, rfl, -⟩
      · exact absurd (h.sending.symm.trans h') nofun
      · cases hco
    have hta : ∀ m : Node, m.flows = w.initiator.flows → m.sent = w.initiator.sent →
        m.tasks = w.initiator.tasks.eraseIdx i → (m.table = none ∨ m.table = some 0) →
        Fresh (w.set .initiator (m.update 0 f' [] codes)) f' := by
      intro m hmf hms hmt hmta
      refine ⟨?_, ho.trans h.opener, hse, hs.effect.sendSeq.trans h.sendSeq, hr.trans h.reader,
        hw.trans h.writer, fun t hmem => ?_, ?_, hmta, h.responder⟩
      · show m.flows.set 0 f' = [f']
        rw [hmf, h.flows]
        rfl
      · rcases mem_append.mp hmem with hmem | hmem
        · exact h.tasks t (mem_of_mem_eraseIdx (hmt ▸ hmem))
        · obtain ⟨c, hc, rfl⟩ := mem_map.mp hmem
          exact ⟨c, rfl, hcod c hc⟩
      · show m.sent ++ [] = []
        rw [hms, h.sent, append_nil]
    refine .inl ⟨f', ?_⟩
    split_ifs
    · unfold Node.removeFlow
      split_ifs
      · exact hta _ rfl rfl rfl (.inl rfl)
      · exact hta _ rfl rfl rfl h.table
    · exact hta _ rfl rfl rfl h.table
  | node ht =>
    obtain ⟨code, heq, -⟩ := h.tasks _ (mem_of_getElem? ht)
    cases heq
  | close =>
    refine .inl ⟨f, h.flows, h.opener, h.sending, h.sendSeq, h.reader, h.writer, fun t ht => ?_,
      h.sent, h.table, h.responder⟩
    rcases mem_append.mp ht with ht | ht
    · exact h.tasks t ht
    · obtain ⟨j, hj, rfl⟩ := mem_map.mp ht
      rcases h.table with htab | htab <;> rw [htab] at hj
      · cases hj
      · exact ⟨.shutdown, by rw [mem_singleton.mp hj], rfl⟩

theorem Fresh.responderStep (h : Fresh w f) (hs : NodeStep w.responder a n) :
    Fresh (w.set .responder n) f := by
  obtain ⟨hse, hta, hfl, htab⟩ := h.responder
  cases hs with
  | event hg =>
    rw [hfl] at hg
    cases hg
  | code ht | node ht =>
    rw [hta] at ht
    cases ht
  | close =>
    refine ⟨h.flows, h.opener, h.sending, h.sendSeq, h.reader, h.writer, h.tasks, h.sent, h.table,
      hse, ?_, hfl, htab⟩
    show w.responder.tasks ++ w.responder.table.toList.map _ = []
    rw [hta, htab]
    rfl

theorem opened_step {a : World.Action} (hs : w.step a = some w') (h : Opened w) : Opened w' := by
  obtain ⟨f, hf, ho⟩ := h
  obtain ⟨f', hf', hr⟩ := step_flow (R := fun f f' => f.opener ≠ .lock →
    f'.opener ≠ .lock) (fun _ h => h)
    (·.effect.opener) (fun hs h => hs.effect.tasks.1 ▸ h) hs .initiator hf
  exact ⟨f', hf', hr ho⟩

theorem fresh_or_opened
    (h : Transition.Reachable World.step (· = World.start) (fun _ _ => True) w) :
    (∃ f, Fresh w f) ∨ Opened w := by
  refine h.invariant (P := fun w => (∃ f, Fresh w f) ∨ Opened w) ?_ ?_
  · rintro w rfl
    exact .inl ⟨newTCPFlow true 0, rfl, rfl, rfl, rfl, rfl, rfl, nofun, rfl, .inr rfl, rfl, rfl,
      rfl, rfl⟩
  · rintro w action w' - hw - hs
    rcases hw with ⟨f, hf⟩ | hope
    · rcases step_cases hs with ⟨side, k, frame, hfr, -, rfl⟩ | ⟨side, a, n, -, hn, rfl⟩
      · cases side with
        | initiator =>
          rw [show (w.node Side.initiator.peer).sent = [] from hf.responder.1] at hfr
          cases hfr
        | responder =>
          rw [show (w.node Side.responder.peer).sent = [] from hf.sent] at hfr
          cases hfr
      · cases side with
        | initiator => exact hf.initiatorStep hn
        | responder => exact .inl ⟨f, hf.responderStep hn⟩
    · exact .inr (opened_step hs hope)

/-! ## Starting to relay -/

/-- `start` has been called or is about to be. -/
def Flow.relays (f : Flow) : Prop :=
  f.opener = .start ∨ f.opener = .startWriter ∨ f.started = true ∨ f.reader ≠ .off ∨ f.writer ≠ .off

/-- What is sent belongs to the `send` under way. -/
theorem TaskStep.transmits (h : TaskStep closed f event f' out codes) (hg : g ∈ out) :
    ∃ s, f.sending = some s ∧ g = s.call.frame s.sequence := by
  cases h with
  | transmit hs ok =>
    split_ifs at hg
    · exact ⟨_, hs, mem_singleton.mp hg⟩
    · cases hg
  | _ => cases hg

/-- A call of `readLocal`. -/
def Call.ofReader : Call → Bool
  | .data _ _ | .fin => true
  | _ => false

/-- The other fields that `relays` looks at are unchanged. -/
theorem relays_of_opener (hr : f'.relays) (ho : f'.opener ≠ .start) (ho' : f'.opener ≠ .startWriter)
    (hs : f'.started = f.started) (hrea : f'.reader = f.reader) (hwri : f'.writer = f.writer) :
    f.relays := by
  rcases hr with h | h | h | h | h
  · exact absurd h ho
  · exact absurd h ho'
  · exact .inr (.inr (.inl (hs ▸ h)))
  · exact .inr (.inr (.inr (.inl (hrea ▸ h))))
  · exact .inr (.inr (.inr (.inr (hwri ▸ h))))

/-- The flow starts to relay when OPEN_OK was committed, or when its own OPEN_OK was
acknowledged. -/
theorem TaskStep.relays (h : TaskStep closed f event f' out codes)
    (hrea : ∀ s, f.sending = some s → s.call.ofReader = true → f.reader ≠ .off) (hr : f'.relays) :
    f.relays ∨ f.opener = .await ∧ f.committed ∨
      ∃ s, f.sending = some s ∧ s.call = .streamOpenOK ∧ f.pendingACK = true := by
  have hre : f.reader ≠ .off → f.relays := fun h => .inr (.inr (.inr (.inl h)))
  have hwr : f.writer ≠ .off → f.relays := fun h => .inr (.inr (.inr (.inr h)))
  cases h with
  | lock hca hlo =>
    cases hca with
    | opener =>
      refine .inl ?_
      cases hlo with
      | refused =>
        rw [returnSend_eq] at hr
        cases hi : f.initiator <;> simp only [hi, if_true, false_eq_true, if_false] at hr <;>
          exact relays_of_opener hr nofun nofun rfl rfl rfl
      | begins =>
        rw [begun_eq] at hr
        cases hi : f.initiator <;> simp only [hi, if_true, false_eq_true, if_false] at hr <;>
          exact relays_of_opener hr nofun nofun rfl rfl rfl
    | data hrd | fin hrd => exact .inl (hre (by rw [hrd]; simp))
  | @sendReturn s _ ok hs hret =>
    rw [unlockSend_eq] at hr
    cases hca : s.call with
    | streamOpen =>
      refine .inl (relays_of_opener hr ?_ ?_ rfl ?_ rfl) <;> rw [hca] <;> cases ok <;>
        first | rfl | (intro h; cases h)
    | streamOpenOK =>
      cases ok with
      | true =>
        cases hret with
        | acknowledged _ hac => exact .inr (.inr ⟨s, hs, hca, (and_eq_true_iff.mp hac).2⟩)
      | false => refine .inl (relays_of_opener hr ?_ ?_ rfl ?_
          rfl) <;> rw [hca] <;> first | rfl | (intro h; cases h)
    | data | fin => exact .inl (hre (hrea s hs (by rw [hca]; rfl)))
    | reset =>
      refine .inl ?_
      rw [hca] at hr
      exact hr
  | openResult ho hter =>
    unfold takeOpenResult at hr
    split_ifs at hr with hok
    · exact .inr (.inl ⟨ho, hter, hok⟩)
    · exact .inl (relays_of_opener hr nofun nofun rfl rfl rfl)
  | listenerDone | openDeadline =>
    obtain ⟨_, _, _, heq, -⟩ := completeOpenLocally_fields f
    rw [heq] at hr
    exact .inl (relays_of_opener hr nofun nofun rfl rfl rfl)
  | forwarderDone | flowDone => exact .inl (relays_of_opener hr nofun nofun rfl rfl rfl)
  | startAgain ho | startClosed ho | start ho => exact .inl (.inl ho)
  | startWriterClosed ho | startWriter ho => exact .inl (.inr (.inl ho))
  | readNone hrd | read hrd | readError hrd | markLocalFIN hrd => exact .inl (hre (by rw [hrd]; simp))
  | writerDone hw | takeFIN hw | takeData hw | wrote hw | writeFailed hw | closedWrite hw
      | alreadyClosed hw
  | closeFailed hw | markRemoteFIN hw => exact .inl (hwr (by rw [hw]; simp))
  | sendPoint | transmit => exact .inl hr

/-- The handlers do not start to relay. -/
theorem CodeStep.relays (h : CodeStep closed f code f' out codes) (hr : f'.relays) : f.relays := by
  obtain ⟨ho, hrd, hw, hst⟩ := h.effect.tasks
  unfold Flow.relays at hr ⊢
  rwa [ho, hrd, hw, hst] at hr

/-! ## Which frames exist before OPEN_OK is committed -/

variable {ok rejected : Prop}

/-- A frame on its way to the responder. -/
structure ToResponder (ok rejected : Prop) (g : Frame) : Prop where
  result : isOpenResultFrame g.type = false
  first : g.type = .streamOpen → g.sequence = 1
  ack : g.type = .streamACK → ok ∨ rejected
  stream : g.type = .streamData ∨ g.type = .streamFIN → ok

/-- A frame on its way to the initiator. -/
structure ToInitiator (ok rejected : Prop) (g : Frame) : Prop where
  not_open : g.type ≠ .streamOpen
  error : g.type = .streamOpenError → rejected
  late : g.type = .streamData ∨ g.type = .streamFIN ∨ g.type = .streamReset → ok

theorem ToResponder.mono (hok : ok → ok') (hrej : rejected → rejected')
    (h : ToResponder ok rejected g) : ToResponder ok' rejected' g :=
  ⟨h.result, h.first, fun hg => (h.ack hg).imp hok hrej, fun hg => hok (h.stream hg)⟩

theorem ToInitiator.mono (hok : ok → ok') (hrej : rejected → rejected')
    (h : ToInitiator ok rejected g) : ToInitiator ok' rejected' g :=
  ⟨h.not_open, fun hg => hrej (h.error hg), fun hg => hok (h.late hg)⟩

/-! ### The initiator -/

structure InitiatorFlow (ok : Prop) (f : Flow) : Prop where
  initiator : f.initiator = true
  known : ok → f.committed
  relays : f.relays → f.committed
  sending : ∀ s, f.sending = some s →
    s.call ≠ .streamOpenOK ∧ (s.call = .streamOpen → s.sequence = 1) ∧ (s.call.ofReader = true →
      f.reader ≠ .off)

/-- What the initiator has seen; `ok` says that OPEN_OK was committed, `rejected` that an OPEN was
rejected. -/
def initiatorSide (ok rejected : Prop) : Assertions where
  flow f := InitiatorFlow ok f
  task f
    | .enqueueSequenced _ => f.committed
    | .observeSequence g | .expected g =>
      (g.type = .streamOpenError → rejected) ∧ (isOpenResultFrame g.type = true ∨
        g.type = .streamReset ∧ f.committed)
    | .shouldAcknowledgeOpenResult g | .completeOpenFrame g =>
      (g.type = .streamOpenError → rejected) ∧ isOpenResultFrame g.type = true
    | .sendACK _ _ => f.committed ∨ rejected
    | _ => True
  node
    | .handleFrame g => ToInitiator ok rejected g
    | .sendACK _ => ok ∨ rejected
    | _ => False
  frame f g := ToResponder f.committed rejected g
  bare g := g.type = .streamACK ∧ (ok ∨ rejected)

/-- The OPEN is sent first. -/
def openFirst : Guards where
  event f _ := f.opener = .lock → f.sendSeq = 0
  code _ _ := True
  node _ _ := True

theorem initiatorSide_task_mono (h : f.SameResult f') (code : Code)
    (ht : (initiatorSide ok rejected).task f code) : (initiatorSide ok rejected).task f' code := by
  cases code with
  | enqueueSequenced => exact h.committed ht
  | observeSequence | expected => exact ⟨ht.1, ht.2.imp_right fun hr => ⟨hr.1, h.committed hr.2⟩⟩
  | sendACK => exact Or.imp_left h.committed ht
  | _ => exact ht

theorem Call.frame_type (call : Call) (sequence : ℕ) :
    (call.ofReader = true ↔ (call.frame sequence).type = .streamData ∨
      (call.frame sequence).type = .streamFIN) ∧
      (call = .streamOpen ↔ (call.frame sequence).type = .streamOpen) ∧
      (call = .streamOpenOK ↔ (call.frame sequence).type = .streamOpenOK) ∧
      (call.frame sequence).type ≠ .streamOpenError ∧ (call.frame sequence).type ≠ .streamACK ∧
      (call.frame sequence).sequence = sequence := by
  cases call <;> simp [Call.ofReader, Call.frame]

theorem InitiatorFlow.taskStep (hf : InitiatorFlow ok f) (hs : TaskStep closed f event f' out codes)
    (hg : openFirst.event f event) : InitiatorFlow ok f' := by
  have hst : f.committed → f'.committed := hs.effect.result.committed
  refine ⟨hs.effect.initiator.trans hf.initiator, fun h => hst (hf.known h), fun hr => hst ?_,
    fun s hse => ?_⟩
  · rcases hs.relays (fun s h => (hf.sending s h).2.2) hr with h | h | ⟨s, h, hca, -⟩
    · exact hf.relays h
    · exact h.2
    · exact absurd hca (hf.sending s h).1
  · rcases hs.effect.sends s hse with ⟨s₀, hs₀, hca, hseq⟩ | ⟨hcal, hseq⟩
    · obtain ⟨h1, h2, h3⟩ := hf.sending s₀ hs₀
      rw [← hca, ← hseq]
      exact ⟨h1, h2, fun h => hs.effect.reader (h3 h)⟩
    · obtain ⟨call, sequence, point⟩ := s
      cases hcal with
      | opener ho =>
        have hze := hg ho
        rw [hf.initiator] at *
        exact ⟨nofun, fun _ => by rw [hseq, hze], nofun⟩
      | data hr | fin hr => exact ⟨nofun, nofun, fun _ => hs.effect.reader (by rw [hr]; exact nofun)⟩

theorem InitiatorFlow.codeStep (hf : InitiatorFlow ok f)
    (hs : CodeStep closed f code f' out codes) : InitiatorFlow ok f' := by
  have hst : f.committed → f'.committed := hs.effect.result.committed
  refine ⟨hs.effect.initiator.trans hf.initiator, fun h => hst (hf.known h),
    fun hr => hst (hf.relays (hs.relays hr)), fun s hse => ?_⟩
  rw [hs.effect.tasks.2.1]
  rcases hs.effect.sending s hse with h | ⟨cause, -, hca⟩
  · exact hf.sending s h
  · rw [hca]
    exact ⟨nofun, nofun, nofun⟩

section

variable (hs : CodeStep closed f code f' out codes) (ht : (initiatorSide ok rejected).task f code)

include hs ht

/-- What the initiator sends tells what it has committed. -/
theorem initiatorSide_out : ∀ g ∈ out, ToResponder f'.committed rejected g := by
  intro g hg
  cases hs with
  | sendACK frame shutdown sent =>
    split_ifs at hg
    · cases mem_singleton.mp hg
      exact ⟨rfl, nofun, fun _ => ht, by rintro (h | h) <;> cases h⟩
    · cases hg
  | _ => cases hg

theorem initiatorSide_codes : ∀ c ∈ codes, (initiatorSide ok rejected).task f' c := by
  cases hs <;> try simp only [forall_mem_singleton]
  case duplicate | admitted => exact .inl ht
  case refused => split_ifs <;> trivial
  case observeDuplicate _ hty =>
    rcases ht.2 with h | h
    · cases h.symm.trans hty
    · exact .inl h.2
  case observeResult _ hty => exact ⟨ht.1, hty⟩
  case observeExpected => exact ht
  case resultAgain hag =>
    -- the frame is OPEN_OK, which was committed, or OPEN_ERROR
    simp only [shouldAcknowledgeOpenResult, and_eq_true, decide_eq_true_eq] at hag
    have hty := ht.2
    simp only [isOpenResultFrame, or_eq_true, decide_eq_true_eq] at hty
    rcases hty with h | h
    · exact .inl ⟨hag.1, h ▸ hag.2⟩
    · exact .inr (ht.1 h)
  case result hty _ => exact ⟨ht.1, hty⟩
  case reset hty =>
    rcases ht.2 with h | h
    · simp [isOpenResultFrame, hty] at h
    · exact .inl h.2
  case committed =>
    have hty := ht.2
    simp only [isOpenResultFrame, or_eq_true, decide_eq_true_eq] at hty
    rcases hty with h | h
    · exact .inl ⟨rfl, congrArg some h⟩
    · exact .inr (ht.1 h)
  case sendACK => split_ifs <;> simp [initiatorSide]
  case lockReset hlo =>
    intro c hc
    cases hlo with
    | refused =>
      rw [returnSend_codes f _ false c hc]
      trivial
    | begins => cases hc
  case unexpected | fail | shutdown | closeDone | closeConn => trivial
  all_goals exact forall_mem_nil _

end

theorem initiatorSide_kept : Kept (initiatorSide ok rejected) openFirst where
  event hs hg hf :=
    { flow := hf.taskStep hs hg
      task := initiatorSide_task_mono hs.effect.result
      frame := fun _ h => h.mono hs.effect.result.committed id
      out := by
        intro g hg'
        obtain ⟨s, hse, rfl⟩ := hs.transmits hg'
        obtain ⟨h1, h2, h3⟩ := hf.sending s hse
        obtain ⟨t1, t2, t3, t4, t5, t6⟩ := s.call.frame_type s.sequence
        refine .inr ⟨?_, fun h => ?_, fun h => absurd h t5, fun h => ?_⟩
        · simp only [isOpenResultFrame, or_eq_false_iff, decide_eq_false_iff_not]
          exact ⟨fun h => h1 (t3.mpr h), t4⟩
        · rw [t6]
          exact h2 (t2.mpr h)
        · exact hs.effect.result.committed (hf.relays (.inr (.inr (.inr (.inl (h3 (t1.mpr h)))))))
      codes := by
        intro c hc
        rcases hs.next c hc with rfl | ⟨cause, rfl⟩ <;> trivial }
  code hs _ hf ht :=
    { flow := hf.codeStep hs
      task := initiatorSide_task_mono hs.effect.result
      frame := fun _ h => h.mono hs.effect.result.committed id
      out := fun g hg => .inr (initiatorSide_out hs ht g hg)
      codes := initiatorSide_codes hs ht }
  node hs _ hco := by
    cases hs with
    | acknowledge _ hj =>
      refine ⟨by simp, by simp, fun j c hc => ?_⟩
      cases mem_singleton.mp hc
      exact ⟨hj, fun _ _ => trivial⟩
    | enqueue hty hj =>
      refine ⟨by simp, by simp, fun j c hc => ?_⟩
      cases mem_singleton.mp hc
      refine ⟨hj, fun f hf => hf.known (hco.late ?_)⟩
      rcases hty with h | h
      · exact .inl h
      · exact .inr (.inl h)
    | observe hty hj =>
      refine ⟨by simp, by simp, fun j c hc => ?_⟩
      cases mem_singleton.mp hc
      exact ⟨hj, fun f hf => ⟨hco.error, hty.imp_right fun h =>
        ⟨h, hf.known (hco.late (.inr (.inr h)))⟩⟩⟩
    | dropped => exact ⟨by simp, by simp, by simp⟩
    | staleReset hty =>
      refine ⟨by simp, fun c hc => ?_, by simp⟩
      cases mem_singleton.mp hc
      exact .inl (hco.late (.inr (.inr hty)))
    | badOpen _ hty | busy hty | claim hty => exact absurd hty hco.not_open
    | sendACK frame ok =>
      refine ⟨fun g hg => ?_, by simp, by simp⟩
      split_ifs at hg
      · cases mem_singleton.mp hg
        exact ⟨rfl, hco⟩
      · cases hg
    | _ => exact hco.elim
  promoted h := h.elim
  shutdown _ _ := trivial

/-! ### The responder -/

structure ResponderFlow (ok : Prop) (f : Flow) : Prop where
  responder : f.initiator = false
  opener : f.opener ≠ .await
  pending : f.pendingACK = true → ok
  acknowledged : 1 ≤ f.sendSeq → ok
  relays : f.relays → ok
  sending : ∀ s, f.sending = some s →
    s.call ≠ .streamOpen ∧ (s.call ≠ .streamOpenOK → ok) ∧ (s.call.ofReader = true → f.reader ≠ .off)

/-- What the responder has seen. -/
def responderSide (ok rejected : Prop) : Assertions where
  flow f := ResponderFlow ok f
  task _
    | .acknowledge _ | .enqueueSequenced _ | .fail _ | .lockReset _ => ok
    | .observeSequence g | .expected g => g.type = .streamReset
    | .shouldAcknowledgeOpenResult _ | .completeOpenFrame _ => False
    | _ => True
  node
    | .handleFrame g => ToResponder ok rejected g
    | .sendOpenFailure _ _ => rejected
    | _ => True
  frame _ g := ToInitiator ok rejected g
  bare g := ToInitiator ok rejected g

/-- After a rejection the table has no flow. -/
def tableFree (rejected : Prop) : Guards where
  event _ _ := True
  code _ _ := True
  node n
    | .handleFrame _ => n.table.isSome = true → ¬ rejected
    | .releaseOpening (some _) => rejected
    | _ => True

theorem TaskStep.fails (h : TaskStep closed f event f' out codes) {cause : String}
    (hc : Code.fail cause ∈ codes) : f.opener = .await ∨ f.reader ≠ .off ∨ f.writer ≠ .off := by
  cases h with
  | lock _ hlo =>
    cases hlo with
    | refused => cases returnSend_codes f _ false _ hc
    | begins => cases hc
  | sendReturn => cases returnSend_codes _ _ _ _ hc
  | openResult ho | listenerDone ho | forwarderDone ho | openDeadline ho => exact .inl ho
  | readError hr | markLocalFIN hr => exact .inr (.inl (by rw [hr]; exact nofun))
  | writeFailed hw | closeFailed hw | markRemoteFIN hw => exact .inr (.inr (by rw [hw]; exact nofun))
  | startClosed | startWriterClosed => cases mem_singleton.mp hc
  | _ => cases hc

theorem ResponderFlow.taskStep (hf : ResponderFlow ok f)
    (hs : TaskStep closed f event f' out codes) : ResponderFlow ok f' := by
  have hrea : ∀ s, f.sending = some s → s.call.ofReader = true → f.reader ≠ .off :=
    fun s h => (hf.sending s h).2.2
  refine ⟨hs.effect.initiator.trans hf.responder, ?_, fun h => hf.pending (hs.effect.pendingACK h),
    fun h => ?_, fun hr => ?_, fun s hse => ?_⟩
  · cases hs with
    | @lock _ call _ _ _ hlo =>
      cases hlo with
      | refused =>
        rw [returnSend_eq]
        cases call <;> first | exact hf.opener | exact nofun
      | begins =>
        rw [begun_eq]
        cases call <;> first | exact hf.opener | exact nofun
    | @sendReturn s _ sent hse _ =>
      rw [unlockSend_eq]
      have hne := (hf.sending s hse).1
      cases hca : s.call <;> cases sent <;> first | exact absurd hca hne | exact hf.opener | exact nofun
    | openResult ho | listenerDone ho | forwarderDone ho | flowDone ho | openDeadline ho =>
      exact absurd ho hf.opener
    | startAgain | startClosed | start | startWriterClosed | startWriter => exact nofun
    | _ => exact hf.opener
  · rcases hs.effect.sendSeq with heq | hp
    · exact hf.acknowledged (heq ▸ h)
    · exact hf.pending hp
  · rcases hs.relays hrea hr with h | h | ⟨s, -, -, hp⟩
    · exact hf.relays h
    · exact absurd h.1 hf.opener
    · exact hf.pending hp
  · rcases hs.effect.sends s hse with ⟨s₀, hs₀, hca, -⟩ | ⟨hcal, -⟩
    · obtain ⟨h1, h2, h3⟩ := hf.sending s₀ hs₀
      rw [← hca]
      exact ⟨h1, h2, fun h => hs.effect.reader (h3 h)⟩
    · obtain ⟨call, sequence, point⟩ := s
      cases hcal with
      | opener =>
        rw [hf.responder] at *
        exact ⟨nofun, fun h => absurd rfl h, nofun⟩
      | data hr | fin hr =>
        have hon : f.reader ≠ .off := by rw [hr]; exact nofun
        exact ⟨nofun, fun _ => hf.relays (.inr (.inr (.inr (.inl hon)))), fun _ => hs.effect.reader hon⟩

theorem ResponderFlow.codeStep (hf : ResponderFlow ok f) (hs : CodeStep closed f code f' out codes)
    (ht : (responderSide ok rejected).task f code) : ResponderFlow ok f' := by
  obtain ⟨ho, hr, -⟩ := hs.effect.tasks
  refine ⟨hs.effect.initiator.trans hf.responder, ho ▸ hf.opener, fun hp => ?_,
    fun h => hf.acknowledged (hs.effect.sendSeq ▸ h), fun h => hf.relays (hs.relays h), fun s hse => ?_⟩
  · rcases hs.effect.pendingACK hp with h | ⟨sequence, rfl⟩
    · exact hf.pending h
    · exact ht
  · rcases hs.effect.sending s hse with h | ⟨cause, rfl, hca⟩
    · rw [hr]
      exact hf.sending s h
    · rw [hca]
      exact ⟨nofun, fun _ => ht, nofun⟩

theorem toInitiator_ack (g : Frame) : ToInitiator ok rejected (ackOf g) :=
  ⟨nofun, nofun, by rintro (h | h | h) <;> cases h⟩

theorem responderSide_codes (hs : CodeStep closed f code f' out codes)
    (ht : (responderSide ok rejected).task f code) :
    ∀ c ∈ codes, (responderSide ok rejected).task f' c := by
  cases hs <;> try simp only [forall_mem_singleton]
  case refused =>
    split_ifs
    · trivial
    · exact ht
  case observeResult _ hty =>
    have ht : _ = DataType.streamReset := ht
    simp [isOpenResultFrame, ht] at hty
  case unexpected hty _ | result hty _ =>
    have ht : _ = DataType.streamReset := ht
    simp [isOpenResultFrame, ht] at hty
  case observeExpected => exact ht
  case resultAgain | resultForeign | committed | late => exact ht.elim
  case fail => exact ht
  case sendACK => split_ifs <;> simp [responderSide]
  case lockReset hlo =>
    intro c hc
    cases hlo with
    | refused =>
      rw [returnSend_codes f _ false c hc]
      trivial
    | begins => cases hc
  case duplicate | admitted | observeDuplicate | reset | shutdown | closeDone | closeConn => trivial
  all_goals exact forall_mem_nil _

theorem responderSide_kept : Kept (responderSide ok rejected) (tableFree rejected) where
  event hs _ hf :=
    { flow := hf.taskStep hs
      task := fun code h => by cases code <;> exact h
      frame := fun _ h => h
      out := by
        intro g hg
        obtain ⟨s, hse, rfl⟩ := hs.transmits hg
        obtain ⟨h1, h2, -⟩ := hf.sending s hse
        obtain ⟨-, t2, t3, t4, -, -⟩ := s.call.frame_type s.sequence
        refine .inr ⟨fun h => h1 (t2.mpr h), fun h => absurd h t4, fun h => h2 fun hca => ?_⟩
        rw [t3.mp hca] at h
        simp at h
      codes := by
        intro c hc
        rcases hs.next c hc with rfl | ⟨cause, rfl⟩
        · trivial
        · rcases hs.fails hc with h | h | h
          · exact absurd h hf.opener
          · exact hf.relays (.inr (.inr (.inr (.inl h))))
          · exact hf.relays (.inr (.inr (.inr (.inr h)))) }
  code hs _ hf ht :=
    { flow := hf.codeStep hs ht
      task := fun code h => by cases code <;> exact h
      frame := fun _ h => h
      out := by
        intro g hg
        cases hs with
        | sendACK frame shutdown sent =>
          split_ifs at hg
          · cases mem_singleton.mp hg
            exact .inl (toInitiator_ack frame)
          · cases hg
        | _ => cases hg
      codes := responderSide_codes hs ht }
  node hs hgu hco := by
    cases hs with
    | acknowledge hty hj =>
      refine ⟨nofun, by simp, fun j c hc => ?_⟩
      cases mem_singleton.mp hc
      refine ⟨hj, fun _ _ => ?_⟩
      exact (hco.ack hty).resolve_right (hgu (by rw [hj]; rfl))
    | enqueue hty hj =>
      refine ⟨nofun, by simp, fun j c hc => ?_⟩
      cases mem_singleton.mp hc
      exact ⟨hj, fun _ _ => hco.stream hty⟩
    | observe hty hj =>
      refine ⟨nofun, by simp, fun j c hc => ?_⟩
      cases mem_singleton.mp hc
      refine ⟨hj, fun _ _ => hty.resolve_left ?_⟩
      rw [hco.result]
      exact nofun
    | badOpen _ hty hseq => exact absurd (hco.first hty) hseq
    | sendACK frame sent | acceptOpen frame sent =>
      refine ⟨fun g hg => ?_, by simp [responderSide], by simp⟩
      split_ifs at hg
      · cases mem_singleton.mp hg
        exact toInitiator_ack frame
      · cases hg
    | rejected cause =>
      refine ⟨nofun, fun c hc => ?_, by simp⟩
      cases mem_singleton.mp hc
      exact hgu
    | openFailure left cause sent =>
      refine ⟨fun g hg => ?_, fun c hc => ?_, by simp⟩
      · split_ifs at hg
        · cases mem_singleton.mp hg
          exact ⟨nofun, fun _ => hco, by rintro (h | h | h) <;> cases h⟩
        · cases hg
      · cases mem_singleton.mp hc
        exact hco
    | _ => exact ⟨nofun, by simp [responderSide], by simp⟩
  promoted _ := ⟨rfl, nofun, nofun, nofun, by rintro (h | h | h | h | h) <;> simp_all [newTCPFlow,
    markOpened], nofun⟩
  shutdown _ _ := trivial

/-! ## Runs -/

/-- No flow is promoted after an OPEN was rejected, unless the forwarder is closed and drops it. -/
def Node.unrejected (n : Node) : Node.Action → Bool
  | .task i _ =>
    match n.tasks[i]? with
    | some (.node .promoteOpening) => !n.rejected || n.closed
    | _ => true
  | _ => true

def World.unrejected (w : World) : World.Action → Bool
  | .deliver _ _ => true
  | .act side action => (w.node side).unrejected action

def World.Committed (w : World) : Prop := ∃ f, w.initiator.flows[0]? = some f ∧ f.committed

structure OpenOK (w : World) : Prop where
  single : ∃ f, w.initiator.flows = [f]
  initiator : Holds (initiatorSide w.Committed (w.responder.rejected = true)) w.initiator
  responder : Holds (responderSide w.Committed (w.responder.rejected = true)) w.responder
  table : w.responder.rejected = true → w.responder.table = none

theorem Holds.initiator_mono (h : Holds (initiatorSide ok rejected) n) (hok : ok → ok')
    (hrej : rejected → rejected') (hkn : ∀ f ∈ n.flows, ok' → f.committed) :
    Holds (initiatorSide ok' rejected') n := by
  refine h.mono (fun f hf hfl => ⟨hfl.initiator, hkn f hf, hfl.relays,
    hfl.sending⟩) (fun f code ht => ?_)
    (fun code hc => ?_) (fun f g hg => hg.mono id hrej) fun g hg => ⟨hg.1, hg.2.imp hok hrej⟩
  · cases code with
    | observeSequence | expected | shouldAcknowledgeOpenResult | completeOpenFrame =>
      exact ⟨fun h => hrej (ht.1 h), ht.2⟩
    | sendACK => exact Or.imp_right hrej ht
    | _ => exact ht
  · cases code with
    | handleFrame => exact ToInitiator.mono hok hrej hc
    | sendACK => exact Or.imp hok hrej hc
    | _ => exact hc

/-- What holds of the responder is monotone in both parameters. -/
theorem Holds.responder_mono (h : Holds (responderSide ok rejected) n) (hok : ok → ok')
    (hrej : rejected → rejected') : Holds (responderSide ok' rejected') n := by
  refine h.mono (fun f _ hf => ?_) (fun f code ht => ?_) (fun code hc => ?_) (fun _ _ hg =>
    hg.mono hok hrej) fun _ hg => hg.mono hok hrej
  · exact ⟨hf.responder, hf.opener, fun h => hok (hf.pending h), fun h => hok (hf.acknowledged h),
      fun h => hok (hf.relays h),
      fun s hs => ⟨(hf.sending s hs).1, fun h => hok ((hf.sending s hs).2.1 h), (hf.sending s hs).2.2⟩⟩
  · cases code with
    | acknowledge | enqueueSequenced | fail | lockReset => exact hok ht
    | _ => exact ht
  · cases code with
    | handleFrame => exact ToResponder.mono hok hrej hc
    | sendOpenFailure => exact hrej hc
    | _ => exact hc

theorem OpenOK.deliver (h : OpenOK w) {side : Side} {frame : Frame}
    (hfr : frame ∈ (w.node side.peer).sent) :
    OpenOK (w.set side (World.delivered (w.node side) frame)) := by
  obtain ⟨f, hf⟩ := h.single
  cases side with
  | initiator =>
    refine ⟨⟨f, hf⟩, h.initiator.delivered ?_, h.responder, h.table⟩
    rcases h.responder.sent frame hfr with hg | ⟨_, -, hg⟩
    · exact hg
    · exact hg
  | responder =>
    refine ⟨⟨f, hf⟩, h.initiator, h.responder.delivered ?_, h.table⟩
    rcases h.initiator.sent frame hfr with ⟨hty, hack⟩ | ⟨f', hf', hg⟩
    · exact ⟨by simp [isOpenResultFrame, hty], fun h => by simp [hty] at h, fun _ => hack,
        fun h => by simp [hty] at h⟩
    · rw [hf, mem_singleton] at hf'
      exact hg.mono (fun hc => ⟨f, by rw [hf]; rfl, hf' ▸ hc⟩) id

theorem OpenOK.initiatorStep (h : OpenOK w) (hs : NodeStep w.initiator a n)
    (hfr : (∃ f, Fresh w f) ∨ Opened w) : OpenOK (w.set .initiator n) := by
  obtain ⟨f, hf⟩ := h.single
  have hget : w.initiator.flows[0]? = some f := by rw [hf]; rfl
  -- the initiator makes no flow object, since no OPEN arrives there
  have hlen : n.flows.length = 1 := by
    cases hs with
    | event => simp [Node.update, hf]
    | code =>
      unfold Node.removeFlow
      split_ifs <;> simp [Node.update, Node.taken, hf]
    | node ht hst =>
      obtain ⟨-, -, ⟨hfl, -⟩ | ⟨-, -, -, rfl⟩⟩ := hst.frame
      · simp [hfl, Node.taken, hf]
      · exact (h.initiator.nodes _ (mem_of_getElem? ht)).elim
    | close => simp [hf]
  obtain ⟨f', hf'⟩ := length_eq_one_iff.mp hlen
  have hsa : f.SameResult f' := by
    obtain ⟨g, hg, hres⟩ := hs.flow (fun _ => .of_eq rfl rfl) (·.effect.result) (·.effect.result) hget
    rw [hf'] at hg
    cases hg
    exact hres
  have hok : w.Committed → (w.set .initiator n).Committed := by
    rintro ⟨g, hg, hc⟩
    cases hget.symm.trans hg
    exact ⟨f', by show n.flows[0]? = _; rw [hf']; rfl, hsa.committed hc⟩
  have hgu : openFirst.meets w.initiator a := by
    cases a with
    | flow j event =>
      intro g hg hlo
      have hj : j = 0 := by
        have hlt := (List.getElem?_eq_some_iff.mp hg).1
        rw [hf] at hlt
        exact Nat.lt_one_iff.mp hlt
      subst hj
      rcases hfr with ⟨g', hfr⟩ | ⟨g', hg', ho⟩
      · rw [hfr.flows] at hg
        cases hg
        exact hfr.sendSeq
      · cases hg.symm.trans hg'
        exact absurd hlo ho
    | task => exact ⟨fun _ _ _ _ _ => trivial, fun _ _ => trivial⟩
    | close => trivial
  refine ⟨⟨f', hf'⟩, ?_, h.responder.responder_mono hok id, h.table⟩
  refine (h.initiator.step initiatorSide_kept hs hgu).initiator_mono hok id fun g hg hc => ?_
  rw [hf', mem_singleton] at hg
  obtain ⟨g', hg', hcom⟩ := hc
  rw [show (w.set .initiator n).initiator.flows = [f'] from hf'] at hg'
  cases hg'
  exact hg ▸ hcom

/-- A rejection leaves the table free, and no later OPEN is promoted. -/
theorem nodeCodeStep_table {i : ℕ} {answer : Node.Answer} {code : NodeCode} {m : Node}
    {tasks : List Task} (hc : ClaimOK n) (hfr : n.rejected = true → n.table = none)
    (ht : n.tasks[i]? = some (.node code)) (hs : NodeCodeStep (n.taken i) code m out tasks)
    (hok : n.unrejected (.task i answer) = true) :
    (n.rejected = true → m.rejected = true) ∧ (m.rejected = true → m.table = none) ∧
      (tableFree (m.rejected = true)).node (n.taken i) code := by
  have hgu : (n.taken i).table.isSome = true → ¬ n.rejected = true := by
    intro hso hr
    rw [show (n.taken i).table = none from hfr hr] at hso
    cases hso
  cases hs with
  | acknowledge | enqueue | observe | dropped | staleReset | badOpen | busy | claim =>
    exact ⟨id, hfr, hgu⟩
  | promoted _ _ hclo =>
    have hcl : n.closed = false := hclo
    have hr : n.rejected = false := by simpa [Node.unrejected, ht, hcl] using hok
    exact ⟨id, fun h => absurd (hr.symm.trans h) nofun, trivial⟩
  | rejected => exact ⟨fun _ => rfl, fun _ => hc.table (hc.holder ht rfl).1, rfl⟩
  | _ => exact ⟨id, hfr, trivial⟩

theorem OpenOK.responderStep (h : OpenOK w) (hs : NodeStep w.responder a n)
    (hcl : ClaimOK w.responder) (hok : w.responder.unrejected a = true) :
    OpenOK (w.set .responder n) := by
  -- what a step does to the tables and to `rejected`
  have hta : (w.responder.rejected = true → n.rejected = true) ∧
      (n.rejected = true → n.table = none) ∧ (tableFree (n.rejected = true)).meets w.responder a := by
    cases hs with
    | event => exact ⟨id, h.table, fun _ _ => trivial⟩
    | @code i j _ code _ _ _ _ ht =>
      have hme : (tableFree (w.responder.rejected = true)).meets w.responder (.task i (.choice true)) :=
        ⟨fun _ _ _ _ _ => trivial, fun c hc => by rw [ht] at hc; cases hc⟩
      unfold Node.removeFlow
      split_ifs
      · exact ⟨id, fun _ => rfl, hme⟩
      · exact ⟨id, h.table, hme⟩
      · exact ⟨id, h.table, hme⟩
    | @node i answer code m out tasks ht hst =>
      obtain ⟨hrej, hfr, hgu⟩ := nodeCodeStep_table hcl h.table ht hst hok
      refine ⟨hrej, hfr, fun _ _ _ _ _ => trivial, fun c hc => ?_⟩
      cases ht.symm.trans hc
      exact hgu
    | close => exact ⟨id, h.table, trivial⟩
  obtain ⟨hrej, hfr, hgu⟩ := hta
  obtain ⟨f, hf⟩ := h.single
  refine ⟨⟨f, hf⟩, ?_, ?_, hfr⟩
  · exact h.initiator.initiator_mono id hrej fun g hg hc => by
      rw [hf, mem_singleton] at hg
      obtain ⟨g', hg', hcom⟩ := hc
      rw [show (w.set .responder n).initiator.flows = [f] from hf] at hg'
      cases hg'
      exact hg ▸ hcom
  · exact (h.responder.responder_mono id hrej).step responderSide_kept hs hgu

theorem openOK_of_reachable
    (h : Transition.Reachable World.step (· = World.start) (fun w a => w.unrejected a = true) w) :
    OpenOK w := by
  refine h.invariant ?_ ?_
  · rintro w rfl
    refine ⟨⟨_, rfl⟩, .start_initiator ⟨rfl, ?_, ?_, nofun⟩, .start_responder, nofun⟩
    · rintro ⟨f, hf, hc⟩
      cases hf
      exact hc
    · rintro (h | h | h | h | h) <;> simp_all [newTCPFlow]
  · intro w action w' hr hw hok hs
    have hall : Transition.Reachable step (· = start) (fun _ _ => True) w :=
      hr.mono fun _ _ _ => trivial
    rcases step_cases hs with ⟨side, k, frame, hfr, rfl, rfl⟩ | ⟨side, a, n, rfl, hn, rfl⟩
    · exact hw.deliver hfr
    · cases side with
      | initiator => exact hw.initiatorStep hn (fresh_or_opened hall)
      | responder => exact hw.responderStep hn (claimOK_of_reachable hr .responder) hok

theorem acksCommitted_of_reachable {ok : World → World.Action → Prop}
    (h : Transition.Reachable World.step (· = World.start) ok w) (side : Side) :
    Holds acksCommitted (w.node side) := by
  refine node_of_reachable (fun side => ?_) (fun _ hn => hn.delivered trivial)
    (fun _ hn _ hs => hn.step acksCommitted_kept hs (noGuards_meets _ _)) h side
  cases side with
  | initiator => exact .start_initiator fun _ hg => absurd hg not_mem_nil
  | responder => exact .start_responder

/-- The result of the flow object `j` in every later world. -/
theorem sameResult_of_reachable {ok : World → World.Action → Prop}
    (h : Transition.Reachable World.step (· = w) ok w') (side : Side) {j : ℕ}
    (hf : (w.node side).flows[j]? = some f) :
    ∃ f', (w'.node side).flows[j]? = some f' ∧ f.SameResult f' := by
  induction h with
  | start hw =>
    subst hw
    exact ⟨f, hf, .of_eq rfl rfl⟩
  | step _ _ hs ih =>
    obtain ⟨f₁, hf₁, h₁⟩ := ih
    obtain ⟨f₂, hf₂, h₂⟩ := step_flow (fun _ => .of_eq rfl rfl) (·.effect.result) (·.effect.result)
      hs side hf₁
    refine ⟨f₂, hf₂, fun ht => ?_⟩
    obtain ⟨t₁, r₁⟩ := h₁ ht
    obtain ⟨t₂, r₂⟩ := h₂ t₁
    exact ⟨t₂, r₂.trans r₁⟩

/-- **The result of an OPEN.** In every run the initiator acknowledges an OPEN_OK only if OPEN_OK is
the result it has committed, and a committed result stays. In every run in which no flow is promoted
after an OPEN was rejected, a responder flow relays, or has its OPEN_OK acknowledged, only if the
initiator has committed OPEN_OK. -/
theorem relay_needs_committed_open {w : World}
    (h : Transition.Reachable World.step (· = World.start) (fun _ _ => True) w) :
    (∀ f ∈ w.initiator.flows, ∀ g ∈ f.acked, g.type = .streamOpenOK → f.committed) ∧
    (∀ f, w.initiator.flows[0]? = some f → f.openTerminal = true →
      ∀ w', Transition.Reachable World.step (· = w) (fun _ _ => True) w' →
        ∃ f', w'.initiator.flows[0]? = some f' ∧ f'.openTerminal = true ∧
          f'.openResultType = f.openResultType) ∧
    (Transition.Reachable World.step (· = World.start) (fun w a => w.unrejected a = true) w →
      ∀ f ∈ w.responder.flows, f.started = true ∨ 1 ≤ f.sendSeq → w.Committed) := by
  refine ⟨(acksCommitted_of_reachable h .initiator).flows, fun f hf ht w' hw' => ?_,
    fun hcond f hf hrelays => ?_⟩
  · obtain ⟨f', hf', hres⟩ := sameResult_of_reachable hw' .initiator hf
    exact ⟨f', hf', hres ht⟩
  · have hflow := (openOK_of_reachable hcond).responder.flows f hf
    rcases hrelays with hs | hs
    · exact hflow.relays (.inr (.inr (.inl hs)))
    · exact hflow.acknowledged hs

/-! ### Runs -/

/-- The first OPEN is rejected; a copy of it is accepted before the initiator sees the
OPEN_ERROR. -/
def rejectedRun : List World.Action :=
  sendOf .initiator 0 (.opener .lock) ++ deliverTo .responder 0 4 ++
    [.act .responder (.task 0 (.failed "connection refused"))] ++ tasksOf .responder 5 ++ acceptRun 0 ++
    deliverTo .initiator 1 6 ++ ackTo .responder 0 1 ++ eventsOf .responder 0 [.opener .start]

theorem relay_sample : ∃ w : World, (∃ f ∈ w.responder.flows, f.started = true) ∧ w.Committed := by
  obtain ⟨w, hw, hp⟩ := run_reachable unrejected openRun
    (fun w => w.responder.flows.any fun f => f.started) (by decide +kernel)
  obtain ⟨f, hf, hs⟩ := any_eq_true.mp hp
  have hall : Transition.Reachable step (· = start) (fun _ _ => True) w := hw.mono fun _ _ _ => trivial
  exact ⟨w, ⟨f, hf, hs⟩, (relay_needs_committed_open hall).2.2 hw f hf (.inl hs)⟩

/-- The responder relays, and the initiator has committed OPEN_ERROR. -/
theorem relay_after_open_error :
    ∃ w : World, Transition.Reachable World.step (· = World.start) (fun _ _ => True) w ∧
      w.responder.flows.map (fun f => (f.started, f.sendSeq)) = [(true, 1)] ∧
      w.initiator.flows.map (fun f => (f.openTerminal, f.openResultType)) =
        [(true, some .streamOpenError)] := by
  obtain ⟨w, hw, hp⟩ := run_reachable (fun _ _ => true) rejectedRun
    (fun w => w.responder.flows.map (fun f => (f.started, f.sendSeq)) = [(true, 1)] ∧
      w.initiator.flows.map (fun f => (f.openTerminal, f.openResultType)) =
        [(true, some .streamOpenError)])
    (by decide +kernel)
  exact ⟨w, hw.mono fun _ _ _ => trivial, of_decide_eq_true hp⟩

end Winkyou.Routed
