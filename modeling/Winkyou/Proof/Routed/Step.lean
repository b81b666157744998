import Mathlib.Tactic
import Winkyou.Lib.Transition
import Winkyou.Spec.Routed.Forwarder

/-!
# What one step of a flow can do

* `Locks`: the section in which a `send` takes its sequence, common to all callers.
* `TaskStep`: the tasks that are fields of the flow, with the guard of each step; `CodeStep`: the
  other tasks.
* `NodeCodeStep`: the tasks without a flow object; `NodeStep`: a step of a forwarder. The invariants
  of the following modules are proved by cases on these relations.
-/

namespace Winkyou.Routed

open Winkyou.Routed.Flow List
open Option (bind_eq_bind bind_eq_some_iff map_eq_some_iff some)

variable {f f' : Flow} {closed choice : Bool} {call : Call} {code : Code} {out : List Frame}
  {codes : List Code}

/-! ## Taking a sequence -/

/-- `send` takes a sequence. -/
def Flow.begun (f : Flow) (call : Call) : Flow :=
  { (f.enterSend call).beginPending (f.sendSeq + 1) with
    sending := some ⟨call, f.sendSeq + 1, .head⟩
    history := f.history ++ [call.frame (f.sendSeq + 1)] }

inductive Locks (f : Flow) (call : Call) : Flow → List Code → Prop
  | refused (hfree : f.sending = none) (hdone : f.done = true) :
      Locks f call (f.returnSend call false).1 (f.returnSend call false).2
  | begins (hfree : f.sending = none) (hdone : f.done = false) : Locks f call (f.begun call) []

theorem lockSend_locks (h : f.lockSend call = some (f', codes)) : Locks f call f' codes := by
  unfold lockSend at h
  split at h
  · cases h
  rename_i hfr
  split at h
  · rename_i hdo
    have hret : Locks f call _ _ := .refused hfr hdo
    rwa [some.inj h] at hret
  · rename_i hdo
    have hbe : f.begun call = f' ∧ [] = codes := by
      cases call <;> simpa [Flow.begun, beginPending, enterSend] using h
    obtain ⟨rfl, rfl⟩ := hbe
    exact .begins hfr (Bool.eq_false_iff.mpr hdo)

/-- The field task that is about to call `send`. -/
inductive Calls (f : Flow) : Event → Call → Prop
  | opener (h : f.opener = .lock) :
      Calls f (.opener .lock) (if f.initiator then .streamOpen else .streamOpenOK)
  | data {payload : Bytes} {after : ReadEnd} (h : f.reader = .lockData payload after) :
      Calls f (.reader .lock) (.data payload after)
  | fin (h : f.reader = .lockFIN) : Calls f (.reader .lock) .fin

/-! ## The tasks that are fields -/

/-- Why a `send` returns: acknowledged, or out of time, or the flow or the forwarder is closed. -/
inductive SendReturn (f : Flow) (closed : Bool) (s : Sending) : SendEvent → Bool → Prop
  | acknowledged (event : SendEvent) (h : f.acknowledged s.sequence = true) :
      SendReturn f closed s event true
  | deadline (h : f.acknowledged s.sequence = false) : SendReturn f closed s .deadline false
  | done (h : f.done = true) : SendReturn f closed s .done false
  | cancelled (h : closed = true) : SendReturn f closed s .cancelled false

inductive TaskStep (closed : Bool) (f : Flow) : Event → Flow → List Frame → List Code → Prop
  | lock {event : Event} {call : Call} {f' : Flow} {codes : List Code} (hcall : Calls f event call)
      (hlock : Locks f call f' codes) : TaskStep closed f event f' [] codes
  | sendPoint {s : Sending} (event : SendEvent) (hs : f.sending = some s) (point : SendPoint) :
      TaskStep closed f (.send event) { f with sending := some { s with point := point } } [] []
  | transmit {s : Sending} (hs : f.sending = some s) (ok : Bool) :
      TaskStep closed f (.send (.transmit ok)) { f with sending := some { s with point := .wait } }
        (if ok then [s.call.frame s.sequence] else []) []
  | sendReturn {s : Sending} {event : SendEvent} {ok : Bool} (hs : f.sending = some s)
      (hr : SendReturn f closed s event ok) :
      TaskStep closed f (.send event) (f.unlockSend s ok).1 [] (f.unlockSend s ok).2
  | openResult {event : OpenEvent} (ho : f.opener = .await) (hterminal : f.openTerminal = true) :
      TaskStep closed f (.opener event) f.takeOpenResult.1 [] f.takeOpenResult.2
  | listenerDone (ho : f.opener = .await) (err : String) :
      TaskStep closed f (.opener (.listenerDone err))
        { f.completeOpenLocally.1 with opener := .returned } []
        [.fail err]
  | forwarderDone (ho : f.opener = .await) (hc : closed = true) :
      TaskStep closed f (.opener .forwarderDone) { f with opener := .returned } [] [.shutdown]
  | flowDone (ho : f.opener = .await) (hd : f.done = true) :
      TaskStep closed f (.opener .flowDone) { f with opener := .returned } [] []
  | openDeadline (ho : f.opener = .await) (hterminal : f.openTerminal = false) :
      TaskStep closed f (.opener .deadline) { f.completeOpenLocally.1 with opener := .returned } []
        [.shutdown]
  | startAgain (ho : f.opener = .start) (hs : f.started = true) :
      TaskStep closed f (.opener .start) { f with opener := .returned } [] []
  | startClosed (ho : f.opener = .start) (hs : f.started = false) (hc : closed = true) :
      TaskStep closed f (.opener .start) { f with started := true, opener := .returned } [] [.shutdown]
  | start (ho : f.opener = .start) (hs : f.started = false) :
      TaskStep closed f (.opener .start) { f with started := true, reader := .read, opener := .startWriter } [] []
  | startWriterClosed (ho : f.opener = .startWriter) (hc : closed = true) :
      TaskStep closed f (.opener .start) { f with opener := .returned } [] [.shutdown]
  | startWriter (ho : f.opener = .startWriter) :
      TaskStep closed f (.opener .start) { f with writer := .take, opener := .returned } [] []
  | readNone (hr : f.reader = .read) (result : ReadEnd) :
      TaskStep closed f (.reader (.read [] result)) { f with reader := afterRead result } [] []
  | read {payload : Bytes} (hr : f.reader = .read) (result : ReadEnd) :
      TaskStep closed f (.reader (.read payload result))
        { f with reader := .lockData payload result, source := f.source ++ payload } [] []
  | readError {err : String} (hr : f.reader = .readError err) :
      TaskStep closed f (.reader .step) { f with reader := .returned } [] (if f.done then []
        else [.fail err])
  | markLocalFIN (hr : f.reader = .markLocalFIN) :
      TaskStep closed f (.reader .step) { f with localFIN := true, reader := .returned } []
        (if f.remoteFIN then [.shutdown] else [])
  | writerDone (hw : f.writer = .take) (hd : f.done = true) :
      TaskStep closed f (.writer .done) { f with writer := .returned } [] []
  | takeFIN {frame : Frame} {rest : List Frame} (hw : f.writer = .take)
      (hi : f.inbound = frame :: rest) (ht : frame.type = .streamFIN) :
      TaskStep closed f (.writer .take) { f with inbound := rest, writer := .closeWrite } [] []
  | takeData {frame : Frame} {rest : List Frame} (hw : f.writer = .take)
      (hi : f.inbound = frame :: rest) (ht : frame.type ≠ .streamFIN) :
      TaskStep closed f (.writer .take)
        { f with inbound := rest, writer := if frame.payload = [] then .take else .write frame.payload } [] []
  | wrote {payload : Bytes} {n : ℕ} (hw : f.writer = .write payload) :
      TaskStep closed f (.writer (.wrote n))
        { f with
          written := f.written ++ payload.take n
          writer := if payload.drop n = [] then .take else .write (payload.drop n) } [] []
  | writeFailed {payload : Bytes} {n : ℕ} (hw : f.writer = .write payload) (err : String) :
      TaskStep closed f (.writer (.writeFailed n err))
        { f with written := f.written ++ payload.take n, writer := .returned } [] [.fail err]
  | closedWrite (hw : f.writer = .closeWrite) :
      TaskStep closed f (.writer .closedWrite)
        { f with halfClosed := true, writer := .markRemoteFIN } [] []
  | alreadyClosed (hw : f.writer = .closeWrite) (hc : f.connClosed = true) :
      TaskStep closed f (.writer .alreadyClosed) { f with writer := .markRemoteFIN } [] []
  | closeFailed (hw : f.writer = .closeWrite) (err : String) :
      TaskStep closed f (.writer (.closeFailed err)) { f with writer := .returned } [] [.fail err]
  | markRemoteFIN (hw : f.writer = .markRemoteFIN) :
      TaskStep closed f (.writer .step) { f with remoteFIN := true, writer := .take } []
        (if f.localFIN then [.shutdown] else [])

theorem stepSend_taskStep {event : SendEvent}
    (h : f.stepSend closed event = some (f', out, codes)) :
    TaskStep closed f (.send event) f' out codes := by
  simp only [stepSend, bind_eq_bind, bind_eq_some_iff] at h
  obtain ⟨s, hs, h⟩ := h
  split at h
  · split_ifs at h with hac <;> cases h
    · exact .sendReturn hs (.acknowledged _ hac)
    · exact .sendPoint _ hs .transmit
  · cases h
    exact .transmit hs _
  · split_ifs at h with hac <;> cases h
    · exact .sendReturn hs (.acknowledged _ hac)
    · -- the task stays in the `select`
      have hsa : TaskStep closed f (.send .check) _ [] [] := .sendPoint .check hs s.point
      rwa [show ({ s with point := s.point } : Sending) = s from rfl, ← hs] at hsa
  · cases h
    exact .sendPoint _ hs .head
  · cases h
    cases hac : f.acknowledged s.sequence with
    | true => exact .sendReturn hs (.acknowledged _ hac)
    | false => exact .sendReturn hs (.deadline hac)
  · split_ifs at h with hdo
    cases h
    exact .sendReturn hs (.done hdo)
  · split_ifs at h with hclo
    cases h
    exact .sendReturn hs (.cancelled hclo)
  · cases h

theorem stepOpener_taskStep {event : OpenEvent} (h : f.stepOpener closed event = some (f', codes)) :
    TaskStep closed f (.opener event) f' [] codes := by
  revert h
  fun_cases stepOpener f closed event
  case case1 ho => exact fun h => .lock (.opener ho) (lockSend_locks h)
  case case2 ho hter | case9 ho hter =>
    intro h
    have hres := fun event => @TaskStep.openResult closed f event ho hter
    rw [some.inj h] at hres
    exact hres _
  all_goals rintro ⟨⟩
  case case4 ho => exact .listenerDone ho _
  case case5 ho hc => exact .forwarderDone ho hc
  case case7 ho hd => exact .flowDone ho hd
  case case10 ho hter => exact .openDeadline ho (Bool.eq_false_iff.mpr hter)
  case case11 ho hs => exact .startAgain ho hs
  case case12 ho hs hc => exact .startClosed ho (Bool.eq_false_iff.mpr hs) hc
  case case13 ho hs _ => exact .start ho (Bool.eq_false_iff.mpr hs)
  case case14 ho hc => exact .startWriterClosed ho hc
  case case15 ho _ => exact .startWriter ho

theorem stepReader_taskStep {event : ReadEvent} (h : f.stepReader event = some (f', codes)) :
    TaskStep closed f (.reader event) f' [] codes := by
  revert h
  fun_cases stepReader f event
  case case4 hr => exact fun h => .lock (.data hr) (lockSend_locks h)
  case case5 hr => exact fun h => .lock (.fin hr) (lockSend_locks h)
  all_goals rintro ⟨⟩
  case case2 hr _ => exact .readNone hr _
  case case3 hr _ _ => exact .read hr _
  case case6 hr => exact .readError hr
  case case7 hr => exact .markLocalFIN hr

theorem stepWriter_taskStep {event : WriteEvent} (h : f.stepWriter event = some (f', codes)) :
    TaskStep closed f (.writer event) f' [] codes := by
  revert h
  fun_cases stepWriter f event <;> rintro ⟨⟩
  case case1 hw hd => exact .writerDone hw hd
  case case4 hw frame rest hi ht => exact .takeFIN hw hi ht
  case case5 hw frame rest hi ht _ => exact .takeData hw hi ht
  case case7 hw _ _ => exact .wrote hw
  case case8 hw => exact .writeFailed hw _
  case case9 hw => exact .closedWrite hw
  case case10 hw hc => exact .alreadyClosed hw hc
  case case12 hw => exact .closeFailed hw _
  case case13 hw => exact .markRemoteFIN hw

theorem stepEvent_taskStep {event : Event} (h : f.stepEvent closed event = some (f', out, codes)) :
    TaskStep closed f event f' out codes := by
  cases event
  case send => exact stepSend_taskStep h
  all_goals
    simp only [stepEvent, map_eq_some_iff] at h
    obtain ⟨⟨f'', codes'⟩, hs, ⟨⟩⟩ := h
  case opener => exact stepOpener_taskStep hs
  case reader => exact stepReader_taskStep hs
  case writer => exact stepWriter_taskStep hs

/-! ### What the field tasks leave alone -/

/-- The opener and `readLocal` inside a call of `send`, and after it. -/
def Call.openerIn : Call → Opener → Opener
  | .streamOpen, _ | .streamOpenOK, _ => .sending
  | _, opener => opener

def Call.readerIn : Call → Reader → Reader
  | .data _ _, _ | .fin, _ => .sending
  | _, reader => reader

def Call.openerAfter : Call → Bool → Opener → Opener
  | .streamOpen, true, _ => .await
  | .streamOpenOK, true, _ => .start
  | .streamOpen, false, _ | .streamOpenOK, false, _ => .returned
  | _, _, opener => opener

def Call.readerAfter : Call → Bool → Reader → Reader
  | .data _ after, true, _ => afterRead after
  | .fin, true, _ => .markLocalFIN
  | .data _ _, false, _ | .fin, false, _ => .returned
  | _, _, reader => reader

theorem returnSend_eq (f : Flow) (call : Call) (ok : Bool) :
    (f.returnSend call ok).1 = { f with
      opener := call.openerAfter ok f.opener, reader := call.readerAfter ok f.reader } := by
  cases call <;> cases ok <;> rfl

theorem begun_eq (f : Flow) (call : Call) :
    f.begun call = { f with
      opener := call.openerIn f.opener, reader := call.readerIn f.reader
      pendingSeq := f.sendSeq + 1, pendingACK := false
      sending := some ⟨call, f.sendSeq + 1, .head⟩
      history := f.history ++ [call.frame (f.sendSeq + 1)] } := by
  cases call <;> rfl

/-- A pending frame is cleared by its own sequence only. -/
theorem clearPending_eq (f : Flow) (sequence : ℕ) :
    f.clearPending sequence = { f with
      pendingSeq := if f.pendingSeq = sequence then 0 else f.pendingSeq
      pendingACK := if f.pendingSeq = sequence then false else f.pendingACK } := by
  unfold clearPending
  split_ifs <;> rfl

theorem unlockSend_eq (f : Flow) (s : Sending) (ok : Bool) :
    (f.unlockSend s ok).1 = { f with
      opener := s.call.openerAfter ok f.opener, reader := s.call.readerAfter ok f.reader
      pendingSeq := if f.pendingSeq = s.sequence then 0 else f.pendingSeq
      pendingACK := if f.pendingSeq = s.sequence then false else f.pendingACK
      sending := none
      sendSeq := if ok then s.sequence else f.sendSeq
      failed := if ok then f.failed else true } := by
  unfold unlockSend
  rw [returnSend_eq, clearPending_eq]
  cases ok <;> rfl

theorem returnSend_codes (f : Flow) (call : Call) (ok : Bool) :
    ∀ c ∈ (f.returnSend call ok).2, c = .shutdown := by
  cases call <;> cases ok <;> simp [returnSend]

/-- The field tasks go on with `shutdown` or `fail` only. -/
theorem TaskStep.next {event : Event} (h : TaskStep closed f event f' out codes) :
    ∀ c ∈ codes, c = .shutdown ∨ ∃ cause, c = .fail cause := by
  cases h with
  | lock _ hlo =>
    cases hlo with
    | refused => exact fun c hc => .inl (returnSend_codes f _ false c hc)
    | begins => nofun
  | sendReturn => exact fun c hc => .inl (returnSend_codes _ _ _ c hc)
  | openResult =>
    unfold takeOpenResult
    split_ifs <;> simp
  | readError => split_ifs <;> simp
  | markLocalFIN => split_ifs <;> simp
  | markRemoteFIN => split_ifs <;> simp
  | _ => simp

/-! ## The other tasks -/

inductive CodeStep (closed : Bool) (f : Flow) : Code → Flow → List Frame → List Code → Prop
  | acknowledge (sequence : ℕ) :
      CodeStep closed f (.acknowledge sequence) (f.acknowledge sequence) [] []
  | duplicate {frame : Frame} (h : frame.sequence ≤ f.recvSeq) :
      CodeStep closed f (.enqueueSequenced frame) f [] [.sendACK frame false]
  | ignored (frame : Frame) : CodeStep closed f (.enqueueSequenced frame) f [] []
  | admitted {frame : Frame} (hseq : frame.sequence = f.recvSeq + 1) (hopened : f.opened = true)
      (hfin : f.remoteFINQueued = false) :
      CodeStep closed f (.enqueueSequenced frame)
        { f with
          inbound := f.inbound ++ [frame]
          admitted := f.admitted ++ [frame]
          remoteFINQueued := f.remoteFINQueued || frame.type = .streamFIN
          recvSeq := frame.sequence } [] [.sendACK frame false]
  | refused {frame : Frame} (hseq : frame.sequence = f.recvSeq + 1) (err : String)
      (h : f.opened = false ∨ f.remoteFIN = true ∨ f.remoteFINQueued = true ∨ f.done = true) :
      CodeStep closed f (.enqueueSequenced frame) f [] [if closed then .shutdown else .fail err]
  | observeDuplicate {frame : Frame} (h : frame.sequence ≤ f.recvSeq)
      (ht : isOpenResultFrame frame.type = false) :
      CodeStep closed f (.observeSequence frame) f [] [.sendACK frame false]
  | observeResult {frame : Frame} (h : frame.sequence ≤ f.recvSeq)
      (ht : isOpenResultFrame frame.type = true) :
      CodeStep closed f (.observeSequence frame) f [] [.shouldAcknowledgeOpenResult frame]
  | observeFuture (frame : Frame) : CodeStep closed f (.observeSequence frame) f [] []
  | observeExpected {frame : Frame} (h : frame.sequence = f.recvSeq + 1) :
      CodeStep closed f (.observeSequence frame) { f with recvSeq := frame.sequence } []
        [.expected frame]
  | resultAgain {frame : Frame} (h : f.shouldAcknowledgeOpenResult frame.type = true) :
      CodeStep closed f (.shouldAcknowledgeOpenResult frame) f [] [.sendACK frame false]
  | resultForeign (frame : Frame) : CodeStep closed f (.shouldAcknowledgeOpenResult frame) f [] []
  | unexpected {frame : Frame} (cause : String) (ht : isOpenResultFrame frame.type = true)
      (h : f.initiator = false ∨ f.opened = true) : CodeStep closed f (.expected frame) f []
        [.fail cause]
  | result {frame : Frame} (ht : isOpenResultFrame frame.type = true) (h : f.initiator = true) :
      CodeStep closed f (.expected frame) f [] [.completeOpenFrame frame]
  | reset {frame : Frame} (ht : frame.type = .streamReset) :
      CodeStep closed f (.expected frame) f [] [.sendACK frame true]
  | unsupported (frame : Frame) : CodeStep closed f (.expected frame) f [] []
  | committed {frame : Frame} (h : f.openTerminal = false) :
      CodeStep closed f (.completeOpenFrame frame)
        { f with
          openTerminal := true
          openResultType := some frame.type
          opened := f.opened || some frame.type = some DataType.streamOpenOK } []
        [.sendACK frame (frame.type = .streamOpenError)]
  | late (frame : Frame) : CodeStep closed f (.completeOpenFrame frame) f [] []
  | sendACK (frame : Frame) (shutdown ok : Bool) :
      CodeStep closed f (.sendACK frame shutdown) { f with acked := f.acked ++ [frame] }
        (if ok then [ackOf frame] else []) (if shutdown then [.shutdown] else [])
  | fail (cause : String) : CodeStep closed f (.fail cause) f.completeOpenLocally.1 []
      [.lockReset cause]
  | lockReset {cause : String} {f' : Flow} {codes : List Code}
      (h : Locks f (.reset cause) f' codes) : CodeStep closed f (.lockReset cause) f' [] codes
  | shutdownAgain (h : f.closing = true) : CodeStep closed f .shutdown f [] []
  | shutdown (h : f.closing = false) :
      CodeStep closed f .shutdown { f.completeOpenLocally.1 with closing := true } [] [.closeDone]
  | closeDone : CodeStep closed f .closeDone { f with done := true } [] [.closeConn]
  | closeConn : CodeStep closed f .closeConn { f with connClosed := true } [] [.removeFlow]
  | removeFlow : CodeStep closed f .removeFlow f [] []

/-- What `enqueue` answers. -/
theorem enqueue_cases (f : Flow) (frame : Frame) (pickDone : Bool) :
    (f.opened = true ∧ f.remoteFINQueued = false ∧ f.enqueue frame pickDone = .ok { f with
      inbound := f.inbound ++ [frame]
      admitted := f.admitted ++ [frame]
      remoteFINQueued := f.remoteFINQueued || frame.type = .streamFIN }) ∨
    f.enqueue frame pickDone = .error .queueFull ∨
    ∃ err, f.enqueue frame pickDone = .error (.refused err) ∧
      (f.opened = false ∨ f.remoteFIN = true ∨ f.remoteFINQueued = true ∨ f.done = true) := by
  unfold enqueue
  split_ifs with hope hfin hro hdo hdo
  · exact .inr (.inr ⟨_, rfl, .inl (by simpa using hope)⟩)
  · refine .inr (.inr ⟨_, rfl, .inr ?_⟩)
    rcases Bool.or_eq_true_iff.mp hfin with h | h
    · exact .inl h
    · exact .inr (.inl h)
  · exact .inr (.inr ⟨_, rfl, .inr (.inr (.inr (Bool.and_eq_true_iff.mp hdo).1))⟩)
  · simp only [Bool.or_eq_true, not_or, Bool.not_eq_true] at hfin
    exact .inl ⟨by simpa using hope, hfin.2, rfl⟩
  · exact .inr (.inr ⟨_, rfl, .inr (.inr (.inr hdo))⟩)
  · exact .inr (.inl rfl)

theorem stepEnqueue_codeStep {frame : Frame}
    (h : f.stepCode closed (.enqueueSequenced frame) choice = some (f', out, codes)) :
    CodeStep closed f (.enqueueSequenced frame) f' out codes := by
  simp only [stepCode, enqueueSequenced] at h
  by_cases hdup : frame.sequence < f.recvSeq + 1
  · simp only [hdup, if_true] at h
    cases h
    exact .duplicate (Nat.lt_succ_iff.mp hdup)
  by_cases hfut : frame.sequence > f.recvSeq + 1
  · simp only [hdup, hfut, if_false, if_true] at h
    cases h
    exact .ignored frame
  have hseq : frame.sequence = f.recvSeq + 1 := by omega
  simp only [hdup, hfut, if_false] at h
  rcases enqueue_cases f frame choice with ⟨hope, hfin, heq⟩ | heq | ⟨err, heq, hwhy⟩
  · simp only [heq, bind, Except.bind, pure, Except.pure, if_true] at h
    cases h
    exact .admitted hseq hope hfin
  · simp only [heq, bind, Except.bind] at h
    cases h
    exact .ignored frame
  · simp only [heq, bind, Except.bind] at h
    cases h
    exact .refused hseq err hwhy

theorem stepCode_codeStep (h : f.stepCode closed code choice = some (f', out, codes)) :
    CodeStep closed f code f' out codes := by
  revert h
  fun_cases stepCode f closed code choice
  case case2 hen | case3 hen | case4 hen =>
    intro h
    exact stepEnqueue_codeStep (by rw [← h, stepCode, hen])
  case case19 =>
    intro h
    obtain ⟨⟨f'', codes'⟩, hl, ⟨⟩⟩ := map_eq_some_iff.1 h
    exact .lockReset (lockSend_locks hl)
  all_goals rintro ⟨⟩
  case case5 frame hob =>
    simp only [Flow.observeSequence] at hob
    split_ifs at hob with hdup <;> cases hob
    cases ht : isOpenResultFrame frame.type with
    | true => exact .observeResult (Nat.lt_succ_iff.mp hdup) ht
    | false => exact .observeDuplicate (Nat.lt_succ_iff.mp hdup) ht
  case case6 hob =>
    simp only [Flow.observeSequence] at hob
    split_ifs at hob <;> cases hob
    exact .observeFuture _
  case case7 hob =>
    simp only [Flow.observeSequence] at hob
    split_ifs at hob <;> cases hob
    exact .observeExpected (by omega)
  case case8 frame =>
    split_ifs with hack
    · exact .resultAgain hack
    · exact .resultForeign frame
  case case9 ht hin => exact .unexpected _ (by simp [isOpenResultFrame, ht]) (.inl (by simpa using hin))
  case case10 ht hin => exact .result (by simp [isOpenResultFrame, ht]) (by simpa using hin)
  case case11 ht hwhy => exact .unexpected _ (by simp [isOpenResultFrame, ht]) (by simpa using hwhy)
  case case12 ht hwhy =>
    simp only [Bool.or_eq_true, Bool.not_eq_true', not_or, Bool.not_eq_false] at hwhy
    exact .result (by simp [isOpenResultFrame, ht]) hwhy.1
  case case13 ht => exact .reset ht
  case case15 hco =>
    simp only [Flow.completeOpenFrame, completeOpen] at hco
    split_ifs at hco with hter <;> cases hco
    exact .committed (Bool.eq_false_iff.mpr hter)
  case case16 hco =>
    simp only [Flow.completeOpenFrame, completeOpen] at hco
    split_ifs at hco with hter <;> cases hco
    exact .late _
  case case20 hclo => exact .shutdownAgain hclo
  case case21 hclo => exact .shutdown (Bool.eq_false_iff.mpr hclo)
  -- the other codes take one step each
  all_goals constructor

/-! ## Forwarders -/

/-- A step of a task without a flow object. -/
inductive NodeCodeStep (n : Node) : NodeCode → Node → List Frame → List Task → Prop
  | acknowledge {frame : Frame} {j : ℕ} (ht : frame.type = .streamACK) (hj : n.table = some j) :
      NodeCodeStep n (.handleFrame frame) n [] [.flow j (.acknowledge frame.sequence)]
  | enqueue {frame : Frame} {j : ℕ} (ht : frame.type = .streamData ∨ frame.type = .streamFIN)
      (hj : n.table = some j) :
      NodeCodeStep n (.handleFrame frame) n [] [.flow j (.enqueueSequenced frame)]
  | observe {frame : Frame} {j : ℕ} (ht : isOpenResultFrame frame.type = true ∨
      frame.type = .streamReset)
      (hj : n.table = some j) : NodeCodeStep n (.handleFrame frame) n []
        [.flow j (.observeSequence frame)]
  | dropped (frame : Frame) : NodeCodeStep n (.handleFrame frame) n [] []
  | staleReset {frame : Frame} (ht : frame.type = .streamReset) :
      NodeCodeStep n (.handleFrame frame) n [] [.node (.sendACK frame)]
  | badOpen {frame : Frame} (cause : String) (ht : frame.type = .streamOpen)
      (hseq : frame.sequence ≠ 1) :
      NodeCodeStep n (.handleFrame frame) n [] [.node (.sendOpenFailure 3 cause)]
  | busy {frame : Frame} (ht : frame.type = .streamOpen) :
      NodeCodeStep n (.handleFrame frame) n [] [.node (.sendACK frame)]
  | claim {frame : Frame} (ht : frame.type = .streamOpen) (hseq : frame.sequence = 1)
      (hclosed : n.closed = false) (htable : n.table = none) (hopening : n.opening = false) :
      NodeCodeStep n (.handleFrame frame) { n with opening := true } [] [.node (.acceptOpen frame)]
  | sendACK (frame : Frame) (ok : Bool) :
      NodeCodeStep n (.sendACK frame) n (if ok then [ackOf frame] else []) []
  | acceptOpen (frame : Frame) (ok : Bool) :
      NodeCodeStep n (.acceptOpen frame) n (if ok then [ackOf frame] else []) [.node .startOpen]
  | startOpen : NodeCodeStep n .startOpen n [] [.node .handleOpen]
  | startClosed : NodeCodeStep n .startOpen n [] [.node (.releaseOpening none)]
  | handleClosed : NodeCodeStep n .handleOpen n [] [.node (.releaseOpening none)]
  | noTarget (cause : String) : NodeCodeStep n .handleOpen n [] [.node (.releaseOpening (some cause))]
  | handleOpen : NodeCodeStep n .handleOpen n [] [.node .dial]
  | dialed : NodeCodeStep n .dial { n with dials := n.dials + 1 } [] [.node .promoteOpening]
  | dialFailed (cause : String) : NodeCodeStep n .dial n [] [.node (.releaseOpening (some cause))]
  | unclaimed (hopening : n.opening = false) : NodeCodeStep n .promoteOpening n [] []
  | notPromoted (h : n.closed = true ∨ n.table.isSome = true) :
      NodeCodeStep n .promoteOpening { n with opening := false } [] []
  | promoted (hopening : n.opening = true) (htable : n.table = none) (hclosed : n.closed = false) :
      NodeCodeStep n .promoteOpening
        { n with
          opening := false
          table := some n.flows.length
          flows := n.flows ++ [(newTCPFlow false 1).markOpened] } [] []
  | released : NodeCodeStep n (.releaseOpening none) { n with opening := false } [] []
  | rejected (cause : String) :
      NodeCodeStep n (.releaseOpening (some cause)) { n with opening := false, rejected := true } []
        [.node (.sendOpenFailure 3 cause)]
  | failureSent (cause : String) : NodeCodeStep n (.sendOpenFailure 0 cause) n [] []
  | openFailure (left : ℕ) (cause : String) (ok : Bool) :
      NodeCodeStep n (.sendOpenFailure (left + 1) cause) n
        (if ok then [⟨.streamOpenError, 1, compactStreamError cause⟩]
          else []) [.node (.sendOpenFailure left cause)]

theorem handleFrame_step (n : Node) (frame : Frame) :
    NodeCodeStep n (.handleFrame frame) (n.handleFrame frame).1 [] (n.handleFrame frame).2 := by
  unfold Node.handleFrame
  split
  · rename_i ht
    split
    · rename_i hj
      exact .acknowledge ht hj
    · exact .dropped frame
  · rename_i ht
    split_ifs with hseq hbu
    · exact .badOpen _ ht hseq
    · exact .busy ht
    · simp only [Bool.or_eq_true, not_or, Bool.not_eq_true] at hbu
      obtain ⟨⟨hclo, hta⟩, hope⟩ := hbu
      have hta : n.table = none := Option.isNone_iff_eq_none.mp (Option.isSome_eq_false_iff.mp hta)
      exact .claim ht (not_not.mp hseq) hclo hta hope
  · rename_i hack hop
    split
    · rename_i j hj
      split_ifs with hstr
      · exact .enqueue (by simpa using hstr) hj
      · refine .observe ?_ hj
        cases ht : frame.type <;> simp_all [isOpenResultFrame]
    · split_ifs with hre
      · exact .staleReset hre
      · exact .dropped frame

theorem promoteOpening_step (n : Node) : NodeCodeStep n .promoteOpening n.promoteOpening [] [] := by
  unfold Node.promoteOpening
  split_ifs with hclo hope hta
  · exact .notPromoted (.inl hclo)
  · exact .unclaimed (by simpa using hope)
  · exact .notPromoted (.inr hta)
  · exact .promoted (by simpa using hope) (by simpa using hta) (by simpa using hclo)

theorem stepNode_step (n : Node) (code : NodeCode) (answer : Node.Answer) :
    NodeCodeStep n code (n.stepNode code answer).1 (n.stepNode code answer).2.1
      (n.stepNode code answer).2.2 := by
  cases code with
  | handleFrame frame => exact handleFrame_step n frame
  | sendACK frame => exact .sendACK frame answer.ok
  | acceptOpen frame => exact .acceptOpen frame answer.ok
  | startOpen =>
    simp only [Node.stepNode]
    split_ifs
    · exact .startClosed
    · exact .startOpen
  | handleOpen =>
    simp only [Node.stepNode]
    split_ifs
    · exact .handleClosed
    · exact .handleOpen
    · exact .noTarget _
  | dial =>
    cases answer with
    | choice ok => exact .dialed
    | failed err => exact .dialFailed _
  | promoteOpening => exact promoteOpening_step n
  | releaseOpening cause =>
    cases cause with
    | none => exact .released
    | some cause => exact .rejected cause
  | sendOpenFailure left cause =>
    cases left with
    | zero => exact .failureSent cause
    | succ left => exact .openFailure left cause answer.ok

/-- A step of the forwarder leaves the tasks and the frames, and adds at most a new flow object. -/
theorem NodeCodeStep.frame {n m : Node} {code : NodeCode} {out : List Frame} {tasks : List Task}
    (h : NodeCodeStep n code m out tasks) :
    m.tasks = n.tasks ∧ m.sent = n.sent ∧
      (m.flows = n.flows ∧ m.table = n.table ∨
        m.flows = n.flows ++ [(newTCPFlow false 1).markOpened] ∧ m.table = some n.flows.length ∧
          n.opening = true ∧ code = .promoteOpening) := by
  cases h with
  | promoted hope => exact ⟨rfl, rfl, .inr ⟨rfl, rfl, hope, rfl⟩⟩
  | _ => exact ⟨rfl, rfl, .inl ⟨rfl, rfl⟩⟩

/-- Flow objects are only added. -/
theorem NodeCodeStep.getElem?_flows {n m : Node} {code : NodeCode} {out : List Frame}
    {tasks : List Task} (h : NodeCodeStep n code m out tasks) {j : ℕ} {f : Flow}
    (hf : n.flows[j]? = some f) : m.flows[j]? = some f := by
  obtain ⟨-, -, ⟨hfl, -⟩ | ⟨hfl, -, -⟩⟩ := h.frame
  · rw [hfl, hf]
  · rw [hfl, List.getElem?_append_left (List.getElem?_eq_some_iff.mp hf).1, hf]

/-- The task `i` has been taken. -/
def Node.taken (n : Node) (i : ℕ) : Node := { n with tasks := n.tasks.eraseIdx i }

inductive NodeStep (n : Node) : Node.Action → Node → Prop
  | event {j : ℕ} {event : Event} {f f' : Flow} {out : List Frame} {codes : List Code}
      (hf : n.flows[j]? = some f)
      (hs : TaskStep n.closed f event f' out codes) : NodeStep n (.flow j event)
        (n.update j f' out codes)
  | code {i j : ℕ} {answer : Node.Answer} {code : Code} {f f' : Flow} {out : List Frame}
      {codes : List Code} (ht : n.tasks[i]? = some (.flow j code)) (hf : n.flows[j]? = some f)
      (hs : CodeStep n.closed f code f' out codes) :
      NodeStep n (.task i answer)
        ((if code = .removeFlow then (n.taken i).removeFlow j else n.taken i).update j f' out codes)
  | node {i : ℕ} {answer : Node.Answer} {code : NodeCode} {m : Node} {out : List Frame}
      {tasks : List Task}
      (ht : n.tasks[i]? = some (.node code)) (hs : NodeCodeStep (n.taken i) code m out tasks) :
      NodeStep n (.task i answer) { m with sent := m.sent ++ out, tasks := m.tasks ++ tasks }
  | close (h : n.closed = false) :
      NodeStep n .close
        { n with closed := true, tasks := n.tasks ++ n.table.toList.map fun j => .flow j .shutdown }

theorem step_nodeStep {n n' : Node} {action : Node.Action} (h : n.step action = some n') :
    NodeStep n action n' := by
  cases action with
  | task i answer =>
    simp only [Node.step, bind_eq_bind, bind_eq_some_iff] at h
    obtain ⟨task, ht, h⟩ := h
    cases task with
    | node code =>
      cases h
      exact .node ht (stepNode_step (n.taken i) code answer)
    | flow j code =>
      simp only [bind_eq_some_iff] at h
      obtain ⟨f, hf, ⟨f', out, codes⟩, hs, h⟩ := h
      cases h
      exact .code ht hf (stepCode_codeStep hs)
  | flow j event =>
    simp only [Node.step, bind_eq_bind, bind_eq_some_iff] at h
    obtain ⟨f, hf, ⟨f', out, codes⟩, hs, h⟩ := h
    cases h
    exact .event hf (stepEvent_taskStep hs)
  | close =>
    simp only [Node.step] at h
    split at h <;> cases h
    rename_i hclo
    exact .close (Bool.eq_false_iff.mpr hclo)

/-- What every step of a flow object does to it. -/
theorem NodeStep.flow {R : Flow → Flow → Prop} (hre : ∀ f, R f f)
    (hta : ∀ {closed f event f' out codes}, TaskStep closed f event f' out codes → R f f')
    (hco : ∀ {closed f code f' out codes}, CodeStep closed f code f' out codes → R f f')
    {n n' : Node} {action : Node.Action} (h : NodeStep n action n') {j : ℕ}
    (hf : n.flows[j]? = some f) :
    ∃ f', n'.flows[j]? = some f' ∧ R f f' := by
  have hset : ∀ {k : ℕ} {g g' : Flow} {l : List Flow}, n.flows[k]? = some g → R g g' → l = n.flows →
      ∃ f', (l.set k g')[j]? = some f' ∧ R f f' := by
    rintro k g g' l hg hr rfl
    rw [List.getElem?_set]
    split_ifs with hkj hlt
    · subst hkj
      cases hg.symm.trans hf
      exact ⟨g', rfl, hr⟩
    · exact absurd (List.getElem?_eq_some_iff.mp hf).1 (hkj ▸ hlt)
    · exact ⟨f, hf, hre f⟩
  cases h with
  | event hg hs => exact hset hg (hta hs) rfl
  | code ht hg hs =>
    refine hset hg (hco hs) ?_
    unfold Node.removeFlow
    split_ifs <;> rfl
  | node ht hs => exact ⟨f, hs.getElem?_flows hf, hre f⟩
  | close => exact ⟨f, hf, hre f⟩

/-! ## Worlds -/

namespace World

variable {w w' : World} {n : Node} {side : Side}

theorem node_set_or (w : World) (side side' : Side) (n : Node) :
    side' = side ∧ (w.set side n).node side' = n ∨ side' = side.peer ∧
      (w.set side n).node side' = w.node side' := by
  cases side <;> cases side'
  · exact .inl ⟨rfl, rfl⟩
  · exact .inr ⟨rfl, rfl⟩
  · exact .inr ⟨rfl, rfl⟩
  · exact .inl ⟨rfl, rfl⟩

/-- What holds of both forwarders and of the new state of one of them. -/
theorem set_all {P : Node → Prop} (hw : ∀ side, P (w.node side)) (hn : P n) (side' : Side) :
    ∀ side, P ((w.set side' n).node side) := by
  intro side
  cases side' <;> cases side
  · exact hn
  · exact hw .responder
  · exact hw .initiator
  · exact hn

/-- The task that handles a delivered frame. -/
def delivered (n : Node) (frame : Frame) : Node :=
  { n with tasks := n.tasks ++ [.node (.handleFrame frame)] }

theorem step_cases {action : World.Action} (h : w.step action = some w') :
    (∃ side k, ∃ frame ∈ (w.node side.peer).sent, action = .deliver side k ∧
      w' = w.set side (delivered (w.node side) frame)) ∨
    ∃ side a n, action = .act side a ∧ NodeStep (w.node side) a n ∧ w' = w.set side n := by
  cases action with
  | deliver side k =>
    simp only [World.step, bind_eq_bind, bind_eq_some_iff] at h
    obtain ⟨frame, hfr, h⟩ := h
    cases h
    exact .inl ⟨side, k, frame, mem_of_getElem? hfr, rfl, rfl⟩
  | act side a =>
    simp only [World.step, bind_eq_bind, bind_eq_some_iff] at h
    obtain ⟨n, hn, h⟩ := h
    cases h
    exact .inr ⟨side, a, n, rfl, step_nodeStep hn, rfl⟩

/-- **What a forwarder keeps** holds of both in a run. -/
theorem node_of_reachable {P : Node → Prop} {ok : World → World.Action → Prop}
    (h0 : ∀ side, P (World.start.node side)) (hdel : ∀ {n} frame, P n → P (delivered n frame))
    (hact : ∀ {w side a n}, Transition.Reachable World.step (· = World.start) ok w → P (w.node side) →
      ok w (.act side a) → NodeStep (w.node side) a n → P n)
    (h : Transition.Reachable World.step (· = World.start) ok w) (side : Side) : P (w.node side) := by
  refine h.invariant (P := fun w => ∀ side, P (w.node side)) ?_ ?_ side
  · rintro w rfl
    exact h0
  · intro w action w' hr hw hok hs
    rcases step_cases hs with ⟨side, k, frame, -, rfl, rfl⟩ | ⟨side, a, n, rfl, hn, rfl⟩
    · exact set_all hw (hdel frame (hw side)) side
    · exact set_all hw (hact hr (hw side) hok hn) side

theorem step_flow {R : Flow → Flow → Prop} (hre : ∀ f, R f f)
    (hta : ∀ {closed f event f' out codes}, TaskStep closed f event f' out codes → R f f')
    (hco : ∀ {closed f code f' out codes}, CodeStep closed f code f' out codes → R f f')
    {action : World.Action} (h : w.step action = some w') (side : Side) {j : ℕ}
    (hf : (w.node side).flows[j]? = some f) :
    ∃ f', (w'.node side).flows[j]? = some f' ∧ R f f' := by
  rcases step_cases h with ⟨side', k, frame, -, -, rfl⟩ | ⟨side', a, n, -, hn, rfl⟩
  · refine ⟨f, ?_, hre f⟩
    rcases w.node_set_or side' side (delivered (w.node side') frame) with ⟨rfl, heq⟩ |
      ⟨-, heq⟩ <;> rw [heq]
    · exact hf
    · exact hf
  · rcases w.node_set_or side' side n with ⟨rfl, heq⟩ | ⟨-, heq⟩ <;> rw [heq]
    · exact hn.flow hre hta hco hf
    · exact ⟨f, hf, hre f⟩

end World

/-- A list without one of its elements, counted. -/
theorem countP_eraseIdx_add {α : Type*} {p : α → Bool} {l : List α} {i : ℕ} {x : α}
    (h : l[i]? = some x) :
    (l.eraseIdx i).countP p + (if p x then 1 else 0) = l.countP p := by
  obtain ⟨hi, rfl⟩ := List.getElem?_eq_some_iff.mp h
  rw [← (getElem_cons_eraseIdx_perm hi).countP_eq p, countP_cons]

end Winkyou.Routed
