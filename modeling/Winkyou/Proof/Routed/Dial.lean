import Winkyou.Proof.Routed.Step

/-!
# How often the responder dials

`dials_at_most_once`: in a run in which no OPEN is handled after the responder has forgotten the
flow, it dials its target at most once, and makes at most one flow object. The entry in `opening` is
held by one task from `claimOpening` to the end of its `handleOpen` (`ClaimOK`), so two copies of an
OPEN never dial both.

The tables forget the flow when it ends: `target_dialed_again` is a run in which copies of OPEN,
DATA and an ACK that arrive late open a second connection to the target and write the client's bytes
to it again.
-/

namespace Winkyou.Routed

open List Winkyou.Routed.World Bool

variable {n n' : Node} {action : Node.Action}
  {i : ℕ}

/-- An OPEN is handled only while no flow object was made for the flow, while the tables still have
it, or when the forwarder is closed. -/
def Node.remembers (n : Node) : Node.Action → Bool
  | .task i _ =>
    match n.tasks[i]? with
    | some (.node (.handleFrame frame)) =>
      frame.type ≠ .streamOpen || n.flows.isEmpty || n.table.isSome || n.opening || n.closed
    | _ => true
  | _ => true

def World.remembers (w : World) : World.Action → Bool
  | .deliver _ _ => true
  | .act side action => (w.node side).remembers action

/-! ## The holder of the entry in `opening` -/

/-- The task is between `claimOpening` and the end of its claim. -/
def Task.claims : Task → Bool
  | .node (.acceptOpen _) | .node .startOpen | .node .handleOpen | .node .dial | .node .promoteOpening
  | .node (.releaseOpening _) => true
  | _ => false

def Task.promotes : Task → Bool
  | .node .promoteOpening => true
  | _ => false

/-- The entry in `opening` belongs to one task, and the key is not in both tables. -/
structure ClaimOK (n : Node) : Prop where
  owners : n.tasks.countP Task.claims = if n.opening then 1 else 0
  table : n.opening = true → n.table = none

theorem countP_flow_tasks {p : Task → Bool} (hp : ∀ j code, p (.flow j code) = false) (j : ℕ)
    (codes : List Code) :
    (codes.map (Task.flow j)).countP p = 0 := by
  rw [countP_eq_zero, forall_mem_map]
  simp [hp]

variable {task : Task}

theorem ClaimOK.holder (h : ClaimOK n) (ht : n.tasks[i]? = some task) (hcla : task.claims = true) :
    n.opening = true ∧ (n.taken i).tasks.countP Task.claims = 0 := by
  have h1 := countP_eraseIdx_add (p := Task.claims) ht
  have h2 := h.owners
  simp only [hcla, if_true] at h1
  cases ho : n.opening <;> simp only [ho, false_eq_true, if_true, if_false] at h2
  · omega
  · exact ⟨rfl, by simp only [Node.taken]; omega⟩

theorem ClaimOK.bystander (h : ClaimOK n) (ht : n.tasks[i]? = some task)
    (hcla : task.claims = false) :
    (n.taken i).tasks.countP Task.claims = if n.opening then 1 else 0 := by
  have h1 := countP_eraseIdx_add (p := Task.claims) ht
  simp only [hcla, false_eq_true, if_false, add_zero] at h1
  rw [← h.owners]
  exact h1

theorem nodeCodeStep_claimOK {code : NodeCode} {m : Node} {out : List Frame} {tasks : List Task}
    (h : ClaimOK n) (ht : n.tasks[i]? = some (.node code))
    (hs : NodeCodeStep (n.taken i) code m out tasks) :
    ClaimOK { m with sent := m.sent ++ out, tasks := m.tasks ++ tasks } := by
  -- a task without the claim is followed by tasks without it, the holder by the holder
  have hke : (Task.node code).claims = false → ∀ rest : List Task, rest.countP Task.claims = 0 →
      ClaimOK { n.taken i with sent := n.sent ++ out, tasks := (n.taken i).tasks ++ rest } :=
        fun hcla rest hre =>
    ⟨by rw [countP_append, hre, h.bystander ht hcla]; rfl, h.table⟩
  have hpro : (Task.node code).claims = true → ∀ (m : Node) (next : Task), next.claims = true →
      m.opening = n.opening → m.table = n.table → m.tasks = (n.taken i).tasks ++ [next] → ClaimOK m := by
    intro hcla m next hne hope hta htas
    obtain ⟨ho, hco⟩ := h.holder ht hcla
    refine ⟨?_, fun _ => hta.trans (h.table ho)⟩
    rw [htas, countP_append, hco, hope, ho]
    simp [hne]
  have hend : (Task.node code).claims = true →
    ∀ (m : Node) (rest : List Task), rest.countP Task.claims = 0 →
      m.opening = false → m.tasks = (n.taken i).tasks ++ rest → ClaimOK m := by
    intro hcla m rest hre hope htas
    refine ⟨?_, fun ho => ?_⟩
    · rw [htas, countP_append, (h.holder ht hcla).2, hre, hope]
      rfl
    · cases hope.symm.trans ho
  cases hs with
  | acknowledge | enqueue | observe | dropped | staleReset | badOpen | busy | sendACK | failureSent
      | openFailure =>
    exact hke rfl _ rfl
  | claim _ _ _ hta hope =>
    have hco := h.bystander ht rfl
    have hope : n.opening = false := hope
    simp only [hope, false_eq_true, if_false] at hco
    refine ⟨?_, fun _ => hta⟩
    rw [countP_append, hco]
    rfl
  | acceptOpen | startOpen | startClosed | handleClosed | noTarget | handleOpen | dialed | dialFailed =>
    exact hpro rfl _ _ rfl rfl rfl rfl
  | unclaimed hope =>
    have ho : (n.taken i).opening = true := (h.holder ht rfl).1
    cases hope.symm.trans ho
  | notPromoted | promoted | released => exact hend rfl _ [] rfl rfl rfl
  | rejected cause => exact hend rfl _ [.node (.sendOpenFailure 3 cause)] rfl rfl rfl

theorem delivered_claimOK (h : ClaimOK n) (frame : Frame) : ClaimOK (World.delivered n frame) := by
  refine ⟨?_, h.table⟩
  rw [delivered, countP_append, h.owners]
  rfl

/-- **The claim has one holder**, whatever a node does. -/
theorem nodeStep_claimOK (h : ClaimOK n) (hs : NodeStep n action n') : ClaimOK n' := by
  have hupd : ∀ {m : Node} (j : ℕ) (f : Flow) (out : List Frame) (codes : List Code), ClaimOK m →
      ClaimOK (m.update j f out codes) := by
    intro m j f out codes hm
    refine ⟨?_, hm.table⟩
    rw [Node.update, countP_append, countP_flow_tasks (fun _ _ => rfl), add_zero]
    exact hm.owners
  cases hs with
  | event => exact hupd _ _ _ _ h
  | code ht =>
    have hta : ClaimOK (n.taken _) := ⟨h.bystander ht rfl, h.table⟩
    refine hupd _ _ _ _ ?_
    unfold Node.removeFlow
    split_ifs
    · exact ⟨hta.owners, fun _ => rfl⟩
    · exact hta
    · exact hta
  | node ht hs => exact nodeCodeStep_claimOK h ht hs
  | close =>
    refine ⟨?_, h.table⟩
    rw [countP_append, h.owners]
    cases n.table <;> simp [Task.claims]

/-! ## The dials -/

structure DialOK (n : Node) : Prop where
  claimed : n.opening = true → n.flows = [] ∧ n.dials = n.tasks.countP Task.promotes
  free : n.opening = false → n.dials ≤ 1 ∧ (n.dials = 0 ∨ n.flows ≠ [] ∨ n.closed = true)
  single : n.flows.length ≤ 1

theorem DialOK.congr (h : DialOK n) (hope : n'.opening = n.opening) (hdi : n'.dials = n.dials)
    (hfl : n'.flows.length = n.flows.length) (hclo : n'.closed = n.closed ∨ n'.closed = true)
    (hpro : n'.tasks.countP Task.promotes = n.tasks.countP Task.promotes) : DialOK n' := by
  have hnil : n'.flows = [] ↔ n.flows = [] := by
    rw [← length_eq_zero_iff, hfl, length_eq_zero_iff]
  constructor
  · intro ho
    obtain ⟨hf, hd⟩ := h.claimed (hope ▸ ho)
    exact ⟨hnil.mpr hf, by rw [hdi, hd, hpro]⟩
  · intro ho
    obtain ⟨hd, hwhy⟩ := h.free (hope ▸ ho)
    refine ⟨hdi ▸ hd, ?_⟩
    rcases hwhy with h0 | hf | hc
    · exact .inl (hdi ▸ h0)
    · exact .inr (.inl fun h => hf (hnil.mp h))
    · rcases hclo with hclo | hclo
      · exact .inr (.inr (hclo ▸ hc))
      · exact .inr (.inr hclo)
  · exact hfl ▸ h.single

theorem promotes_le_claims (l : List Task) : l.countP Task.promotes ≤ l.countP Task.claims := by
  refine countP_mono_left fun t _ ht => ?_
  cases t with
  | flow j code => cases ht
  | node code => cases code <;> first | rfl | cases ht

theorem countP_promotes_taken (ht : n.tasks[i]? = some task) (hp : task.promotes = false)
    (rest : List Task) (hre : rest.countP Task.promotes = 0) :
    ((n.taken i).tasks ++ rest).countP Task.promotes = n.tasks.countP Task.promotes := by
  have h1 := countP_eraseIdx_add (p := Task.promotes) ht
  simp only [hp, false_eq_true, if_false, add_zero] at h1
  rw [countP_append, hre, add_zero]
  exact h1

/-- **Only the holder of the claim dials**, and it dials once. -/
theorem nodeCodeStep_dialOK {code : NodeCode} {answer : Node.Answer} {m : Node} {out : List Frame}
    {tasks : List Task} (hc : ClaimOK n) (h : DialOK n) (ht : n.tasks[i]? = some (.node code))
    (hs : NodeCodeStep (n.taken i) code m out tasks) (hok : n.remembers (.task i answer) = true) :
    DialOK { m with sent := m.sent ++ out, tasks := m.tasks ++ tasks } := by
  have hke : (Task.node code).promotes = false → ∀ rest : List Task, rest.countP Task.promotes = 0 →
      DialOK { n.taken i with sent := n.sent ++ out, tasks := (n.taken i).tasks ++ rest } :=
        fun hp rest hre =>
    h.congr rfl rfl rfl (.inl rfl) (countP_promotes_taken ht hp rest hre)
  -- the claim ends: nothing was dialed, or there is a flow object, or the forwarder is closed
  have hend : ∀ m : Node, m.opening = false → m.dials ≤ 1 → (m.dials = 0 ∨ m.flows ≠ [] ∨
    m.closed = true) →
      m.flows.length ≤ 1 → DialOK m := by
    intro m hope hd hwhy hsin
    refine ⟨fun ho => ?_, fun _ => ⟨hd, hwhy⟩, hsin⟩
    cases hope.symm.trans ho
  -- the holder of the claim is the only task that can have dialed
  have hdi : (Task.node code).claims = true → n.dials = if (Task.node code).promotes then 1 else 0 := by
    intro hcla
    obtain ⟨ho, hco⟩ := hc.holder ht hcla
    have h1 := countP_eraseIdx_add (p := Task.promotes) ht
    have h2 := promotes_le_claims (n.taken i).tasks
    rw [(h.claimed ho).2, ← h1]
    rw [hco] at h2
    simp only [Node.taken] at h2
    omega
  cases hs with
  | acknowledge | enqueue | observe | dropped | staleReset | badOpen | busy | sendACK | failureSent
      | openFailure
  | acceptOpen | startOpen | startClosed | handleClosed | noTarget | handleOpen | dialFailed =>
    exact hke rfl _ rfl
  | claim hty hseq hclo hta hope =>
    have hta : n.table = none := hta
    have hope : n.opening = false := hope
    have hcl : n.closed = false := hclo
    have hfl : n.flows = [] := by simpa [Node.remembers, ht, hty, hta, hope, hcl] using hok
    have hd0 : n.dials = 0 := by
      rcases (h.free hope).2 with hd | hf | hcl
      · exact hd
      · exact absurd hfl hf
      · exact absurd (hclo.symm.trans hcl) nofun
    have hco := hc.bystander ht rfl
    have hpro := promotes_le_claims (n.taken i).tasks
    simp only [hope, false_eq_true, if_false] at hco
    refine ⟨fun _ => ⟨hfl, ?_⟩, nofun, h.single⟩
    show n.dials = _
    rw [hd0, countP_append]
    simp only [countP_cons, countP_nil, Task.promotes, false_eq_true, if_false, add_zero]
    omega
  | dialed =>
    obtain ⟨ho, hco⟩ := hc.holder ht rfl
    have hpro := promotes_le_claims (n.taken i).tasks
    refine ⟨fun _ => ⟨(h.claimed ho).1, ?_⟩, fun hfr => ?_, h.single⟩
    · show n.dials + 1 = _
      rw [hdi rfl, countP_append]
      simp only [countP_cons, countP_nil, Task.promotes, false_eq_true, if_false, if_true]
      omega
    · exact absurd (ho.symm.trans hfr) nofun
  | unclaimed hope =>
    have ho : (n.taken i).opening = true := (hc.holder ht rfl).1
    cases hope.symm.trans ho
  | notPromoted hwhy =>
    have hta : (n.taken i).table = none := hc.table (hc.holder ht rfl).1
    refine hend _ rfl (hdi rfl).le (.inr (.inr ?_)) h.single
    rcases hwhy with hclo | hso
    · exact hclo
    · rw [hta] at hso
      cases hso
  | promoted =>
    have hfl : (n.taken i).flows = [] := (h.claimed (hc.holder ht rfl).1).1
    exact hend _ rfl (hdi rfl).le (.inr (.inl (by simp))) (by simp [hfl])
  | released | rejected =>
    have hd0 : n.dials = 0 := hdi rfl
    exact hend _ rfl (hd0.trans_le (Nat.zero_le 1)) (.inl hd0) h.single

theorem delivered_dialOK (h : DialOK n) (frame : Frame) : DialOK (World.delivered n frame) :=
  h.congr rfl rfl rfl (.inl rfl) (by simp [delivered, Task.promotes])

theorem nodeStep_dialOK (hc : ClaimOK n) (h : DialOK n) (hs : NodeStep n action n')
    (hok : n.remembers action = true) :
    DialOK n' := by
  have hfl : ∀ (j : ℕ) (codes : List Code), (codes.map (Task.flow j)).countP Task.promotes = 0 :=
    countP_flow_tasks fun _ _ => rfl
  cases hs with
  | event =>
    refine h.congr rfl rfl (length_set ..) (.inl rfl) ?_
    rw [Node.update, countP_append, hfl, add_zero]
  | @code i j _ _ _ _ _ codes ht =>
    have hco := countP_promotes_taken ht rfl _ (hfl j codes)
    unfold Node.removeFlow
    split_ifs <;> exact h.congr rfl rfl (length_set ..) (.inl rfl) hco
  | node ht hs => exact nodeCodeStep_dialOK hc h ht hs hok
  | close =>
    refine h.congr rfl rfl rfl (.inr rfl) ?_
    cases n.table <;> simp [Task.promotes]

/-! ## Runs -/

theorem claimOK_of_reachable {w : World} {ok : World → World.Action → Prop}
    (h : Transition.Reachable World.step (· = World.start) ok w) (side : Side) :
    ClaimOK (w.node side) := by
  refine node_of_reachable (P := ClaimOK) (fun side => ?_) (fun frame hn =>
    delivered_claimOK hn frame) (fun _ hn _ hs => nodeStep_claimOK hn hs) h side
  cases side <;> exact ⟨rfl, nofun⟩

theorem dialOK_of_reachable {w : World}
    (h : Transition.Reachable World.step (· = World.start) (fun w a => w.remembers a = true) w)
    (side : Side) :
    DialOK (w.node side) := by
  refine node_of_reachable (P := DialOK) (fun side => ?_) (fun frame hn => delivered_dialOK hn frame)
    (fun hr hn hok hs => nodeStep_dialOK (claimOK_of_reachable hr _) hn hs hok) h side
  cases side with
  | initiator => exact ⟨nofun, fun _ => ⟨Nat.zero_le _, .inl rfl⟩, le_rfl⟩
  | responder => exact ⟨nofun, fun _ => ⟨Nat.zero_le _, .inl rfl⟩, Nat.zero_le _⟩

/-- **At most one dial.** In every run in which each OPEN is handled before a flow object was made
for the flow, or while the responder's tables still have it, or by a closed forwarder, the
responder's dials succeed at most once and it makes at most one flow object: the bytes of the
accepted connection go to at most one target connection. -/
theorem dials_at_most_once {w : World}
    (h : Transition.Reachable World.step (· = World.start) (fun w a => w.remembers a = true) w) :
    w.responder.dials ≤ 1 ∧ w.responder.flows.length ≤ 1 := by
  have hclaim : ClaimOK w.responder := claimOK_of_reachable h .responder
  have hok : DialOK w.responder := dialOK_of_reachable h .responder
  refine ⟨?_, hok.single⟩
  cases ho : w.responder.opening with
  | true =>
    have howners : w.responder.tasks.countP Task.claims = 1 := by rw [hclaim.owners, if_pos ho]
    rw [(hok.claimed ho).2]
    exact howners ▸ promotes_le_claims _
  | false => exact (hok.free ho).1

/-! ### Runs -/

/-- The one task of a forwarder makes so many steps. -/
def tasksOf (side : Side) (count : ℕ) : List World.Action :=
  List.replicate count (.act side (.task 0 (.choice true)))

def eventsOf (side : Side) (j : ℕ) (events : List Flow.Event) : List World.Action :=
  events.map fun event => .act side (.flow j event)

/-- A task of the flow calls `send`, which transmits once. -/
def sendOf (side : Side) (j : ℕ) (caller : Flow.Event) : List World.Action :=
  eventsOf side j [caller, .send .check, .send (.transmit true)]

/-- A frame is delivered, and its handler runs to its end. -/
def deliverTo (side : Side) (k count : ℕ) : List World.Action :=
  .deliver side k :: tasksOf side count

/-- The ACK with this number is delivered, and the waiting `send` returns. -/
def ackTo (side : Side) (j k : ℕ) : List World.Action :=
  deliverTo side k 2 ++ eventsOf side j [.send .check]

/-- The responder accepts OPEN, dials and sends OPEN_OK. -/
def acceptRun (j : ℕ) : List World.Action :=
  deliverTo .responder 0 6 ++ sendOf .responder j (.opener .lock)

/-- OPEN and OPEN_OK are exchanged and acknowledged; both flows have started. -/
def openRun : List World.Action :=
  sendOf .initiator 0 (.opener .lock) ++ acceptRun 0 ++ ackTo .initiator 0 0 ++
    deliverTo .initiator 1 5 ++
    eventsOf .initiator 0 [.opener .result, .opener .start, .opener .start] ++ ackTo .responder 0 1 ++
    eventsOf .responder 0 [.opener .start, .opener .start]

/-- The initiator reads one byte; it is delivered, acknowledged and written. -/
def byteRun : List World.Action :=
  eventsOf .initiator 0 [.reader (.read [97] .more)] ++ sendOf .initiator 0 (.reader .lock) ++
    deliverTo .responder 2 3 ++ ackTo .initiator 0 2 ++ eventsOf .responder 0 [.writer .take,
      .writer (.wrote 1)]

/-- The initiator sends its FIN. -/
def initiatorFINRun : List World.Action :=
  eventsOf .initiator 0 [.reader (.read [] .eof)] ++ sendOf .initiator 0 (.reader .lock) ++
    deliverTo .responder 3 3 ++ ackTo .initiator 0 3 ++ eventsOf .initiator 0 [.reader .step] ++
    eventsOf .responder 0 [.writer .take, .writer .closedWrite, .writer .step]

/-- The responder sends its FIN; both flows end. -/
def responderFINRun : List World.Action :=
  eventsOf .responder 0 [.reader (.read [] .eof)] ++ sendOf .responder 0 (.reader .lock) ++
    deliverTo .initiator 4 3 ++
    eventsOf .initiator 0 [.writer .take, .writer .closedWrite, .writer .step] ++ tasksOf .initiator 4 ++
    ackTo .responder 0 4 ++ eventsOf .responder 0 [.reader .step] ++ tasksOf .responder 4

/-- Copies of OPEN, of the ACK of OPEN_OK and of DATA arrive after the end. -/
def replayRun : List World.Action :=
  acceptRun 1 ++ ackTo .responder 1 1 ++ eventsOf .responder 1 [.opener .start, .opener .start] ++
    deliverTo .responder 2 3 ++ eventsOf .responder 1 [.writer .take, .writer (.wrote 1)]

theorem run_reachable (ok : World → World.Action → Bool) (acts : List World.Action)
    (p : World → Bool)
    (h : (Transition.runFrom World.step (fun w a => ok w a = true) World.start acts).any p = true) :
    ∃ w, Transition.Reachable World.step (· = World.start) (fun w a => ok w a = true) w ∧ p w = true :=
  Transition.Reachable.exists_of_run (by rfl) acts p h

/-- A flow that is opened, carries a byte and ends, with one dial. -/
theorem dials_once_sample :
    ∃ w : World, w.responder.dials = 1 ∧ w.responder.dials ≤ 1 ∧ w.responder.flows.length ≤ 1 := by
  obtain ⟨w, hw, hp⟩ := run_reachable remembers
    (openRun ++ byteRun ++ initiatorFINRun ++ responderFINRun) (fun w => w.responder.dials =
      1) (by decide +kernel)
  exact ⟨w, of_decide_eq_true hp, dials_at_most_once hw⟩

/-- The responder has dialed twice, and the byte of the one accepted connection was written to both
targets. -/
theorem target_dialed_again :
    ∃ w : World, Transition.Reachable World.step (· = World.start) (fun _ _ => True) w ∧
      w.responder.dials = 2 ∧
      w.initiator.flows.map (·.source) = [[97]] ∧ w.responder.flows.map (·.written) = [[97], [97]] ∧
      w.responder.flows.map (·.done) = [true, false] := by
  obtain ⟨w, hw, hp⟩ := run_reachable (fun _ _ => true)
    (openRun ++ byteRun ++ initiatorFINRun ++ responderFINRun ++ replayRun)
    (fun w => w.responder.dials = 2 ∧ w.initiator.flows.map (·.source) = [[97]] ∧
      w.responder.flows.map (·.written) = [[97], [97]] ∧ w.responder.flows.map (·.done) = [true, false])
    (by decide +kernel)
  exact ⟨w, hw.mono fun _ _ _ => trivial, of_decide_eq_true hp⟩

end Winkyou.Routed
