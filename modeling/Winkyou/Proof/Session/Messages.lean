import Mathlib.Tactic
import Winkyou.Lib.Transition
import Winkyou.Proof.Text
import Winkyou.Spec.Session.Messages

/-!
# What becomes of a strategy message

`handed_iff_not_endangered`: a message for a plan that arrives before the removal of its executor,
and after the last discard of all messages, is handed to an executor of that plan exactly when it
was not endangered as it arrived.

* A flush keeps what is not for the active plan itself (`flush_retained`), so a message of the same
  family that waits is handed to every plan of the family. The router hands such a message to the
  active executor and keeps nothing.
* `ShapeOK` says where the executor, the waiting messages and the history stand at each point of
  `executePlan`; `ArrivalOK` follows one arrival: until the removal of its plan's executor it is
  handed, about to be handed, or waits.
-/

namespace Winkyou.Session

open List
open State (flushEntry step)

variable {header : HeaderDecoder} {msg : Message} {id active : String}

/-! ## Plan ids -/

theorem strategyMessagePlanID_trimmed (h : strategyMessagePlanID header msg = some id) :
    trimSpace id = id ∧ id ≠ "" := by
  unfold strategyMessagePlanID at h
  split at h
  · cases h
  cases hd : header msg.payload with
  | none => simp [hd] at h
  | some text =>
    simp only [hd, Option.ite_none_left_eq_some, Option.some.injEq] at h
    obtain ⟨hne, rfl⟩ := h
    exact ⟨trimSpace_idem text, hne⟩

theorem strategyPlanIDsMatch_self (hact : trimSpace active ≠ "") :
    strategyPlanIDsMatch (trimSpace active) active := by
  simp [strategyPlanIDsMatch, trimSpace_idem, hact]

theorem shouldBufferForFuturePlan_iff :
    shouldBufferForFuturePlan header msg active ↔
      trimSpace active ≠ "" ∧ ∃ id, strategyMessagePlanID header msg = some id ∧
        strategyPlanIDsMatch id active = false := by
  unfold shouldBufferForFuturePlan
  cases strategyMessagePlanID header msg <;> simp

theorem shouldRetainForLaterPlanAfterDelivery_iff :
    shouldRetainForLaterPlanAfterDelivery header msg active ↔
      trimSpace active ≠ "" ∧ ∃ id, strategyMessagePlanID header msg = some id ∧
        id ≠ trimSpace active ∧ strategyPlanIDsMatch id active := by
  unfold shouldRetainForLaterPlanAfterDelivery
  cases hid : strategyMessagePlanID header msg with
  | none => simp
  | some id => simp [(strategyMessagePlanID_trimmed hid).1]

def kept (header : HeaderDecoder) (active : String) (msg : Message) : Bool :=
  shouldBufferForFuturePlan header msg active || shouldRetainForLaterPlanAfterDelivery header msg active

/-- **A flush keeps the messages of the other plans**, those of its own family included. -/
theorem kept_iff :
    kept header active msg ↔
      trimSpace active ≠ "" ∧ ∃ id, strategyMessagePlanID header msg = some id ∧
        id ≠ trimSpace active := by
  rw [kept, Bool.or_eq_true, shouldBufferForFuturePlan_iff, shouldRetainForLaterPlanAfterDelivery_iff]
  constructor
  · rintro (⟨hact, id, hid, hma⟩ | ⟨hact, id, hid, hne, -⟩)
    · refine ⟨hact, id, hid, ?_⟩
      rintro rfl
      rw [strategyPlanIDsMatch_self hact] at hma
      cases hma
    · exact ⟨hact, id, hid, hne⟩
  · rintro ⟨hact, id, hid, hne⟩
    cases hma : strategyPlanIDsMatch id active with
    | false => exact .inl ⟨hact, id, hid, hma⟩
    | true => exact .inr ⟨hact, id, hid, hne, hma⟩

/-! ## A flush section -/

section Flush

variable {entries : List Entry} {acc : List Entry × List Entry × List Bytes} {e : Entry}

theorem flush_retained :
    (entries.foldl (State.flushEntry header active) acc).2.1 =
      acc.2.1 ++ entries.filter fun e => kept header active e.2 := by
  induction entries generalizing acc with
  | nil => simp
  | cons e entries ih =>
    rw [foldl_cons, ih]
    obtain ⟨deliver, retained, keys⟩ := acc
    simp only [flushEntry, filter_cons, kept]
    split_ifs <;> simp_all

/-- A flush delivers entries that waited, and all that it does not keep. -/
theorem flush_deliver :
    ∃ l, (entries.foldl (State.flushEntry header active) acc).1 = acc.1 ++ l ∧ l ⊆ entries ∧
    ∀ e ∈ entries, kept header active e.2 = false → e ∈ l := by
  induction entries generalizing acc with
  | nil => exact ⟨[], by simp⟩
  | cons e entries ih =>
    obtain ⟨l, hl, hsub, hall⟩ := @ih (State.flushEntry header active acc e)
    rw [foldl_cons, hl]
    simp only [flushEntry, forall_mem_cons, kept]
    split_ifs with hbuf hret
    iterate 2
      · exact ⟨l, rfl, subset_cons_of_subset e hsub, by simp [*], hall⟩
    iterate 2
      · exact ⟨e :: l, by simp, cons_subset_cons e hsub, by simp,
          fun e' he' hk => mem_cons_of_mem e (hall e' he' hk)⟩

end Flush

/-! ## The invariants -/

namespace Point

/-- An executor is installed. -/
def serving : Point → Bool
  | .idle | .cleared => false
  | .flush _ | .deliver _ _ | .executing => true

/-- What the flush section has taken and not handed over. -/
def todo : Point → List Entry
  | .deliver todo _ => todo
  | _ => []

/-- A flush section has run and no message has been taken back. -/
def flushed : Point → Bool
  | .deliver _ _ | .executing => true
  | _ => false

end Point

namespace State

/-- The plan of the executor `j` has this id. -/
def Serves (s : State) (id : String) (j : ℕ) : Prop :=
  ∃ plan, s.plans[j]? = some plan ∧ trimSpace plan = id

/-- The plan that is executed, up to the discard that ends it. -/
def current (s : State) : Option String :=
  match s.point with
  | .idle => none
  | .cleared => s.plans[s.removed - 1]?
  | _ => some s.activePlan

end State

open State
open Point (serving todo)

/-- Where the parts of the state stand at each point. -/
structure ShapeOK (header : HeaderDecoder) (s : State) : Prop where
  executor : s.executor = if s.point.serving then some s.removed else none
  active : s.point.serving → s.plans[s.removed]? = some s.activePlan
  since_length : s.since.length = s.removed + if s.point.serving then 1 else 0
  since_last : s.point.serving → s.since[s.removed]? = some s.dropped
  waiting : ∀ e ∈ s.pending ++ s.point.todo, ∃ a, s.arrivals[e.1]? = some a ∧ a.message = e.2
  handed : ∀ c ∈ s.handed ++ s.calls, c.1 ≤ s.removed ∧ c.2 < s.arrivals.length
  flushed : s.point.flushed → ∀ e ∈ s.pending, strategyMessagePlanID header e.2 ≠
    some (trimSpace s.activePlan)

/-- What has become of the arrival `n`, for the plans with its id. -/
structure ArrivalOK (s : State) (n : ℕ) (a : Arrival) (id : String) : Prop where
  owed : a.endangered = false → s.dropped ≤ n →
    (∃ j, s.Serves id j ∧ s.Handed j n) ∨ (n ∈ s.point.todo.map Prod.fst ∧ s.Serves id s.removed) ∨
      n ∈ s.pending.map Prod.fst ∨ ∃ plan, s.current = some plan ∧ trimSpace plan = ""
  cleared : a.endangered = false → s.dropped ≤ n → s.point = .cleared →
    s.Serves id (s.removed - 1) → ∃ j, s.Serves id j ∧ s.Handed j n
  settled : a.endangered = false → ∀ k, a.removed ≤ k → k < s.removed → s.Serves id k →
    (∃ d, s.since[k]? = some d ∧ d ≤ n) → ∃ j ≤ k, s.Serves id j ∧ s.Handed j n
  lost : a.endangered = true → (∀ j, s.Serves id j → ¬ s.Handed j n) ∧ n ∉ s.point.todo.map Prod.fst ∧
    (n ∈ s.pending.map Prod.fst → s.point = .cleared ∧ s.Serves id (s.removed - 1))

structure MessagesOK (header : HeaderDecoder) (s : State) : Prop where
  shape : ShapeOK header s
  each : ∀ n a id, s.arrivals[n]? = some a → strategyMessagePlanID header a.message = some id →
    ArrivalOK s n a id

/-! ## Arrivals and calls -/

section Steps

variable {s s' : State} {n : ℕ} {a : Arrival}

/-- Which plan an executor serves depends on the plans alone. -/
theorem Serves_congr (hpl : s'.plans = s.plans) {j : ℕ} : s'.Serves id j ↔ s.Serves id j := by
  rw [State.Serves, State.Serves, hpl]

theorem ArrivalOK.congr (h : ArrivalOK s n a id) (hpl : s'.plans = s.plans)
    (hrem : s'.removed = s.removed) (hsi : s'.since = s.since) (hdro : s'.dropped = s.dropped)
    (hcur : s'.current = s.current) (hcle : s'.point = .cleared ↔ s.point = .cleared)
    (hto : s'.point.todo = s.point.todo)
    (hpen : n ∈ s'.pending.map Prod.fst ↔ n ∈ s.pending.map Prod.fst)
    (hhan : ∀ j, s'.Handed j n ↔ s.Handed j n) : ArrivalOK s' n a id := by
  constructor
  · simpa only [hdro, hcur, hto, hrem, hpen, hhan, Serves_congr hpl] using h.owed
  · simpa only [hdro, hcle, hrem, hhan, Serves_congr hpl] using h.cleared
  · simpa only [hrem, hsi, hhan, Serves_congr hpl] using h.settled
  · simpa only [hto, hcle, hrem, hpen, hhan, Serves_congr hpl] using h.lost

theorem arrive_cases (hsh : ShapeOK header s) (msg : Message) :
    (s.point.serving ∧ shouldBufferForFuturePlan header msg s.activePlan = false ∧
      s.arrive header msg = { s with
        arrivals := s.arrivals ++ [⟨msg, s.removed, s.endangers header msg⟩]
        calls := s.calls ++ [(s.removed, s.arrivals.length)] }) ∨
    ((s.point.serving → shouldBufferForFuturePlan header msg s.activePlan) ∧
      s.arrive header msg = { s with
        arrivals := s.arrivals ++ [⟨msg, s.removed, s.endangers header msg⟩]
        pending := s.pending ++ [(s.arrivals.length, msg)] }) := by
  have hexec := hsh.executor
  cases hser : s.point.serving with
  | false =>
    simp only [hser] at hexec
    simp [arrive, hexec]
  | true =>
    simp only [hser, if_true] at hexec
    cases hbuf : shouldBufferForFuturePlan header msg s.activePlan <;> simp [arrive, hexec, hbuf]

/-- An arrival keeps the shape of the state. -/
theorem arrive_shape (h : ShapeOK header s) : ShapeOK header (s.arrive header msg) := by
  have hke : ∀ e : Entry, (∃ a, s.arrivals[e.1]? = some a ∧ a.message = e.2) →
      ∃ a, (s.arrivals ++ [⟨msg, s.removed, s.endangers header msg⟩])[e.1]? = some a ∧
        a.message = e.2 := by
    rintro e ⟨a, ha, hm⟩
    have hlt := (List.getElem?_eq_some_iff.mp ha).1
    exact ⟨a, by rw [List.getElem?_append_left hlt, ha], hm⟩
  rcases arrive_cases h msg with ⟨hser, hbuf, heq⟩ | ⟨hbuf, heq⟩
  · rw [heq]
    refine { h with waiting := fun e he => hke e (h.waiting e he), handed := fun c hc => ?_ }
    simp only [length_append, length_singleton]
    rw [← append_assoc, mem_append, mem_singleton] at hc
    rcases hc with hc | rfl
    · exact ⟨(h.handed c hc).1, Nat.lt_succ_of_lt (h.handed c hc).2⟩
    · exact ⟨le_rfl, Nat.lt_succ_self _⟩
  · rw [heq]
    refine { h with waiting := fun e he => ?_, handed := fun c hc => ?_, flushed := fun hf e he => ?_ }
    · rw [mem_append, mem_append, mem_singleton] at he
      rcases he with (he | rfl) | he
      · exact hke e (h.waiting e (mem_append_left _ he))
      · exact ⟨_, getElem?_concat_length, rfl⟩
      · exact hke e (h.waiting e (mem_append_right _ he))
    · simp only [length_append, length_singleton]
      exact ⟨(h.handed c hc).1, Nat.lt_succ_of_lt (h.handed c hc).2⟩
    · rw [mem_append, mem_singleton] at he
      rcases he with he | rfl
      · exact h.flushed hf e he
      intro hid
      -- what the router buffers is for no plan of the family
      have hser : s.point.serving := by
        cases hp : s.point <;> simp_all [serving, Point.flushed]
      have hkept := kept_iff.mp (show kept header s.activePlan msg by simp [kept, hbuf hser])
      obtain ⟨-, id, hid', hne⟩ := hkept
      rw [hid] at hid'
      exact hne (Option.some.inj hid').symm

theorem endangers_serving (hser : s.point.serving)
    (hid : strategyMessagePlanID header msg = some id) :
    s.endangers header msg = (strategyPlanIDsMatch id s.activePlan && id ≠ trimSpace s.activePlan) := by
  cases hp : s.point <;> simp_all [endangers, serving]

theorem current_serving (hser : s.point.serving) : s.current = some s.activePlan := by
  cases hp : s.point <;> simp_all [current, serving]

theorem waiting_lt (hsh : ShapeOK header s) (hn : n ∈ (s.pending ++ s.point.todo).map Prod.fst) :
    n < s.arrivals.length := by
  obtain ⟨e, he, rfl⟩ := mem_map.mp hn
  obtain ⟨a, ha, -⟩ := hsh.waiting e he
  exact (List.getElem?_eq_some_iff.mp ha).1

theorem Handed_lt (hsh : ShapeOK header s) {j : ℕ} (h : s.Handed j n) :
    j ≤ s.removed ∧ n < s.arrivals.length :=
  hsh.handed (j, n) (mem_append.mpr h)

/-- **A new arrival**: to be handed over, waiting, or endangered. -/
theorem arrive_new (h : ShapeOK header s) (hid : strategyMessagePlanID header msg = some id) :
    ArrivalOK (s.arrive header msg) s.arrivals.length ⟨msg, s.removed, s.endangers header msg⟩ id := by
  obtain ⟨-, hid0⟩ := strategyMessagePlanID_trimmed hid
  have hfr : ∀ j, ¬ s.Handed j s.arrivals.length := fun j hj => lt_irrefl _ (Handed_lt h hj).2
  have hnew : s.arrivals.length ∉ (s.pending ++ s.point.todo).map Prod.fst :=
    fun hn => lt_irrefl _ (waiting_lt h hn)
  rw [map_append, mem_append, not_or] at hnew
  have hcle : s.point = .cleared → s.Serves id (s.removed - 1) → s.endangers header msg = true := by
    rintro hp ⟨plan, hpl, htr⟩
    simp [endangers, hid, hp, hpl, htr]
  rcases arrive_cases h msg with ⟨hser, hbuf, heq⟩ | ⟨hbuf, heq⟩
  · rw [heq]
    have hend := endangers_serving hser hid
    have hact := h.active hser
    constructor
    · intro hsa _
      by_cases hbl : trimSpace s.activePlan = ""
      · exact .inr (.inr (.inr ⟨_, current_serving hser, hbl⟩))
      -- the router han over what is for the family; what is not endangered is for the plan itself
      have hma : strategyPlanIDsMatch id s.activePlan := by
        by_contra hma
        rw [shouldBufferForFuturePlan_iff.mpr ⟨hbl, id, hid, Bool.eq_false_iff.mpr hma⟩] at hbuf
        cases hbuf
      have hse : id = trimSpace s.activePlan := by simpa [hend, hma] using hsa
      exact .inl ⟨s.removed, ⟨_, hact, hse.symm⟩, .inr mem_concat_self⟩
    · intro _ _ hp
      cases hp ▸ hser
    · intro _ k hle hlt
      exact absurd hle hlt.not_ge
    · intro hlo
      refine ⟨?_, hnew.2, fun hn => absurd hn hnew.1⟩
      have hot : id ≠ trimSpace s.activePlan := by
        have hlo : s.endangers header msg = true := hlo
        rw [hend, Bool.and_eq_true, decide_eq_true_eq] at hlo
        exact hlo.2
      rintro j ⟨plan, hpl, htr⟩ (hj | hj)
      · exact hfr j (.inl hj)
      · rcases mem_append.mp hj with hj | hj
        · exact hfr j (.inr hj)
        · cases (Prod.mk.inj (mem_singleton.mp hj)).1
          cases hact.symm.trans hpl
          exact hot htr.symm
  · rw [heq]
    have hwa : s.arrivals.length ∈ (s.pending ++ [(s.arrivals.length, msg)]).map Prod.fst := by simp
    constructor
    · exact fun _ _ => .inr (.inr (.inl hwa))
    · intro hsa _ hp hserv
      rw [hcle hp hserv] at hsa
      cases hsa
    · intro _ k hle hlt
      exact absurd hle hlt.not_ge
    · intro hlo
      refine ⟨fun j _ => hfr j, hnew.2, fun _ => ?_⟩
      have hlo : s.endangers header msg = true := hlo
      cases hser : s.point.serving with
      | true =>
        obtain ⟨-, id', hid', hma⟩ := shouldBufferForFuturePlan_iff.mp (hbuf hser)
        cases hid.symm.trans hid'
        simp [endangers_serving hser hid, hma] at hlo
      | false =>
        cases hp : s.point with
        | idle => simp [endangers, hid, hp] at hlo
        | cleared =>
          cases hpl : s.plans[s.removed - 1]? with
          | none => simp [endangers, hid, hp, hpl] at hlo
          | some plan => exact ⟨rfl, plan, hpl, by simpa [endangers, hid, hp, hpl] using hlo⟩
        | flush | deliver | executing => simp [hp, serving] at hser

theorem arrive_old (h : ShapeOK header s) (ha : s.arrivals[n]? = some a) (hn : ArrivalOK s n a id) :
    ArrivalOK (s.arrive header msg) n a id := by
  have hlt : n ≠ s.arrivals.length := (List.getElem?_eq_some_iff.mp ha).1.ne
  rcases arrive_cases h msg with ⟨-, -, heq⟩ | ⟨-, heq⟩
  · rw [heq]
    refine hn.congr rfl rfl rfl rfl rfl Iff.rfl rfl Iff.rfl fun j => ?_
    simp [State.Handed, hlt]
  · rw [heq]
    refine hn.congr rfl rfl rfl rfl rfl Iff.rfl rfl ?_ fun j => Iff.rfl
    simp [hlt]

theorem arrive_ok (h : MessagesOK header s) : MessagesOK header (s.arrive header msg) := by
  have harr : (s.arrive header msg).arrivals = s.arrivals ++ [⟨msg, s.removed,
    s.endangers header msg⟩] := by
    rcases arrive_cases h.shape msg with ⟨-, -, heq⟩ | ⟨-, heq⟩ <;> rw [heq]
  refine ⟨arrive_shape h.shape, fun n a id ha hid => ?_⟩
  rw [harr, getElem?_append] at ha
  split at ha
  · exact arrive_old h.shape ha (h.each n a id ha hid)
  · rename_i hlt
    simp only [getElem?_singleton, Option.ite_none_right_eq_some, Option.some.injEq] at ha
    obtain ⟨hn, rfl⟩ := ha
    have hn : n = s.arrivals.length := by omega
    exact hn ▸ arrive_new h.shape hid

theorem handle_ok (h : MessagesOK header s) {i : ℕ} {call : ℕ × ℕ} (hca : s.calls[i]? = some call) :
    MessagesOK header { s with calls := s.calls.eraseIdx i, handed := s.handed ++ [call] } := by
  have hpe : ∀ c, c ∈ (s.handed ++ [call]) ++ s.calls.eraseIdx i ↔ c ∈ s.handed ++ s.calls := by
    intro c
    simp only [mem_append, mem_singleton, mem_eraseIdx_iff_getElem?, or_assoc]
    refine or_congr_right ⟨?_, fun hc => ?_⟩
    · rintro (rfl | ⟨j, -, hj⟩)
      · exact mem_of_getElem? hca
      · exact mem_of_getElem? hj
    · obtain ⟨j, hj⟩ := mem_iff_getElem?.mp hc
      by_cases hji : j = i
      · exact .inl (Option.some.inj (hj.symm.trans (hji ▸ hca)))
      · exact .inr ⟨j, hji, hj⟩
  refine ⟨{ h.shape with handed := fun c hc => h.shape.handed c ((hpe c).mp hc) },
    fun n a id ha hid => ?_⟩
  refine (h.each n a id ha hid).congr rfl rfl rfl rfl rfl Iff.rfl rfl Iff.rfl fun j => ?_
  rw [State.Handed, State.Handed, ← mem_append, ← mem_append]
  exact hpe (j, n)

/-! ## The execution of a plan -/

/-- The next executor is installed, and its flush begins. -/
theorem install_ok (h : MessagesOK header s) (hp : s.point = .idle) {plan : String}
    (hpl : s.plans[s.removed]? = some plan) :
    MessagesOK header { s with
      executor := some s.removed, activePlan := plan, point := .flush [], since :=
  s.since ++ [s.dropped] } := by
  have hlen : s.since.length = s.removed := by simpa [hp, serving] using h.shape.since_length
  have hwai := h.shape.waiting
  simp only [hp, todo] at hwai
  refine ⟨⟨rfl, fun _ => hpl, by simp [hlen, serving], fun _ => ?_, hwai, h.shape.handed, nofun⟩,
    fun n a id ha hid => ?_⟩
  · simp [← hlen]
  · have hn := h.each n a id ha hid
    refine ⟨fun hsa hle => ?_, fun _ _ hc => (nomatch hc), fun hsa k hle hlt hser hsi => ?_,
      fun hlo => ?_⟩
    · rcases hn.owed hsa hle with h | ⟨hto, -⟩ | h | ⟨plan, hcur, -⟩
      · exact .inl h
      · simp [hp, todo] at hto
      · exact .inr (.inr (.inl h))
      · simp [current, hp] at hcur
    · rw [List.getElem?_append_left (hlen ▸ hlt)] at hsi
      exact hn.settled hsa k hle hlt hser hsi
    · obtain ⟨hnot, -, hpen⟩ := hn.lost hlo
      refine ⟨hnot, not_mem_nil, fun hm => ?_⟩
      cases hp.symm.trans (hpen hm).1

theorem ShapeOK.serve (h : ShapeOK header s) (hser : s.point.serving) {pending : List Entry}
    {point : Point} {handed : List (ℕ × ℕ)} (hser' : point.serving)
    (hwai : ∀ e ∈ pending ++ point.todo, ∃ a, s.arrivals[e.1]? = some a ∧ a.message = e.2)
    (hhan : ∀ c ∈ handed ++ s.calls, c.1 ≤ s.removed ∧ c.2 < s.arrivals.length)
    (hflu : point.flushed → ∀ e ∈ pending, strategyMessagePlanID header e.2 ≠
      some (trimSpace s.activePlan)) :
    ShapeOK header { s with pending, point, handed } := by
  have hexec := h.executor
  have hlen := h.since_length
  rw [if_pos hser] at hexec hlen
  refine ⟨?_, fun _ => h.active hser, ?_, fun _ => h.since_last hser, hwai, hhan, hflu⟩
  · rw [if_pos hser']
    exact hexec
  · rw [if_pos hser']
    exact hlen

theorem flushSection_todo (keys : List Bytes) :
    (s.flushSection header keys).point.todo = (s.pending.foldl (flushEntry header s.activePlan) ([],
      [], keys)).1 := by
  simp only [flushSection]
  split_ifs with hem
  · exact (isEmpty_iff.mp hem).symm
  · rfl

/-- A flush section takes what is not kept, and only messages that wait. -/
theorem flushSection_cases (header : HeaderDecoder) (s : State) (keys : List Bytes) :
    ∃ point, s.flushSection header keys =
        { s with pending := s.pending.filter fun e => kept header s.activePlan e.2, point := point } ∧
      point.serving ∧ (∀ e ∈ point.todo, e ∈ s.pending) ∧
      ∀ e ∈ s.pending, kept header s.activePlan e.2 = false → e ∈ point.todo := by
  obtain ⟨l, hl, hsub, hall⟩ := @flush_deliver header s.activePlan s.pending ([], [], keys)
  refine ⟨(s.flushSection header keys).point, by simp [flushSection, flush_retained], ?_,
    fun e he => ?_, fun e he hke => ?_⟩
  · simp only [flushSection]
    split_ifs <;> rfl
  · rw [flushSection_todo, hl] at he
    exact hsub he
  · rw [flushSection_todo, hl]
    exact hall e he hke

variable {keys : List Bytes}

section

variable (h : MessagesOK header s)

include h

theorem flush_ok (hp : s.point = .flush keys) : MessagesOK header (s.flushSection header keys) := by
  obtain ⟨point, heq, hser', hsub, hta⟩ := flushSection_cases header s keys
  have hser : s.point.serving := by rw [hp]; rfl
  rw [heq]
  refine ⟨h.shape.serve hser hser' (fun e he => ?_) h.shape.handed fun _ e he hid => ?_,
    fun n a id ha hid => ?_⟩
  · refine h.shape.waiting e (mem_append_left _ ?_)
    rcases mem_append.mp he with he | he
    · exact mem_of_mem_filter he
    · exact hsub e he
  · obtain ⟨-, id, hid', hne⟩ := kept_iff.mp (mem_filter.mp he).2
    cases hid.symm.trans hid'
    exact hne rfl
  · have hn := h.each n a id ha hid
    refine ⟨fun hsa hle => ?_, fun _ _ hc => ?_, hn.settled, fun hlo => ?_⟩
    · rcases hn.owed hsa hle with h' | ⟨hto, -⟩ | hwa | ⟨plan, hcur, hbl⟩
      · exact .inl h'
      · simp [hp, todo] at hto
      · -- it stays, unless it is for the plan itself or the plan has no id
        obtain ⟨e, he, rfl⟩ := mem_map.mp hwa
        obtain ⟨a', ha', hmsg⟩ := h.shape.waiting e (mem_append_left _ he)
        cases ha.symm.trans ha'
        cases hke : kept header s.activePlan e.2 with
        | true => exact .inr (.inr (.inl (mem_map_of_mem (mem_filter.mpr ⟨he, hke⟩))))
        | false =>
          by_cases hbl : trimSpace s.activePlan = ""
          · exact .inr (.inr (.inr ⟨_, current_serving hser', hbl⟩))
          · have hse : id = trimSpace s.activePlan := by
              by_contra hne
              rw [kept_iff.mpr ⟨hbl, id, hmsg ▸ hid, hne⟩] at hke
              cases hke
            exact .inr (.inl ⟨mem_map_of_mem (hta e he hke), _, h.shape.active hser, hse.symm⟩)
      · rw [current_serving hser] at hcur
        exact .inr (.inr (.inr ⟨_, current_serving hser', Option.some.inj hcur ▸ hbl⟩))
    · cases hc
      cases hser'
    · obtain ⟨hnot, -, hpen⟩ := hn.lost hlo
      have hgo : n ∉ s.pending.map Prod.fst := fun hm => nomatch hp.symm.trans (hpen hm).1
      refine ⟨hnot, fun hm => hgo ?_, fun hm => absurd ?_ hgo⟩
      · obtain ⟨e, he, rfl⟩ := mem_map.mp hm
        exact mem_map_of_mem (hsub e he)
      · obtain ⟨e, he, rfl⟩ := mem_map.mp hm
        exact mem_map_of_mem (mem_of_mem_filter he)

theorem deliver_none_ok (hp : s.point = .deliver [] keys) :
    MessagesOK header { s with point := .flush keys } := by
  refine ⟨h.shape.serve (by rw [hp]; rfl) rfl ?_ h.shape.handed nofun, fun n a id ha hid => ?_⟩
  · simpa [hp, todo] using h.shape.waiting
  · refine (h.each n a id ha hid).congr rfl rfl rfl rfl ?_ ?_ ?_ Iff.rfl fun j => Iff.rfl
    · simp [current, hp]
    · simp [hp]
    · simp [hp, todo]

theorem deliver_some_ok {e : Entry} {todo : List Entry} (hp : s.point = .deliver (e :: todo) keys) :
    MessagesOK header { s with
      handed := s.handed ++ [(s.removed, e.1)], point := .deliver todo keys } := by
  have hsh := h.shape
  have hwai : ∀ e' ∈ s.pending ++ e :: todo, ∃ a, s.arrivals[e'.1]? = some a ∧ a.message = e'.2 := by
    simpa only [hp, Point.todo] using hsh.waiting
  refine ⟨hsh.serve (by rw [hp]; rfl) rfl (fun e' he' => ?_) (fun c hc => ?_) ?_,
    fun n a id ha hid => ?_⟩
  · refine hwai e' ?_
    rcases mem_append.mp he' with he' | he'
    · exact mem_append_left _ he'
    · exact mem_append_right _ (mem_cons_of_mem _ he')
  · simp only [append_assoc, mem_append, mem_singleton] at hc
    rcases hc with hc | rfl | hc
    · exact hsh.handed c (mem_append_left _ hc)
    · obtain ⟨a, ha, -⟩ := hwai e (by simp)
      exact ⟨le_rfl, (List.getElem?_eq_some_iff.mp ha).1⟩
    · exact hsh.handed c (mem_append_right _ hc)
  · simpa [hp, Point.flushed] using hsh.flushed
  · have hn := h.each n a id ha hid
    have hmo : ∀ {j}, s.Handed j n →
        State.Handed { s with
          handed := s.handed ++ [(s.removed, e.1)], point := .deliver todo keys } j n :=
      fun hj => hj.imp_left (mem_append_left _)
    refine ⟨fun hsa hle => ?_, fun _ _ hc => (nomatch hc), fun hsa k hle hlt hser hsi => ?_,
      fun hlo => ?_⟩
    · rcases hn.owed hsa hle with ⟨j, hser, hj⟩ | ⟨hto, hser⟩ | hwa | ⟨plan, hcur, hbl⟩
      · exact .inl ⟨j, hser, hmo hj⟩
      · simp only [hp, Point.todo, map_cons, mem_cons] at hto
        rcases hto with rfl | hto
        · exact .inl ⟨s.removed, hser, .inl mem_concat_self⟩
        · exact .inr (.inl ⟨hto, hser⟩)
      · exact .inr (.inr (.inl hwa))
      · exact .inr (.inr (.inr ⟨plan, by simpa [current, hp] using hcur, hbl⟩))
    · obtain ⟨j, hjk, hj, hhan⟩ := hn.settled hsa k hle hlt hser hsi
      exact ⟨j, hjk, hj, hmo hhan⟩
    · obtain ⟨hnot, hto, hpen⟩ := hn.lost hlo
      simp only [hp, Point.todo, map_cons, mem_cons, not_or] at hto
      refine ⟨?_, hto.2, fun hm => nomatch hp.symm.trans (hpen hm).1⟩
      rintro j hser (hj | hj)
      · rcases mem_append.mp hj with hj | hj
        · exact hnot j hser (.inl hj)
        · exact hto.1 (Prod.mk.inj (mem_singleton.mp hj)).2
      · exact hnot j hser (.inr hj)

/-- **At the removal** of an executor, every message for its plan that was not endangered has been
handed over. -/
theorem executing_handed (hp : s.point = .executing) (ha : s.arrivals[n]? = some a)
    (hid : strategyMessagePlanID header a.message = some id) (hsa : a.endangered = false)
    (hle : s.dropped ≤ n) (hser : s.Serves id s.removed) : ∃ j, s.Serves id j ∧ s.Handed j n := by
  have hact := h.shape.active (by rw [hp]; rfl)
  obtain ⟨plan, hpl, htr⟩ := hser
  cases hact.symm.trans hpl
  rcases (h.each n a id ha hid).owed hsa hle with hhan | ⟨hto, -⟩ | hwa | ⟨plan, hcur, hbl⟩
  · exact hhan
  · simp [hp, todo] at hto
  · -- the last flush section has kept nothing for the plan
    obtain ⟨e, he, rfl⟩ := mem_map.mp hwa
    obtain ⟨a', ha', hmsg⟩ := h.shape.waiting e (mem_append_left _ he)
    cases ha.symm.trans ha'
    refine absurd ?_ (h.shape.flushed (by rw [hp]; rfl) e he)
    rw [← hmsg, hid, htr]
  · have hcur : s.activePlan = plan := by simpa [current, hp] using hcur
    rw [hcur, hbl] at htr
    exact absurd htr.symm (strategyMessagePlanID_trimmed hid).2

theorem remove_ok (hp : s.point = .executing) :
    MessagesOK header { s with executor := none, activePlan := "", removed := s.removed + 1, point := .cleared } := by
  have hser : s.point.serving := by rw [hp]; rfl
  have hact := h.shape.active hser
  have hla := h.shape.since_last hser
  have hlen := h.shape.since_length
  rw [if_pos hser] at hlen
  refine ⟨⟨rfl, nofun, hlen, nofun, ?_, fun c hc => ?_, nofun⟩, fun n a id ha hid => ?_⟩
  · simpa [hp, todo] using h.shape.waiting
  · exact ⟨(h.shape.handed c hc).1.trans (Nat.le_succ _), (h.shape.handed c hc).2⟩
  · have hn := h.each n a id ha hid
    refine ⟨fun hsa hle => ?_, fun hsa hle _ hserv => ?_, fun hsa k hle hlt hserv hsi => ?_,
      fun hlo => ?_⟩
    · rcases hn.owed hsa hle with h' | ⟨hto, -⟩ | hwa | ⟨plan, hcur, hbl⟩
      · exact .inl h'
      · simp [hp, todo] at hto
      · exact .inr (.inr (.inl hwa))
      · have hcur : s.activePlan = plan := by simpa [current, hp] using hcur
        exact .inr (.inr (.inr ⟨plan, hcur ▸ hact, hbl⟩))
    · have hhan := executing_handed h hp ha hid hsa hle hserv
      exact hhan
    · obtain ⟨d, hd, hdn⟩ := hsi
      rcases Nat.lt_succ_iff_lt_or_eq.mp hlt with hlt | rfl
      · exact hn.settled hsa k hle hlt hserv ⟨d, hd, hdn⟩
      · cases hla.symm.trans hd
        obtain ⟨j, hj, hhan⟩ := executing_handed h hp ha hid hsa hdn hserv
        exact ⟨j, (Handed_lt h.shape hhan).1, hj, hhan⟩
    · obtain ⟨hnot, -, hpen⟩ := hn.lost hlo
      exact ⟨hnot, not_mem_nil, fun hm => nomatch hp.symm.trans (hpen hm).1⟩

/-- With no executor installed, a discard of all messages leaves no message waiting. -/
theorem discardPendingStrategyMessages_ok (hser : s.point.serving = false) :
    MessagesOK header { s.discardPendingStrategyMessages with point := .idle } := by
  have hexec := h.shape.executor
  have hlen := h.shape.since_length
  simp only [hser, Bool.false_eq_true, if_false] at hexec hlen
  refine ⟨⟨hexec, nofun, hlen, nofun, nofun, h.shape.handed, nofun⟩, fun n a id ha hid => ?_⟩
  have hn := h.each n a id ha hid
  have hlt : n < s.arrivals.length := (List.getElem?_eq_some_iff.mp ha).1
  exact ⟨fun _ hle => absurd hlt (Nat.not_lt.mpr hle), fun _ _ hc => (nomatch hc), hn.settled,
    fun hlo => ⟨(hn.lost hlo).1, not_mem_nil, nofun⟩⟩

theorem discard_ok (hp : s.point = .cleared) {plan : String}
    (hpl : s.plans[s.removed - 1]? = some plan) :
    MessagesOK header { s.discardPendingStrategyMessagesForPlan header plan with point := .idle } := by
  have hser : s.point.serving = false := by rw [hp]; rfl
  unfold discardPendingStrategyMessagesForPlan
  split_ifs with hbl
  · exact discardPendingStrategyMessages_ok h hser
  have hexec := h.shape.executor
  have hlen := h.shape.since_length
  simp only [hser, Bool.false_eq_true, if_false] at hexec hlen
  refine ⟨⟨hexec, nofun, hlen, nofun, fun e he => ?_, h.shape.handed, nofun⟩, fun n a id ha hid => ?_⟩
  · simp only [todo, append_nil, mem_filter] at he
    exact h.shape.waiting e (mem_append_left _ he.1)
  · have hn := h.each n a id ha hid
    -- the discard keeps the messages with an id other than the plan's
    have hke : ∀ e ∈ s.pending, e.1 = n →
        ((strategyMessagePlanID header e.2).any (fun id' => trimSpace id' ≠ trimSpace plan) = true ↔
          id ≠ trimSpace plan) := by
      rintro e he rfl
      obtain ⟨a', ha', hmsg⟩ := h.shape.waiting e (mem_append_left _ he)
      cases ha.symm.trans ha'
      simp [← hmsg, hid, (strategyMessagePlanID_trimmed hid).1]
    refine ⟨fun hsa hle => ?_, fun _ _ hc => (nomatch hc), hn.settled, fun hlo => ?_⟩
    · rcases hn.owed hsa hle with h' | ⟨hto, -⟩ | hwa | ⟨plan', hcur, hbl'⟩
      · exact .inl h'
      · simp [hp, todo] at hto
      · by_cases hse : id = trimSpace plan
        · exact .inl (hn.cleared hsa hle hp ⟨plan, hpl, hse.symm⟩)
        · obtain ⟨e, he, hen⟩ := mem_map.mp hwa
          refine .inr (.inr (.inl (mem_map.mpr ⟨e, mem_filter.mpr ⟨he, ?_⟩, hen⟩)))
          exact (hke e he hen).mpr hse
      · have hcur : plan = plan' := by simpa [current, hp, hpl] using hcur
        exact absurd (hcur ▸ hbl') hbl
    · obtain ⟨hnot, -, hpen⟩ := hn.lost hlo
      refine ⟨hnot, not_mem_nil, fun hm => ?_⟩
      obtain ⟨e, he, hen⟩ := mem_map.mp hm
      obtain ⟨he, hkeep⟩ := mem_filter.mp he
      obtain ⟨-, plan', hpl', htr⟩ := hpen (mem_map.mpr ⟨e, he, hen⟩)
      cases hpl.symm.trans hpl'
      exact absurd htr.symm ((hke e he hen).mp hkeep)

end

/-! ## Runs -/

theorem initial_ok (h : Initial s) : MessagesOK header s := by
  obtain ⟨plans, rfl⟩ := h
  exact ⟨⟨rfl, nofun, rfl, nofun, nofun, nofun, nofun⟩, nofun⟩

theorem step_ok (h : MessagesOK header s) {act : State.Action} (hs : s.step header act = some s') :
    MessagesOK header s' := by
  revert hs
  fun_cases State.step header s act
  case case2 =>
    intro hs
    obtain ⟨call, hca, ⟨⟩⟩ := Option.bind_eq_some_iff.1 hs
    exact handle_ok h hca
  all_goals rintro ⟨⟩
  case case1 => exact arrive_ok h
  case case3 hpl hp => exact install_ok h hp hpl
  case case5 hp => exact flush_ok h hp
  case case7 hp => exact deliver_none_ok h hp
  case case8 hp => exact deliver_some_ok h hp
  case case10 hp => exact remove_ok h hp
  case case12 hpl hp => exact discard_ok h hp hpl
  case case14 hp =>
    have hid := discardPendingStrategyMessages_ok h (by rw [hp]; rfl)
    rwa [show ({ s.discardPendingStrategyMessages with point := .idle } : State) =
      s.discardPendingStrategyMessages by
      simp [discardPendingStrategyMessages, hp]] at hid

end Steps

/-- **A message is handed to its plan exactly when it was not endangered.** In every state a run
reaches, for every arrival and every removed executor of the plan that the arrival names: if the
message arrived before the removal and after the last discard of all before the executor was
installed, an executor of that plan has been handed it, or the message was endangered as it arrived.
When the plan ids differ, it is the removed executor itself. -/
theorem handed_iff_not_endangered {s : State}
    (hs : Transition.Reachable (State.step header) State.Initial (fun _ _ => True) s)
    {n k since : ℕ} {a : Arrival} {plan : String} (ha : s.arrivals[n]? = some a)
    (hplan : s.plans[k]? = some plan)
    (hid : strategyMessagePlanID header a.message = some (trimSpace plan)) (hbefore : a.removed ≤ k)
    (hremoved : k < s.removed) (hsince : s.since[k]? = some since) (hafter : since ≤ n) :
    ((∃ j ≤ k, s.Serves (trimSpace plan) j ∧ s.Handed j n) ↔ a.endangered = false) ∧
      ((s.plans.map trimSpace).Nodup → (s.Handed k n ↔ a.endangered = false)) := by
  have hok : MessagesOK header s := hs.invariant (fun _ h => initial_ok h) fun _ _ _ _ h _ hstep =>
    step_ok h hstep
  have hn := hok.each n a _ ha hid
  have hsafe : ∀ j, s.Serves (trimSpace plan) j → s.Handed j n → a.endangered = false := by
    intro j hserves hhanded
    by_contra hendangered
    exact (hn.lost (Bool.not_eq_false _ ▸ hendangered)).1 j hserves hhanded
  have hgot := fun h => hn.settled h k hbefore hremoved ⟨plan, hplan, rfl⟩ ⟨since, hsince, hafter⟩
  refine ⟨⟨fun ⟨j, _, hserves, hhanded⟩ => hsafe j hserves hhanded, hgot⟩,
    fun hnodup => ⟨?_, fun h => ?_⟩⟩
  · exact hsafe k ⟨plan, hplan, rfl⟩
  · obtain ⟨j, -, ⟨plan', hplan', heq⟩, hhanded⟩ := hgot h
    have hj : (s.plans.map trimSpace)[j]? = (s.plans.map trimSpace)[k]? := by
      rw [getElem?_map, getElem?_map, hplan', hplan, Option.map_some, Option.map_some, heq]
    have hlt : j < (s.plans.map trimSpace).length := by
      rw [length_map]
      exact (List.getElem?_eq_some_iff.1 hplan').1
    rwa [← (getElem?_inj hlt hnodup).1 hj]

/-! ### Two runs of the plans `direct_hint_1`, `relay`, `direct_hint_2` -/

def samplePlans : List String := ["direct_hint_1", "relay", "direct_hint_2"]

/-- A decoder for which every payload names the last plan. -/
def sampleHeader : HeaderDecoder := fun _ => some "direct_hint_2"

def sampleMessage : Message := { payload := [0x7b, 0x7d] }

/-- The message arrives before any executor is installed; both plans of its family are handed it. -/
def earlyRun : List State.Action :=
  [.arrive sampleMessage, .install, .flush, .deliver, .deliver, .flush, .remove, .discard, .install,
    .flush, .remove, .discard, .install, .flush, .deliver, .deliver, .flush, .remove]

/-- The message arrives while the first plan is executed. -/
def siblingRun : List State.Action :=
  [.install, .flush, .arrive sampleMessage, .handle 0, .remove, .discard, .install, .flush, .remove,
    .discard, .install, .flush, .remove]

/-- The state after a run of the sample plans that meets `p`. -/
theorem sampleRun_reachable (acts : List State.Action) (p : State → Bool)
    (h : (Transition.runFrom (State.step sampleHeader) (fun _ _ => True) { plans := samplePlans }
      acts).any p = true) :
    ∃ s, Transition.Reachable (State.step sampleHeader) State.Initial (fun _ _ => True) s ∧
      p s = true := by
  obtain ⟨s, hrun, hp⟩ := (Option.any_eq_true _ _).mp h
  exact ⟨s, .of_run (.start ⟨samplePlans, rfl⟩) hrun, hp⟩

theorem early_message_handed :
    ∃ s : State, Transition.Reachable (State.step sampleHeader) State.Initial (fun _ _ => True) s ∧
      (∃ j ≤ 2, s.Serves (trimSpace "direct_hint_2") j ∧ s.Handed j 0) ∧ s.Handed 2 0 := by
  obtain ⟨s, hs, hp⟩ := sampleRun_reachable earlyRun
    (fun s => s.arrivals[0]? = some ⟨sampleMessage, 0, false⟩ ∧ s.plans[2]? = some "direct_hint_2" ∧
      s.removed = 3 ∧ s.since[2]? = some 0 ∧ (s.plans.map trimSpace).Nodup) (by decide +kernel)
  obtain ⟨ha, hplan, hremoved, hsince, hnodup⟩ := of_decide_eq_true hp
  have hid : strategyMessagePlanID sampleHeader sampleMessage =
    some (trimSpace "direct_hint_2") := by decide +kernel
  have hiff := handed_iff_not_endangered hs ha hplan hid (Nat.zero_le _) (hremoved ▸ by decide)
    hsince le_rfl
  exact ⟨s, hs, hiff.1.mpr rfl, (hiff.2 hnodup).mpr rfl⟩

/-- The message for `direct_hint_2` that arrives during `direct_hint_1` is handed to that executor
alone. -/
theorem sibling_message_lost :
    ∃ s : State, Transition.Reachable (State.step sampleHeader) State.Initial (fun _ _ => True) s ∧
      strategyMessagePlanID sampleHeader sampleMessage = some "direct_hint_2" ∧
      s.arrivals = [⟨sampleMessage, 0, true⟩] ∧
        s.plans = ["direct_hint_1", "relay", "direct_hint_2"] ∧ s.removed = 3 ∧
      s.since = [0, 0, 0] ∧ s.handed = [(0, 0)] ∧ s.calls = [] := by
  obtain ⟨s, hs, hp⟩ := sampleRun_reachable siblingRun
    (fun s => s.arrivals = [⟨sampleMessage, 0, true⟩] ∧ s.plans = samplePlans ∧ s.removed = 3 ∧
      s.since = [0, 0, 0] ∧ s.handed = [(0, 0)] ∧ s.calls = []) (by decide +kernel)
  have hid : strategyMessagePlanID sampleHeader sampleMessage =
    some "direct_hint_2" := by decide +kernel
  exact ⟨s, hs, hid, of_decide_eq_true hp⟩

end Winkyou.Session
