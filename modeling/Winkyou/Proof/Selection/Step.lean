import Winkyou.Proof.Selection.Party

/-!
# Every action of a session keeps its promises

The invariant `PartyOK` and its step lemma `act_ok`, which also says what an action does to the
history (`Effect`). The actions fall into four groups, with one lemma each: those that only touch
inboxes and the terminal error (`PartyOK.touch`), those that only move the program counter
(`PartyOK.goto`), those that send (`PartyOK.emit`), and the three that open, confirm and enter a
round.
-/

namespace Winkyou.Selection

open SelectionAgreement List Option

variable {H : Hasher} {x y : Party} {a a' : SelectionAgreement} {action : Action}
  {delivered : List Envelope} {e : Envelope} {m : ControlMessage} {n : ℕ} {candidates : List String}

/-! ## Rounds -/

def SelectionRound.core (r : SelectionRound) : SelectionRound := { r with remote := .empty }

def SelectionAgreement.core (a : SelectionAgreement) : Option SelectionRound :=
  a.current.map SelectionRound.core

def SelectionAgreement.opened (a : SelectionAgreement) : ℕ :=
  (a.core.map fun r => r.ordinal + 1).getD 0

variable {r : SelectionRound} {point : Point} {call : Call}

theorem core_of_current (h : a.current = some r) : a.core = some r.core := by
  rw [SelectionAgreement.core, h]
  rfl

/-- The current round is the last one that was opened. -/
theorem opened_of_current (h : a.current = some r) : a.opened = r.ordinal + 1 := by
  rw [opened, core_of_current h]
  rfl

theorem opened_of_core (h : a.core = some r) : a.opened = r.ordinal + 1 := by
  rw [opened, h]
  rfl

theorem opened_congr (h : a'.core = a.core) : a'.opened = a.opened := by
  rw [opened, opened, h]

/-- Between two calls, every open round of a live session is confirmed. -/
def Settled (a : SelectionAgreement) : Prop :=
  a.err = none → ∀ r, a.core = some r → r.confirmed = true

/-- The variables of a running call belong to the open round. -/
def CallOK (H : Hasher) (h : History) (core : Option SelectionRound) (call : Call) : Prop :=
  ∃ r c, core = some r ∧ r.confirmed = false ∧ r.entered = false ∧ r.localProposal = call.proposal ∧
    ProposalOK H h c r.ordinal call.proposal ∧ call = callOf h.own c call.proposal

/-- The own confirmation answers a delivered proposal. -/
def Answers (H : Hasher) (h : History) (call : Call) (own : SelectionConfirmation) : Prop :=
  ∃ remote, Carries h.delivered (.control (.proposal remote)) ∧
    confirmProposal H h.cfg call remote = .ok own

/-- A delivered confirmation matches the own one, and the inbox still holds it. -/
def Matched (h : History) (a : SelectionAgreement) (call : Call) (own : SelectionConfirmation) :
    Prop :=
  ∃ received, Carries h.delivered (.control (.confirm received)) ∧
    confirmationMatches call own received = true ∧
    (a.err = none → ∀ r, a.current = some r → r.remote.confirm = some received)

/-- What holds at each point of `agreeCandidates`. -/
def PointOK (H : Hasher) (h : History) (a : SelectionAgreement) : Point → Prop
  | .idle => Settled a
  | .opening _ => Settled a
  | .sendProposal call => CallOK H h a.core call
  | .awaitProposal call => CallOK H h a.core call ∧ Carries h.sent (.control (.proposal call.proposal))
  | .sendConfirm call own =>
    CallOK H h a.core call ∧ Carries h.sent (.control (.proposal call.proposal)) ∧ Answers H h call own
  | .awaitConfirm call own =>
    (CallOK H h a.core call ∧ Carries h.sent (.control (.proposal call.proposal)) ∧
      Answers H h call own) ∧ Carries h.sent (.control (.confirm own))
  | .commit call own =>
    ((CallOK H h a.core call ∧ Carries h.sent (.control (.proposal call.proposal)) ∧
      Answers H h call own) ∧ Carries h.sent (.control (.confirm own))) ∧ Matched h a call own
  | .failing _ => True

/-- The open round, apart from its inbox. -/
structure RoundOK (h : History) (entered : List Decision) (r : SelectionRound) : Prop where
  proposal : ∀ p, Carries h.sent (.control (.proposal p)) → p.ordinal = formatUint r.ordinal →
    p = r.localProposal
  confirmed : r.confirmed = true → ⟨r.ordinal, r.strategy, r.digest⟩ ∈ h.confirmed
  entered : r.entered = false → ∀ d ∈ entered, d.ordinal ≠ r.ordinal
  previous : r.ordinal = 0 ∨ ∃ d ∈ h.confirmed, r.ordinal = d.ordinal + 1
  small : r.ordinal < 2 ^ 64

/-- A confirmed round: the session sent its confirmation and the peer's was delivered. -/
structure DecisionOK (h : History) (opened : ℕ) (d : Decision) : Prop where
  own : ∃ o, Carries h.sent (.control (.confirm o)) ∧ o.ordinal = formatUint d.ordinal ∧
    o.strategy = d.strategy ∧ o.digest = d.digest
  peer : ∃ o, Carries h.delivered (.control (.confirm o)) ∧ o.ordinal = formatUint d.ordinal ∧
    o.strategy = d.strategy ∧ o.digest = d.digest
  lt : d.ordinal < opened
  hex : selectionHex d.digest 32 = true

/-- A delivered message that is not older than the open round is in its inbox. -/
def Retained (a : SelectionAgreement) (m : ControlMessage) : Prop :=
  ∃ n, m.binding.ordinal = formatUint n ∧ n ≤ a.opened ∧ (n = a.opened → a.future.Holds m) ∧
    ∀ r, a.current = some r → r.ordinal = n → r.remote.Holds m

/-- What the agreement knows of the delivered messages. -/
structure InboxesOK (delivered : List Envelope) (a : SelectionAgreement) : Prop where
  remote : ∀ r, a.remote = some r → ∃ c, Carries delivered (.capability c) ∧
    selectionHex c.epoch 16 = true ∧ r = receivedCapability c
  current : ∀ r, a.current = some r → InboxOK delivered r.ordinal r.remote
  future : InboxOK delivered a.opened a.future
  retained : a.err = none → ∀ m, Carries delivered (.control m) → Retained a m
  kept : a.err = none → ∀ r, a.current = some r → r.confirmed = true →
    ∃ c, r.remote.confirm = some c ∧ c.digest = r.digest ∧ c.strategy = r.strategy

/-- The rounds whose proposal may have been sent are those below this one. -/
def Point.proposed (opened : ℕ) : Point → ℕ
  | .sendProposal _ => opened - 1
  | _ => opened

/-- The rounds whose confirmation may have been sent are those below this one. -/
def Point.confirming (opened : ℕ) : Point → ℕ
  | .sendProposal _ => opened - 1
  | .awaitProposal _ => opened - 1
  | .sendConfirm _ _ => opened - 1
  | _ => opened

/-- **The invariant of one session.** -/
structure PartyOK (H : Hasher) (x : Party) : Prop where
  valid : validateSelectionCapability x.session.agreement.localCapability = .ok ()
  normal : receivedCapability x.session.agreement.localCapability = x.session.agreement.localCapability
  sent : SentOK H x.history (x.session.point.proposed x.session.agreement.opened)
    (x.session.point.confirming x.session.agreement.opened)
  round : ∀ r, x.session.agreement.core = some r → RoundOK x.history x.entered r
  inboxes : InboxesOK x.delivered x.session.agreement
  decision : ∀ d ∈ x.confirmed, DecisionOK x.history x.session.agreement.opened d
  entered : ∀ d ∈ x.entered, d ∈ x.confirmed
  nodup : (x.entered.map Decision.ordinal).Nodup
  point : PointOK H x.history x.session.agreement x.session.point

/-! ## Later histories -/

section Mono

variable {h h' : History} {call : Call} {own : SelectionConfirmation}

theorem CallOK.mono {core : Option SelectionRound} (hc : CallOK H h core call) (hle : h.Le h') :
    CallOK H h' core call := by
  obtain ⟨r, c, hco, hconf, hent, hpr, hp, hca⟩ := hc
  exact ⟨r, c, hco, hconf, hent, hpr, hp.mono hle, by rw [hle.own]; exact hca⟩

theorem Answers.mono (ha : Answers H h call own) (hle : h.Le h') : Answers H h' call own := by
  obtain ⟨remote, hgot, hco⟩ := ha
  exact ⟨remote, hgot.mono hle.delivered, by rw [hle.cfg]; exact hco⟩

/-- An agreement that differs in its inboxes and its terminal error only. -/
structure SameRound (a a' : SelectionAgreement) : Prop where
  core : a'.core = a.core
  err : a'.err = none → a.err = none
  confirm : a'.err = none → ∀ r r', a.current = some r → a'.current = some r' →
    ∀ c, r.remote.confirm = some c → r'.remote.confirm = some c

theorem PointOK.mono (hp : PointOK H h a point) (hle : h.Le h') (hr : SameRound a a') :
    PointOK H h' a' point := by
  have hset : Settled a → Settled a' := by
    intro hs herr r hco
    exact hs (hr.err herr) r (hr.core ▸ hco)
  have hca : ∀ {call}, CallOK H h a.core call → CallOK H h' a'.core call := by
    intro call hc
    rw [hr.core]
    exact hc.mono hle
  cases point with
  | idle => exact hset hp
  | opening candidates => exact hset hp
  | sendProposal call => exact hca hp
  | awaitProposal call => exact ⟨hca hp.1, hp.2.mono hle.sent⟩
  | sendConfirm call own => exact ⟨hca hp.1, hp.2.1.mono hle.sent, hp.2.2.mono hle⟩
  | awaitConfirm call own =>
    obtain ⟨⟨h1, h2, h3⟩, h4⟩ := hp
    exact ⟨⟨hca h1, h2.mono hle.sent, h3.mono hle⟩, h4.mono hle.sent⟩
  | commit call own =>
    obtain ⟨⟨⟨h1, h2, h3⟩, h4⟩, received, hgot, hma, hke⟩ := hp
    refine ⟨⟨⟨hca h1, h2.mono hle.sent, h3.mono hle⟩, h4.mono hle.sent⟩, received,
      hgot.mono hle.delivered, hma, ?_⟩
    intro herr r' hcur'
    -- the open round is the same one, so there is one before as well
    obtain ⟨r, -, hco, -⟩ := hca h1
    rw [hr.core] at hco
    obtain ⟨r0, hcur, -⟩ := map_eq_some_iff.1 hco
    exact hr.confirm herr r0 r' hcur hcur' received (hke (hr.err herr) r0 hcur)
  | failing err => trivial

theorem RoundOK.mono {entered : List Decision} (hr : RoundOK h entered r) (hle : h.Le h')
    (hse : h'.sent = h.sent) : RoundOK h' entered r where
  proposal := by rw [hse]; exact hr.proposal
  confirmed hc := hle.confirmed (hr.confirmed hc)
  entered := hr.entered
  previous := hr.previous.imp id fun ⟨d, hd, hn⟩ => ⟨d, hle.confirmed hd, hn⟩
  small := hr.small

theorem DecisionOK.mono {n' : ℕ} {d : Decision} (hd : DecisionOK h n d) (hle : h.Le h')
    (hn : n ≤ n') :
    DecisionOK h' n' d where
  own := by
    obtain ⟨o, ho, hre⟩ := hd.own
    exact ⟨o, ho.mono hle.sent, hre⟩
  peer := by
    obtain ⟨o, ho, hre⟩ := hd.peer
    exact ⟨o, ho.mono hle.delivered, hre⟩
  lt := hd.lt.trans_le hn
  hex := hd.hex

end Mono

/-! ## What an action does -/

/-- The history only grows, a delivery is recorded, and a stopped session stays as it is. -/
structure Effect (action : Action) (x y : Party) : Prop where
  cfg : y.session.cfg = x.session.cfg
  own : y.session.agreement.localCapability = x.session.agreement.localCapability
  sent : x.sent ⊆ y.sent
  delivered : y.delivered = x.delivered ∨ ∃ e late, action = .deliver e late ∧
    y.delivered = e :: x.delivered
  stopped : x.session.agreement.err ≠ none →
    y.session.agreement.err = x.session.agreement.err ∧ y.entered = x.entered

theorem Effect.refl : Effect action x x :=
  ⟨rfl, rfl, List.Subset.refl _, .inl rfl, fun _ => ⟨rfl, rfl⟩⟩

theorem Effect.setPoint (point : Point) : Effect action x (x.setPoint point) := { Effect.refl with }

/-- **What an action does**: it keeps the invariant, and the history only grows. -/
structure Acts (H : Hasher) (action : Action) (x y : Party) : Prop where
  ok : PartyOK H y
  effect : Effect action x y

/-! ## Inboxes and the terminal error -/

/-- An action that changes inboxes, the terminal error and the delivered messages only. -/
theorem PartyOK.touch (hx : PartyOK H x) (hle : x.history.Le y.history) (hse : y.sent = x.sent)
    (hco : y.confirmed = x.confirmed) (hent : y.entered = x.entered)
    (hpo : y.session.point = x.session.point)
    (hro : SameRound x.session.agreement y.session.agreement)
    (hin : InboxesOK y.delivered y.session.agreement) :
    PartyOK H y := by
  have hope := opened_congr hro.core
  have hown : y.session.agreement.localCapability = x.session.agreement.localCapability := hle.own
  exact {
    valid := by rw [hown]; exact hx.valid
    normal := by rw [hown]; exact hx.normal
    sent := by rw [hpo, hope]; exact hx.sent.later hle hse
    round := by
      intro r hcore
      rw [hent]
      exact (hx.round r (hro.core ▸ hcore)).mono hle hse
    inboxes := hin
    decision := by
      intro d hd
      rw [hope]
      exact (hx.decision d (hco ▸ hd)).mono hle le_rfl
    entered := by rw [hent, hco]; exact hx.entered
    nodup := by rw [hent]; exact hx.nodup
    point := by rw [hpo]; exact hx.point.mono hle hro }

section

variable (err : Err)

theorem stopLocked_core : (a.stopLocked err).core = a.core := by
  unfold stopLocked
  split
  · rfl
  · simp only [SelectionAgreement.core, Option.map_map]
    rfl

theorem stopLocked_localCapability : (a.stopLocked err).localCapability = a.localCapability := by
  unfold stopLocked
  split <;> rfl

theorem stopLocked_err : (a.stopLocked err).err ≠ none := by
  unfold stopLocked
  split
  · rename_i e he
    simp [he]
  · simp

theorem stopLocked_of_err (h : a.err ≠ none) : a.stopLocked err = a := by
  unfold stopLocked
  split
  · rfl
  · exact absurd ‹_› h

theorem stopLocked_sameRound : SameRound a (a.stopLocked err) where
  core := stopLocked_core err
  err h := absurd h (stopLocked_err err)
  confirm h := absurd h (stopLocked_err err)

/-- The inboxes stay sound when the session stops. -/
theorem InboxesOK.stop (hin : InboxesOK delivered a) : InboxesOK delivered (a.stopLocked err) := by
  cases herr : a.err with
  | some e =>
    have hsa : a.stopLocked err = a := by simp [stopLocked, herr]
    rw [hsa]
    exact hin
  | none =>
    have hst : a.stopLocked err = { a with
        err := some (terminalError err), future := .empty
        current := a.current.map fun round =>
          { round with remote := .empty } } := by simp [stopLocked, herr]
    rw [hst]
    refine ⟨hin.remote, ?_, InboxOK.empty _ _, (fun h => nomatch h), (fun h => nomatch h)⟩
    intro r hr
    obtain ⟨r0, -, rfl⟩ := map_eq_some_iff.1 hr
    exact InboxOK.empty _ _

theorem PartyOK.stop (hx : PartyOK H x) :
    PartyOK H { x with session := x.session.stopSelection err } := by
  refine hx.touch ⟨rfl, stopLocked_localCapability err, ?_, ?_,
    ?_⟩ rfl rfl rfl rfl (stopLocked_sameRound err) (hx.inboxes.stop err)
  all_goals exact List.Subset.refl _

theorem Effect.stop (h : Effect action x y) :
    Effect action x { y with session := y.session.stopSelection err } where
  cfg := h.cfg
  own := (stopLocked_localCapability err).trans h.own
  sent := h.sent
  delivered := h.delivered
  stopped hx := by
    obtain ⟨herr, hent⟩ := h.stopped hx
    refine ⟨?_, hent⟩
    rw [← herr]
    exact congrArg SelectionAgreement.err (stopLocked_of_err err (by rw [herr]; exact hx))

theorem PartyOK.stops (hx : PartyOK H x) :
    Acts H action x { x with session := x.session.stopSelection err } :=
  ⟨hx.stop err, Effect.refl.stop err⟩

end

theorem PartyOK.same (hx : PartyOK H x) : Acts H action x x := ⟨hx, .refl⟩

/-! ## Receiving -/

theorem SameRound.of_current (hcur : a'.current = a.current) (herr : a'.err = none → a.err = none) :
    SameRound a a' where
  core := by rw [SelectionAgreement.core, SelectionAgreement.core, hcur]
  err := herr
  confirm _ r r' hr hr' c hc := by
    rw [hcur, hr] at hr'
    cases hr'
    exact hc

theorem InboxesOK.cons (hin : InboxesOK delivered a)
    (hnew : a.err = none → ∀ m, e.payload = .control m → Retained a m) :
    InboxesOK (e :: delivered) a where
  remote r hr := by
    obtain ⟨c, hc, hre⟩ := hin.remote r hr
    exact ⟨c, carries_cons.2 (.inr hc), hre⟩
  current r hr := (hin.current r hr).cons e
  future := hin.future.cons e
  retained herr m hm := by
    rcases carries_cons.1 hm with he | hm
    · exact hnew herr m he
    · exact hin.retained herr m hm
  kept := hin.kept

/-- What a delivery does to an agreement. -/
structure Receives (delivered : List Envelope) (e : Envelope) (a a' : SelectionAgreement) : Prop where
  round : SameRound a a'
  own : a'.localCapability = a.localCapability
  inboxes : InboxesOK (e :: delivered) a'
  stopped : a.err ≠ none → a'.err = a.err

section

variable (hin : InboxesOK delivered a)

include hin

theorem InboxesOK.receive_stop (e : Envelope) (err : Err) :
    Receives delivered e a (a.stopLocked err) :=
  ⟨stopLocked_sameRound err, stopLocked_localCapability err, (hin.stop err).cons fun h =>
    absurd h (stopLocked_err err), fun h => by rw [stopLocked_of_err _ h]⟩

theorem InboxesOK.receive_stopped (e : Envelope) (herr : a.err.isSome = true) :
    Receives delivered e a a := by
  refine ⟨.of_current rfl id, rfl, hin.cons fun h => ?_, fun _ => rfl⟩
  rw [h] at herr
  cases herr

theorem InboxesOK.setRemote {c : SelectionCapability} (he : e.payload = .capability c)
    (hc : selectionHex c.epoch 16 = true) :
    InboxesOK (e :: delivered) { a with remote := some (receivedCapability c) } := by
  have hno : a.err = none → ∀ m, e.payload = .control m → Retained a m := by
    intro _ m hm
    cases he.symm.trans hm
  refine { hin.cons hno with remote := ?_ }
  intro r hr
  exact ⟨c, carries_cons.2 (.inl he), hc, (some.inj hr).symm⟩

theorem receiveSelectionCapability_ok {c : SelectionCapability} (he : e.payload = .capability c)
    (late : Bool) :
    Receives delivered e a (a.receiveSelectionCapability H c late) := by
  unfold receiveSelectionCapability
  split
  · exact hin.receive_stop e _
  rename_i hva
  have hset : Receives delivered e a { a with remote := some (receivedCapability c) } :=
    ⟨.of_current rfl id, rfl, hin.setRemote he (validateSelectionCapability_ok hva), fun _ => rfl⟩
  split
  · rename_i herr
    exact hin.receive_stopped e (by rw [herr]; rfl)
  · split
    · exact hin.receive_stop e _
    · exact hset
  · split
    · exact hin.receive_stop e _
    · exact hset

/-- A control message of a later round waits in its inbox. -/
theorem InboxesOK.putFuture {inbox : SelectionInbox} (he : e.payload = .control m)
    (hm : m.binding.ordinal = formatUint a.opened) (hput : a.future.put m = .ok inbox) :
    InboxesOK (e :: delivered) { a with future := inbox } := by
  obtain ⟨hho, hke, -, -⟩ := put_ok hput
  refine {
    remote := ?_, current := fun r hr => (hin.current r hr).cons e, future := hin.future.put hput he hm
    retained := ?_, kept := hin.kept }
  · intro r hr
    obtain ⟨c, hc, hre⟩ := hin.remote r hr
    exact ⟨c, carries_cons.2 (.inr hc), hre⟩
  · intro herr m' hm'
    rcases carries_cons.1 hm' with he' | hold
    · cases he.symm.trans he'
      refine ⟨a.opened, hm, le_rfl, fun _ => hho, ?_⟩
      intro r hr hn
      have hope : a.opened = r.ordinal + 1 := opened_of_current hr
      omega
    · obtain ⟨n, hn, hle, hfut, hcur⟩ := hin.retained herr m' hold
      exact ⟨n, hn, hle, fun h => hke m' (hfut h), hcur⟩

theorem InboxesOK.putCurrent {inbox : SelectionInbox} (hr : a.current = some r)
    (he : e.payload = .control m) (hm : m.binding.ordinal = formatUint r.ordinal)
    (hput : r.remote.put m = .ok inbox) :
    InboxesOK (e :: delivered) { a with current := some { r with remote := inbox } } := by
  obtain ⟨hho, hke, -, -⟩ := put_ok hput
  have hope := opened_of_current hr
  have hsa : ({ a with current := some { r with remote := inbox } } : SelectionAgreement).opened =
    a.opened := by
    rw [hope]
    rfl
  refine { remote := ?_, current := ?_, future := ?_, retained := ?_, kept := ?_ }
  · intro r hr
    obtain ⟨c, hc, hre⟩ := hin.remote r hr
    exact ⟨c, carries_cons.2 (.inr hc), hre⟩
  · intro r' hr'
    cases hr'
    exact (hin.current r hr).put hput he hm
  · rw [hsa]
    exact hin.future.cons e
  · intro herr m' hm'
    rcases carries_cons.1 hm' with he' | hold
    · cases he.symm.trans he'
      refine ⟨r.ordinal, hm, by omega, fun h => by omega, ?_⟩
      intro r' hr' _
      cases hr'
      exact hho
    · obtain ⟨n, hn, hle, hfut, hcur⟩ := hin.retained herr m' hold
      refine ⟨n, hn, by omega, fun h => hfut (by omega), ?_⟩
      intro r' hr' hr'n
      cases hr'
      exact hke m' (hcur r hr hr'n)
  · intro herr r' hr' hco
    cases hr'
    obtain ⟨c, hc, hre⟩ := hin.kept herr r hr hco
    exact ⟨c, hke (.confirm c) hc, hre⟩

end

theorem slotOf_spec (n : ℕ) :
    match a.slotOf n with
    | .stale => ∃ r, a.current = some r ∧ n < r.ordinal
    | .current r => a.current = some r ∧ n = r.ordinal
    | .future => n = a.opened
    | .conflict => n ≠ a.opened ∧ (∀ r, a.current = some r → r.ordinal < n) ∨
        ∃ r, a.current = some r ∧ r.ordinal = 2 ^ 64 - 1 ∧ r.ordinal < n := by
  unfold slotOf
  cases hcur : a.current with
  | none =>
    have hope : a.opened = 0 := by
      rw [opened, SelectionAgreement.core, hcur]
      rfl
    by_cases hn : n = 0
    · simp [hn, hope]
    · simp [hn, hope]
  | some r =>
    have hope := opened_of_current hcur
    by_cases hlt : n < r.ordinal
    · simp [hlt]
    by_cases heq : n = r.ordinal
    · simp [heq]
    simp only [hlt, heq, if_false]
    by_cases hmax : r.ordinal = 2 ^ 64 - 1
    · rw [if_pos (.inl hmax)]
      exact .inr ⟨r, rfl, hmax, by omega⟩
    · by_cases hne : n = r.ordinal + 1
      · rw [if_neg (not_or.2 ⟨hmax, not_not.2 hne⟩)]
        omega
      · rw [if_pos (.inr hne)]
        refine .inl ⟨by omega, ?_⟩
        rintro r' ⟨⟩
        omega

/-- **A control message is filed** in the inbox of its round, or the session stops. -/
theorem fileControl_ok (hin : InboxesOK delivered a) (he : e.payload = .control m)
    (hm : m.binding.ordinal = formatUint n) : Receives delivered e a (a.fileControl H m n) := by
  have hsl := slotOf_spec (a := a) n
  unfold fileControl
  split
  · exact hin.receive_stopped e ‹_›
  split
  · exact hin.receive_stop e _
  split
  · rename_i hs
    rw [hs] at hsl
    obtain ⟨r, hr, hlt⟩ := hsl
    refine ⟨.of_current rfl id, rfl, hin.cons fun _ m' hm' => ?_, fun _ => rfl⟩
    cases he.symm.trans hm'
    have hope := opened_of_current hr
    refine ⟨n, hm, by omega, fun h => by omega, ?_⟩
    intro r' hr' hn
    cases hr.symm.trans hr'
    omega
  · exact hin.receive_stop e _
  · rename_i hs
    rw [hs] at hsl
    split
    · exact hin.receive_stop e _
    · rename_i inbox hput
      exact ⟨.of_current rfl id, rfl, hin.putFuture he (by rw [hm, hsl]) hput, fun _ => rfl⟩
  · rename_i r hs
    rw [hs] at hsl
    obtain ⟨hr, rfl⟩ := hsl
    split
    · exact hin.receive_stop e _
    rename_i inbox hput
    split
    · exact hin.receive_stop e _
    refine ⟨⟨?_, id, ?_⟩, rfl, hin.putCurrent hr he hm hput, fun _ => rfl⟩
    · rw [core_of_current hr]
      rfl
    · rintro - r1 r2 hr1 ⟨⟩ c hc
      rw [hr] at hr1
      cases hr1
      exact (put_ok hput).2.1 (.confirm c) hc

theorem receiveSelectionControl_ok (hin : InboxesOK delivered a) (he : e.payload = .control m) :
    Receives delivered e a (a.receiveSelectionControl H m) := by
  unfold receiveSelectionControl
  split
  · exact hin.receive_stop e _
  · split
    · exact hin.receive_stop e _
    · exact hin.receive_stop e _
    · rename_i n _ hord
      exact fileControl_ok hin he (formatUint_of_selectionOrdinal hord)

theorem PartyOK.deliver (hx : PartyOK H x) (e : Envelope) (late : Bool) :
    Acts H (.deliver e late) x (x.deliver H e late) := by
  have key : ∀ a', Receives x.delivered e x.session.agreement a' →
      Acts H (.deliver e late) x
        { x with session := { x.session with agreement := a' }, delivered := e :: x.delivered } := by
    intro a' ha
    refine ⟨?_, rfl, ha.own, List.Subset.refl _, .inr ⟨e, late, rfl, rfl⟩, fun h => ⟨ha.stopped h, rfl⟩⟩
    exact hx.touch ⟨rfl, ha.own, List.Subset.refl _, subset_cons_self _ _, List.Subset.refl _⟩
      rfl rfl rfl rfl ha.round ha.inboxes
  unfold Party.deliver Session.handleEnvelopeMessage
  split
  · exact key _ (hx.inboxes.receive_stop e _)
  · split
    · rename_i c he
      exact key _ (receiveSelectionCapability_ok hx.inboxes he late)
    · rename_i m he
      exact key _ (receiveSelectionControl_ok hx.inboxes he)

/-! ## Moving on -/

/-- A move to a point that is not behind the old one. -/
theorem PartyOK.goto {old : Point} (hx : PartyOK H x) (hpt : x.session.point = old)
    (hp : old.proposed x.session.agreement.opened ≤ point.proposed x.session.agreement.opened)
    (hc : old.confirming x.session.agreement.opened ≤ point.confirming x.session.agreement.opened)
    (hpo : PointOK H x.history x.session.agreement point) : Acts H action x (x.setPoint point) := by
  subst hpt
  exact ⟨{ hx with sent := hx.sent.mono hp hc, point := hpo }, .setPoint point⟩

theorem proposed_le (opened : ℕ) (point : Point) : point.proposed opened ≤ opened := by
  cases point with
  | sendProposal call => exact Nat.sub_le _ _
  | _ => exact le_rfl

theorem confirming_le (opened : ℕ) (point : Point) : point.confirming opened ≤ opened := by
  cases point with
  | sendProposal call => exact Nat.sub_le _ _
  | awaitProposal call => exact Nat.sub_le _ _
  | sendConfirm call own => exact Nat.sub_le _ _
  | _ => exact le_rfl

section

variable (hx : PartyOK H x)

include hx

theorem PartyOK.failing (err : Err) : Acts H action x (x.setPoint (.failing err)) :=
  hx.goto rfl (proposed_le _ _) (confirming_le _ _) trivial

theorem PartyOK.idle_of_err (herr : x.session.agreement.err.isSome = true) :
    Acts H action x (x.setPoint .idle) := by
  refine hx.goto rfl (proposed_le _ _) (confirming_le _ _) ?_
  intro hno
  rw [hno] at herr
  cases herr

theorem PartyOK.agree (h : x.agree candidates = some y) : Acts H action x y := by
  unfold Party.agree at h
  split at h <;> cases h
  rename_i hpt
  have hpo := hx.point
  rw [hpt] at hpo
  unfold Session.agreeCandidates
  split
  · exact hx.failing _
  · exact hx.goto hpt le_rfl le_rfl hpo

theorem PartyOK.prepare {candidate : String} (h : x.prepare candidate = some y) :
    Acts H action x y := by
  unfold Party.prepare at h
  split at h
  · cases h
    exact hx.same
  · exact hx.agree h

/-- The context of a session ends. -/
theorem PartyOK.expire {err : ContextErr} (h : x.expire err = some y) : Acts H action x y := by
  unfold Party.expire at h
  split at h
  · cases h
    exact hx.failing _
  · cases h
    exact hx.failing _
  · cases h

theorem PartyOK.fail (h : x.fail = some y) : Acts H action x y := by
  unfold Party.fail at h
  split at h <;> cases h
  rename_i err _
  have hid : Acts H .fail _ _ := (hx.stop err).idle_of_err (isSome_iff_ne_none.2 (stopLocked_err _))
  exact ⟨hid.ok, { Effect.refl.stop err with }⟩

theorem inbox_ok (hr : x.session.agreement.current = some r) :
    x.inbox = r.remote ∧ InboxOK x.delivered r.ordinal x.inbox := by
  have hin : x.inbox = r.remote := by rw [Party.inbox, hr]
  rw [hin]
  exact ⟨rfl, hx.inboxes.current r hr⟩

end

theorem CallOK.current {h : History} (hc : CallOK H h a.core call) :
    ∃ r c, a.current = some r ∧ r.confirmed = false ∧ r.entered = false ∧
      r.localProposal = call.proposal ∧
      ProposalOK H h c r.ordinal call.proposal ∧ call = callOf h.own c call.proposal := by
  obtain ⟨r, c, hco, hconf, hent, hpr, hp, hca⟩ := hc
  obtain ⟨r0, hcur, rfl⟩ := map_eq_some_iff.1 hco
  exact ⟨r0, c, hcur, hconf, hent, hpr, hp, hca⟩

theorem PartyOK.read (hx : PartyOK H x) (h : x.read H = some y) : Acts H action x y := by
  have hpo := hx.point
  unfold Party.read at h
  split at h
  · rename_i call hpt
    rw [hpt] at hpo
    split at h
    · cases h
      exact hx.idle_of_err ‹_›
    obtain ⟨remote, hrem, rfl⟩ := map_eq_some_iff.1 h
    unfold Party.examineProposal
    split
    · exact hx.failing _
    rename_i own hown
    obtain ⟨r, c, hcur, -⟩ := hpo.1.current
    have hgot := ((inbox_ok hx hcur).2.proposal remote hrem).1
    exact hx.goto hpt le_rfl le_rfl ⟨hpo.1, hpo.2, remote, hgot, hown⟩
  · rename_i call own hpt
    rw [hpt] at hpo
    split at h
    · cases h
      exact hx.idle_of_err ‹_›
    obtain ⟨received, hrec, rfl⟩ := map_eq_some_iff.1 h
    unfold Party.examineConfirm
    split
    swap
    · exact hx.failing _
    rename_i hma
    obtain ⟨r, c, hcur, -⟩ := hpo.1.1.current
    have hgot := ((inbox_ok hx hcur).2.confirm received hrec).1
    have hke : Matched x.history x.session.agreement call own := by
      refine ⟨received, hgot, hma, ?_⟩
      intro _ r' hr'
      rw [← (inbox_ok hx hr').1]
      exact hrec
    exact hx.goto hpt le_rfl le_rfl ⟨hpo, hke⟩
  · cases h

/-! ## Sending -/

theorem history_le_cons (e : Envelope) :
    x.history.Le { x.history with sent := e :: x.history.sent } :=
  ⟨rfl, rfl, subset_cons_self _ _, List.Subset.refl _, List.Subset.refl _⟩

/-- One more message of the session keeps the messages in order when its round is new. -/
theorem SentOK.cons {np nc np' nc' : ℕ} (hs : SentOK H x.history np nc) {payload : Payload}
    (hp : np ≤ np') (hc : nc ≤ nc') (hcap : ∀ c, payload = .capability c → c = x.history.own)
    (hpr : ∀ p, payload = .control (.proposal p) → ∃ n, np ≤ n ∧ n < np' ∧
      ∃ c, ProposalOK H x.history c n p)
    (hco : ∀ o, payload = .control (.confirm o) → ∃ n, nc ≤ n ∧ n < nc' ∧ ConfirmOK H x.history n o) :
    SentOK H { x.history with sent := x.session.newEnvelope payload :: x.history.sent } np' nc' := by
  have hle := history_le_cons (x := x) (x.session.newEnvelope payload)
  have hold := (hs.mono hp hc)
  -- an old message is of an older round than a new one
  have hnew_prop : ∀ p q, payload = .control (.proposal p) →
    Carries x.history.sent (.control (.proposal q)) →
      p.ordinal ≠ q.ordinal := by
    intro p q hpay hq heq
    obtain ⟨n, hn, -, c, hok⟩ := hpr p hpay
    obtain ⟨n', hn', c', hok'⟩ := hs.proposal q hq
    rw [hok.ordinal, hok'.ordinal] at heq
    have := formatUint_injective heq
    omega
  have hnew_conf : ∀ p q, payload = .control (.confirm p) →
    Carries x.history.sent (.control (.confirm q)) →
      p.ordinal ≠ q.ordinal := by
    intro p q hpay hq heq
    obtain ⟨n, hn, -, hok⟩ := hco p hpay
    obtain ⟨n', hn', hok'⟩ := hs.confirm q hq
    rw [hok.ordinal, hok'.ordinal] at heq
    have := formatUint_injective heq
    omega
  refine {
    header := ?_, capability := ?_, proposal := ?_, confirm := ?_, proposal_unique :=
      ?_, confirm_unique := ?_ }
  · exact forall_mem_cons.2 ⟨⟨rfl, rfl, rfl⟩, hs.header⟩
  · intro c hc
    rcases carries_cons.1 hc with he | hc
    · exact hcap c he
    · exact hs.capability c hc
  · intro p hp
    rcases carries_cons.1 hp with he | hp
    · obtain ⟨n, -, hn, c, hok⟩ := hpr p he
      exact ⟨n, hn, c, hok.mono hle⟩
    · obtain ⟨n, hn, c, hok⟩ := hold.proposal p hp
      exact ⟨n, hn, c, hok.mono hle⟩
  · intro o ho
    rcases carries_cons.1 ho with he | ho
    · obtain ⟨n, -, hn, hok⟩ := hco o he
      exact ⟨n, hn, hok.mono hle⟩
    · obtain ⟨n, hn, hok⟩ := hold.confirm o ho
      exact ⟨n, hn, hok.mono hle⟩
  · intro p q hp hq heq
    rcases carries_cons.1 hp with hp | hp <;> rcases carries_cons.1 hq with hq | hq
    · cases hp.symm.trans hq
      rfl
    · exact absurd heq (hnew_prop p q hp hq)
    · exact absurd heq.symm (hnew_prop q p hq hp)
    · exact hs.proposal_unique p q hp hq heq
  · intro p q hp hq heq
    rcases carries_cons.1 hp with hp | hp <;> rcases carries_cons.1 hq with hq | hq
    · cases hp.symm.trans hq
      rfl
    · exact absurd heq (hnew_conf p q hp hq)
    · exact absurd heq.symm (hnew_conf q p hq hp)
    · exact hs.confirm_unique p q hp hq heq

/-- The party after a message went out and the call moved on. -/
def Party.sendAndGoto (x : Party) (payload : Payload) (point : Point) : Party :=
  { x with sent := x.session.newEnvelope payload :: x.sent, session := { x.session with point := point } }

theorem Effect.sendAndGoto (payload : Payload) (point : Point) :
    Effect action x (x.sendAndGoto payload point) :=
  { Effect.refl with sent := subset_cons_self _ _ }

section

variable (hx : PartyOK H x)

include hx

theorem PartyOK.emit {payload : Payload}
    (hse : SentOK H (x.sendAndGoto payload point).history (point.proposed x.session.agreement.opened)
      (point.confirming x.session.agreement.opened))
    (hro : ∀ p r, payload = .control (.proposal p) → x.session.agreement.core = some r →
      p = r.localProposal)
    (hpo : PointOK H (x.sendAndGoto payload point).history x.session.agreement point) :
    PartyOK H (x.sendAndGoto payload point) := by
  have hle := history_le_cons (x := x) (x.session.newEnvelope payload)
  refine { hx with
    sent := hse, point := hpo, round := ?_, decision := fun d hd => (hx.decision d hd).mono hle le_rfl }
  intro r hr
  refine { hx.round r hr with proposal := ?_ }
  intro p hp hord
  rcases carries_cons.1 hp with he | hp
  · exact hro p r he hr
  · exact (hx.round r hr).proposal p hp hord

theorem PartyOK.emitCapability :
    PartyOK H (x.sendAndGoto (.capability x.session.agreement.localCapability) x.session.point) := by
  refine hx.emit (hx.sent.cons le_rfl le_rfl ?_ ?_ ?_) ?_ ?_
  · rintro c ⟨⟩
    rfl
  · rintro p ⟨⟩
  · rintro o ⟨⟩
  · rintro p r ⟨⟩
  · exact hx.point.mono (history_le_cons _) (.of_current rfl id)

theorem PartyOK.sendCapability (err : Option Err) (emitted : Bool) :
    Acts H action x (x.sendCapability err emitted) := by
  have hem : Acts H action x (x.emit (.capability x.session.agreement.localCapability) err
    emitted) := by
    unfold Party.emit
    split
    · exact ⟨hx.emitCapability, .sendAndGoto _ _⟩
    · exact hx.same
  unfold Party.sendCapability
  cases err with
  | none => exact hem
  | some e => exact ⟨hem.ok.stop e, hem.effect.stop e⟩

/-- The proposal goes out: it is the first one of the open round. -/
theorem PartyOK.emitProposal (hpt : x.session.point = .sendProposal call)
    (hp : point.proposed x.session.agreement.opened = x.session.agreement.opened)
    (hc : x.session.agreement.opened - 1 ≤ point.confirming x.session.agreement.opened)
    (hpo : CallOK H (x.sendAndGoto (.control (.proposal call.proposal)) point).history
      x.session.agreement.core call →
      PointOK H (x.sendAndGoto (.control (.proposal call.proposal)) point).history
        x.session.agreement point) :
    PartyOK H (x.sendAndGoto (.control (.proposal call.proposal)) point) := by
  have hca := hx.point
  rw [hpt] at hca
  obtain ⟨r, c, hco, hre⟩ := id hca
  have hope := opened_of_core hco
  have hse := hx.sent
  rw [hpt] at hse
  refine hx.emit (hse.cons ?_ hc ?_ ?_ ?_) ?_ (hpo (CallOK.mono hca (history_le_cons _)))
  · rw [hp]
    exact Nat.sub_le _ _
  · rintro c ⟨⟩
  · rintro p ⟨⟩
    refine ⟨r.ordinal, ?_, by omega, c, hre.2.2.2.1⟩
    simp only [Point.proposed]
    omega
  · rintro o ⟨⟩
  · rintro p r' ⟨⟩ hco'
    cases hco.symm.trans hco'
    exact hre.2.2.1.symm

/-- The confirmation goes out: it is the first one of the open round. -/
theorem PartyOK.emitConfirm {own : SelectionConfirmation}
    (hpt : x.session.point = .sendConfirm call own)
    (hp : point.proposed x.session.agreement.opened = x.session.agreement.opened)
    (hc : point.confirming x.session.agreement.opened = x.session.agreement.opened)
    (hpo : PointOK H (x.sendAndGoto (.control (.confirm own)) point).history x.session.agreement
        (.sendConfirm call own) →
      PointOK H (x.sendAndGoto (.control (.confirm own)) point).history x.session.agreement point) :
    PartyOK H (x.sendAndGoto (.control (.confirm own)) point) := by
  have hold := hx.point
  rw [hpt] at hold
  obtain ⟨⟨r, c, hco, -, -, -, hpr, hca⟩, hse, remote, hgot, hconf⟩ := id hold
  have hope := opened_of_core hco
  have hsent := hx.sent
  rw [hpt] at hsent
  refine hx.emit (hsent.cons hp.ge ?_ ?_ ?_ ?_) ?_
    (hpo (hold.mono (history_le_cons _) (.of_current rfl id)))
  · rw [hc]
    exact Nat.sub_le _ _
  · rintro c ⟨⟩
  · rintro p ⟨⟩
  · rintro o ⟨⟩
    refine ⟨r.ordinal, ?_, by omega, c, call.proposal, remote, hpr, hse, hgot, hca ▸ hconf⟩
    simp only [Point.confirming]
    omega
  · rintro p r' ⟨⟩

theorem PartyOK.send {err : Option Err} {emitted : Bool} (h : x.send err emitted = some y) :
    Acts H action x y := by
  unfold Party.send at h
  split at h
  · rename_i call hpt
    cases h
    cases err with
    | none =>
      exact ⟨hx.emitProposal hpt rfl le_rfl fun hc => ⟨hc, carries_cons.2 (.inl rfl)⟩, .sendAndGoto _ _⟩
    | some e =>
      cases emitted with
      | true => exact ⟨hx.emitProposal hpt rfl (Nat.sub_le _ _) fun _ => trivial, .sendAndGoto _ _⟩
      | false => exact hx.failing _
  · rename_i call own hpt
    cases h
    cases err with
    | none =>
      exact ⟨hx.emitConfirm hpt rfl rfl fun hc => ⟨hc, carries_cons.2 (.inl rfl)⟩, .sendAndGoto _ _⟩
    | some e =>
      cases emitted with
      | true => exact ⟨hx.emitConfirm hpt rfl rfl fun _ => trivial, .sendAndGoto _ _⟩
      | false => exact hx.failing _
  · cases h

end

/-! ## Opening, confirming and entering a round -/

theorem openRound_ok {remote : SelectionCapability} {previous : String}
    (h : a.openRound H remote candidates n previous = .ok (a', call)) :
    (∀ name ∈ candidates, name ∈ a.localCapability.strategies ∧ name ∈ remote.strategies) ∧
      selectionList candidates selectionStrategyLimit true = true ∧
      call = ⟨proposalOf H a.localCapability remote candidates n previous, a.localCapability.domainWire,
        remote.domainWire⟩ ∧
      a' = { a with
        current := some ⟨n, call.proposal, a.future, "", "", false, false⟩, future := .empty } := by
  simp only [openRound, Except.bind_ok_iff, Except.failIf_ok_iff] at h
  obtain ⟨_, hna, _, hli, h⟩ := h
  cases h
  refine ⟨?_, by simpa using hli, rfl, rfl⟩
  intro name hname
  by_contra hno
  refine hna (any_eq_true.2 ⟨name, hname, ?_⟩)
  rw [not_and_or] at hno
  simp only [Bool.or_eq_true, decide_eq_true_eq]
  exact hno

theorem openNext_ok (h : a.openNext H candidates = .ok (a', call)) :
    a.err = none ∧ ∃ remote previous, a.remote = some remote ∧
      (∀ r, a.current = some r → r.ordinal ≠ 2 ^ 64 - 1 ∧ previous = r.digest) ∧
        (a.current = none → previous = "") ∧
      a.openRound H remote candidates a.opened previous = .ok (a', call) := by
  unfold openNext at h
  split at h
  · cases h
  · cases h
  · rename_i remote herr hrem hcur
    refine ⟨herr, remote, "", hrem, ?_, fun _ => rfl, ?_⟩
    · intro r hr
      cases hcur.symm.trans hr
    · rw [opened, SelectionAgreement.core, hcur]
      exact h
  · rename_i remote round herr hrem hcur
    split at h
    · cases h
    rename_i hmax
    refine ⟨herr, remote, round.digest, hrem, ?_, ?_, ?_⟩
    · intro r hr
      cases hcur.symm.trans hr
      exact ⟨hmax, rfl⟩
    · intro hno
      cases hcur.symm.trans hno
    · rw [opened_of_current hcur]
      exact h

/-- The inbox of the next round becomes that of the new current one. -/
theorem InboxesOK.openRound (hin : InboxesOK delivered a) (p : SelectionProposal) :
    InboxesOK delivered { a with
      current := some ⟨a.opened, p, a.future, "", "", false, false⟩, future := .empty } := by
  refine {
    remote := hin.remote, current := ?_, future := InboxOK.empty _ _, retained := ?_, kept := ?_ }
  · rintro r ⟨⟩
    exact hin.future
  · intro herr m hm
    obtain ⟨n, hn, hle, hfut, -⟩ := hin.retained herr m hm
    refine ⟨n, hn, Nat.le_succ_of_le hle, fun h => ?_, ?_⟩
    · have hope : n = a.opened + 1 := h
      omega
    · rintro r ⟨⟩ hr
      exact hfut hr.symm
  · rintro - r ⟨⟩ hco
    cases hco

theorem PartyOK.openRound (hx : PartyOK H x) (h : x.openRound H = some y) : Acts H action x y := by
  unfold Party.openRound at h
  split at h
  swap
  · cases h
  rename_i candidates hpt
  split at h
  · cases h
    exact hx.failing _
  rename_i a' call hop
  cases h
  obtain ⟨herr, remote, previous, hrem, hro, hfi, hop⟩ := openNext_ok hop
  obtain ⟨hna, hli, rfl, rfl⟩ := openRound_ok hop
  obtain ⟨c, hc, hep, rfl⟩ := hx.inboxes.remote remote hrem
  have hset := hx.point
  rw [hpt] at hset
  have hse := hx.sent
  rw [hpt] at hse
  -- the round before, if there is one, is confirmed
  have hpre : PreviousOK x.confirmed x.session.agreement.opened previous ∧
      x.session.agreement.opened < 2 ^ 64 ∧ (x.session.agreement.opened = 0 ∨
        ∃ d ∈ x.confirmed, x.session.agreement.opened = d.ordinal + 1) := by
    cases hcur : x.session.agreement.current with
    | none =>
      have hze : x.session.agreement.opened = 0 := by
        rw [opened, SelectionAgreement.core, hcur]
        rfl
      exact ⟨.inl ⟨hze, hfi hcur⟩, by omega, .inl hze⟩
    | some r =>
      obtain ⟨hmax, rfl⟩ := hro r hcur
      have hope := opened_of_current hcur
      have hco := core_of_current hcur
      have hd := (hx.round _ hco).confirmed (hset herr _ hco)
      have hsm : r.ordinal < 2 ^ 64 := (hx.round _ hco).small
      exact ⟨.inr ⟨_, hd, hope, rfl⟩, by omega, .inr ⟨_, hd, hope⟩⟩
  obtain ⟨hpr, hsm, hbef⟩ := hpre
  have hprop : ProposalOK H x.history c x.session.agreement.opened
      (proposalOf H x.session.agreement.localCapability (receivedCapability c) candidates
        x.session.agreement.opened previous) :=
    { capability := hc, epoch := hep, shape := ⟨previous, hpr, rfl⟩, small := hsm, list := hli
      names := hna }
  refine ⟨?_, { Effect.refl with stopped := fun hx => absurd herr hx }⟩
  exact { hx with
    sent := hse
    round := by
      rintro r ⟨⟩
      refine { proposal := ?_, confirmed := ?_, entered := ?_, previous := hbef, small := hsm }
      · intro p hp hord
        obtain ⟨n, hn, c', hok⟩ := hse.proposal p hp
        rw [hok.ordinal] at hord
        have heq : n = x.session.agreement.opened := formatUint_injective hord
        simp only [Point.proposed] at hn
        omega
      · intro hconf
        cases hconf
      · intro _ d hd heq
        have hlt := (hx.decision d (hx.entered d hd)).lt
        have heq : d.ordinal = x.session.agreement.opened := heq
        omega
    inboxes := hx.inboxes.openRound _
    decision := fun d hd => (hx.decision d hd).mono (History.Le.refl _) (Nat.le_succ _)
    point := ⟨_, c, rfl, rfl, rfl, rfl, hprop, rfl⟩ }

theorem confirmationMatches_iff {own received : SelectionConfirmation} :
    confirmationMatches call own received = true ↔
      received.toSelectionBinding = call.proposal.toSelectionBinding.expected ∧
        received.digest = own.digest ∧ received.strategy = own.strategy := by
  simp [confirmationMatches, and_assoc]

theorem PartyOK.commit (hx : PartyOK H x) {expired : Bool} (h : x.commit expired = some y) :
    Acts H action x y := by
  unfold Party.commit at h
  split at h
  swap
  · cases h
  rename_i call own r hpt hcur
  split at h
  · cases h
    exact hx.idle_of_err ‹_›
  split at h
  · cases h
    exact hx.failing _
  cases h
  have hpo := hx.point
  have hse := hx.sent
  rw [hpt] at hpo hse
  obtain ⟨⟨⟨hca, hsentp, remote, hgot, hco⟩, hsen⟩, received, hrec, hma, hke⟩ := hpo
  obtain ⟨r', c, hcur', -, hent, hlo, hpr, -⟩ := hca.current
  cases hcur.symm.trans hcur'
  obtain ⟨-, hbi, joint, -, -, hdig⟩ := confirmProposal_ok hco
  obtain ⟨hrb, hrdi, hrst⟩ := confirmationMatches_iff.1 hma
  have hord : call.proposal.ordinal = formatUint r.ordinal := hpr.ordinal
  have hcore := core_of_current hcur
  have hope := opened_of_current hcur
  have hle : x.history.Le
      { x.history with confirmed := ⟨r.ordinal, own.strategy, own.digest⟩ :: x.history.confirmed } :=
    ⟨rfl, rfl, List.Subset.refl _, List.Subset.refl _, subset_cons_self _ _⟩
  refine ⟨?_, { Effect.refl with }⟩
  exact { hx with
    sent := by
      have hne := hse.later hle rfl
      simp only [Point.proposed, Point.confirming, hope] at hne
      exact hne
    round := by
      rintro r' ⟨⟩
      exact { (hx.round _ hcore).mono hle rfl with confirmed := fun _ => mem_cons_self }
    inboxes := { hx.inboxes with
      current := by
        rintro r' ⟨⟩
        exact hx.inboxes.current r hcur
      future := by
        have hfutu := hx.inboxes.future
        rw [hope] at hfutu
        exact hfutu
      retained := by
        intro herr m hm
        obtain ⟨n, hn, hle, hfut, hcu⟩ := hx.inboxes.retained herr m hm
        rw [hope] at hle hfut
        refine ⟨n, hn, hle, hfut, ?_⟩
        rintro r' ⟨⟩ hr'
        exact hcu r hcur hr'
      kept := by
        rintro herr r' ⟨⟩ -
        exact ⟨received, hke herr r hcur, hrdi, hrst⟩ }
    decision := by
      intro d hd
      rcases mem_cons.1 hd with rfl | hd
      · exact {
          own := ⟨own, hsen, by rw [hbi, hord], rfl, rfl⟩
          peer := ⟨received, hrec, by rw [hrb]; exact hord, hrst, hrdi⟩
          lt := Nat.lt_succ_self _
          hex := by rw [hdig]; exact selectionHex_selectionHash _ }
      · have hold := hx.decision d hd
        rw [hope] at hold
        exact hold.mono hle le_rfl
    entered := fun d hd => mem_cons_of_mem _ (hx.entered d hd)
    point := by
      rintro - r' ⟨⟩
      rfl }

/-- What `enterSelection` did: it stopped the session, found it stopped, or entered the open
round. -/
theorem enterSelection_cases (strategy : Strategy) (ctxErr : Option ContextErr) (expired : Bool) :
    (∃ err, a.enterSelection strategy ctxErr expired = (a.stopLocked err, none)) ∨
      (a.err ≠ none ∧ a.enterSelection strategy ctxErr expired = (a, none)) ∨
      ∃ r, a.err = none ∧ a.current = some r ∧ r.confirmed = true ∧ r.entered = false ∧
        r.strategy = strategy.name ∧
        a.enterSelection strategy ctxErr expired =
          ({ a with current := some { r with entered := true }, previous := some strategy
                    strategyClosed := false }, some r) := by
  unfold enterSelection
  split
  · rename_i herr
    exact .inr (.inl ⟨by rw [herr]; exact some_ne_none _, rfl⟩)
  · exact .inl ⟨_, rfl⟩
  · rename_i r herr hcur
    split
    · exact .inl ⟨_, rfl⟩
    rename_i hgo
    split
    · exact .inl ⟨_, rfl⟩
    · split
      · exact .inl ⟨_, rfl⟩
      · simp only [not_or, Bool.not_eq_true', Bool.not_eq_false, Bool.not_eq_true, not_not] at hgo
        exact .inr (.inr ⟨r, herr, hcur, hgo.1, hgo.2.1, hgo.2.2, rfl⟩)

theorem PartyOK.enter (hx : PartyOK H x) {strategy : Strategy} {ctxErr : Option ContextErr}
    {expired : Bool} (h : x.enter strategy ctxErr expired = some y) : Acts H action x y := by
  unfold Party.enter at h
  split at h
  swap
  · cases h
  rename_i hpt
  rcases enterSelection_cases (a := x.session.agreement) strategy ctxErr expired with
    ⟨err, heq⟩ | ⟨-, heq⟩ | ⟨r, herr, hcur, hco, hent, -, heq⟩
  · rw [heq] at h
    cases h
    exact hx.stops err
  · rw [heq] at h
    cases h
    exact hx.same
  · rw [heq] at h
    cases h
    have hcore := core_of_current hcur
    have hope := opened_of_current hcur
    have hro := hx.round _ hcore
    have hin := hx.inboxes
    have hse := hx.sent
    have hdec := hx.decision
    rw [hope] at hse hdec
    have hpo : PointOK H x.history { x.session.agreement with current := some { r with entered := true } }
        x.session.point := by
      rw [hpt]
      rintro - r' ⟨⟩
      exact hco
    refine ⟨?_, { Effect.refl with stopped := fun hx => absurd herr hx }⟩
    exact { hx with
      sent := hse
      round := by
        rintro r' ⟨⟩
        exact { hro with entered := fun h => nomatch h }
      inboxes := { hin with
        current := by
          rintro r' ⟨⟩
          exact hin.current r hcur
        future := by
          have hfutu := hin.future
          rw [hope] at hfutu
          exact hfutu
        retained := by
          intro herr m hm
          obtain ⟨n, hn, hle, hfut, hcu⟩ := hin.retained herr m hm
          rw [hope] at hle hfut
          refine ⟨n, hn, hle, hfut, ?_⟩
          rintro r' ⟨⟩ hr'
          exact hcu r hcur hr'
        kept := by
          rintro herr r' ⟨⟩ hc
          exact hin.kept herr r hcur hc }
      decision := hdec
      entered := forall_mem_cons.2 ⟨hro.confirmed hco, hx.entered⟩
      nodup := by
        rw [map_cons, nodup_cons]
        refine ⟨?_, hx.nodup⟩
        intro hmem
        obtain ⟨d, hd, heq⟩ := mem_map.1 hmem
        exact hro.entered hent d hd heq
      point := hpo }

/-! ## Every action -/

theorem PartyOK.counts (hx : PartyOK H x) (hro : SameRound x.session.agreement a)
    (hown : a.localCapability = x.session.agreement.localCapability)
    (herr : a.err = x.session.agreement.err) (hin : InboxesOK x.delivered a) :
    Acts H action x (x.setAgreement a) := by
  refine ⟨hx.touch ⟨rfl, hown, ?_, ?_, ?_⟩ rfl rfl rfl rfl hro hin,
    { Effect.refl with own := hown, stopped := ?_ }⟩
  · exact List.Subset.refl _
  · exact List.Subset.refl _
  · exact List.Subset.refl _
  · exact fun _ => ⟨herr, rfl⟩

theorem PartyOK.cleanupFailed (hx : PartyOK H x) :
    Acts H action x (x.setAgreement x.session.agreement.cleanupFailed) := by
  have hset : Acts H action x (x.setAgreement { x.session.agreement with cleanupErr := true }) :=
    hx.counts (.of_current rfl id) rfl rfl { hx.inboxes with }
  exact ⟨hset.ok.stop _, hset.effect.stop _⟩

/-- **Every action keeps the invariant of a session**, and the history only grows. -/
theorem act_ok (hx : PartyOK H x) (h : x.act H action = some y) : Acts H action x y := by
  cases action with
  | sendCapability err emitted =>
    cases h
    exact hx.sendCapability err emitted
  | stop err =>
    cases h
    exact hx.stops err
  | agree candidates => exact hx.agree h
  | prepare candidate => exact hx.prepare h
  | openRound => exact hx.openRound h
  | send err emitted => exact hx.send h
  | read => exact hx.read h
  | expire err => exact hx.expire h
  | commit expired => exact hx.commit h
  | fail => exact hx.fail h
  | enter strategy ctxErr expired => exact hx.enter h
  | closeStrategy strategy failed =>
    cases h
    unfold closeSelectionStrategy
    split
    · exact hx.cleanupFailed
    · split
      · exact hx.counts (.of_current rfl id) rfl rfl { hx.inboxes with }
      · exact hx.same
  | openExecutor executor =>
    cases h
    exact hx.counts (.of_current rfl id) rfl rfl { hx.inboxes with }
  | closeExecutor executor failed =>
    cases h
    unfold closeSelectionExecutor
    split
    · exact hx.cleanupFailed
    · exact hx.counts (.of_current rfl id) rfl rfl { hx.inboxes with }
  | deliver e late =>
    cases h
    exact hx.deliver e late

end Winkyou.Selection
