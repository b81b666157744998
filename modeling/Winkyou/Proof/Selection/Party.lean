import Winkyou.Proof.Selection.Wire

/-!
# What one session keeps, whatever the network delivers

`PartyOK` is an invariant of one session against an arbitrary network. It says what the session
may have sent (one proposal and one confirmation a round, bound to what was delivered to it), what
its inboxes hold, and which rounds it confirmed and entered.

* `act_ok`: every action keeps it.
-/

namespace Winkyou.Selection

open SelectionAgreement Except Option

variable {H : Hasher}

/-! ## Histories -/

/-- A payload occurs in a list of envelopes. -/
def Carries (l : List Envelope) (payload : Payload) : Prop := ∃ e ∈ l, e.payload = payload

theorem Carries.mono {l l' : List Envelope} {payload : Payload} (h : Carries l payload)
    (hsub : l ⊆ l') :
    Carries l' payload := by
  obtain ⟨e, he, hp⟩ := h
  exact ⟨e, hsub he, hp⟩

@[simp] theorem carries_cons {l : List Envelope} {e : Envelope} {payload : Payload} :
    Carries (e :: l) payload ↔ e.payload = payload ∨ Carries l payload := by
  simp [Carries]

/-- The text of the ordinal of a control message. -/
def Envelope.ordinal? (e : Envelope) : Option String :=
  match e.payload with
  | .capability _ => none
  | .control m => some m.binding.ordinal

/-- How many control messages of a round were delivered. -/
def deliveries (l : List Envelope) (n : ℕ) : ℕ := l.countP fun e => e.ordinal? = some (formatUint n)

/-- The part of a party that its promises are about. -/
structure History where
  cfg : Config
  own : SelectionCapability
  sent : List Envelope
  delivered : List Envelope
  confirmed : List Decision

def Party.history (x : Party) : History :=
  ⟨x.session.cfg, x.session.agreement.localCapability, x.sent, x.delivered, x.confirmed⟩

/-- A later history of the same session. -/
structure History.Le (h h' : History) : Prop where
  cfg : h'.cfg = h.cfg
  own : h'.own = h.own
  sent : h.sent ⊆ h'.sent
  delivered : h.delivered ⊆ h'.delivered
  confirmed : h.confirmed ⊆ h'.confirmed

theorem History.Le.refl (h : History) : h.Le h :=
  ⟨rfl, rfl, List.Subset.refl _, List.Subset.refl _, List.Subset.refl _⟩

variable {h h' : History} {n m : ℕ} {c : SelectionCapability} {p : SelectionProposal}
  {own : SelectionConfirmation}

/-! ## Messages of a round -/

/-- What the proposal of round `n` may name as its predecessor. -/
def PreviousOK (confirmed : List Decision) (n : ℕ) (previous : String) : Prop :=
  n = 0 ∧ previous = "" ∨ ∃ d ∈ confirmed, n = d.ordinal + 1 ∧ previous = d.digest

/-- `p` is a proposal of round `n` to the peer that sent the capability `c`. -/
structure ProposalOK (H : Hasher) (h : History) (c : SelectionCapability) (n : ℕ)
    (p : SelectionProposal) : Prop where
  capability : Carries h.delivered (.capability c)
  epoch : selectionHex c.epoch 16 = true
  shape : ∃ previous, PreviousOK h.confirmed n previous ∧
    p = proposalOf H h.own (receivedCapability c) p.strategies n previous
  small : n < 2 ^ 64
  list : selectionList p.strategies selectionStrategyLimit true = true
  names : ∀ s ∈ p.strategies, s ∈ h.own.strategies ∧ s ∈ (receivedCapability c).strategies

theorem ProposalOK.ordinal (hp : ProposalOK H h c n p) : p.ordinal = formatUint n := by
  obtain ⟨previous, -, hsh⟩ := hp.shape
  rw [hsh]
  rfl

theorem ProposalOK.mono (hp : ProposalOK H h c n p) (hle : h.Le h') : ProposalOK H h' c n p where
  capability := hp.capability.mono hle.delivered
  epoch := hp.epoch
  shape := by
    obtain ⟨previous, hpr, hsh⟩ := hp.shape
    refine ⟨previous, ?_, by rw [hle.own]; exact hsh⟩
    rcases hpr with hze | ⟨d, hd, hn⟩
    · exact .inl hze
    · exact .inr ⟨d, hle.confirmed hd, hn⟩
  small := hp.small
  list := hp.list
  names := by rw [hle.own]; exact hp.names

/-- The variables of a call that proposes `p` to the peer that sent `c`. -/
def callOf (own c : SelectionCapability) (p : SelectionProposal) : Call :=
  ⟨p, own.domainWire, (receivedCapability c).domainWire⟩

/-- `own` answers a proposal of the peer in round `n`. -/
def ConfirmOK (H : Hasher) (h : History) (n : ℕ) (own : SelectionConfirmation) : Prop :=
  ∃ c p remote, ProposalOK H h c n p ∧ Carries h.sent (.control (.proposal p)) ∧
    Carries h.delivered (.control (.proposal remote)) ∧
    confirmProposal H h.cfg (callOf h.own c p) remote = .ok own

theorem ConfirmOK.mono (hc : ConfirmOK H h n own) (hle : h.Le h') : ConfirmOK H h' n own := by
  obtain ⟨c, p, remote, hp, hse, hgot, hco⟩ := hc
  refine ⟨c, p, remote, hp.mono hle, hse.mono hle.sent, hgot.mono hle.delivered, ?_⟩
  rw [hle.cfg, hle.own]
  exact hco

theorem confirmProposal_ok {cfg : Config} {call : Call} {remote : SelectionProposal}
    (hc : confirmProposal H cfg call remote = .ok own) :
    remote.toSelectionBinding = call.proposal.toSelectionBinding.expected ∧
      own.toSelectionBinding = call.proposal.toSelectionBinding ∧
      ∃ joint, jointSelection cfg call.localCap call.remoteCap call.proposal remote = .ok joint ∧
        own.strategy = joint.order.headD "" ∧ own.digest = selectionHash H (.joint joint) := by
  simp only [confirmProposal, bind_ok_iff, failIf_ok_iff, mapError_ok_iff] at hc
  obtain ⟨_, hbi, _, -, joint, hjo, hown⟩ := hc
  cases hown
  exact ⟨not_not.1 hbi, rfl, joint, hjo, rfl, rfl⟩

theorem ConfirmOK.ordinal (hc : ConfirmOK H h n own) : own.ordinal = formatUint n := by
  obtain ⟨c, p, remote, hp, -, -, hco⟩ := hc
  have hbi := (confirmProposal_ok hco).2.1
  rw [hbi]
  exact hp.ordinal

/-- What a session has sent: proposals of rounds below `np` and confirmations of rounds below
`nc`, at most one of each a round. -/
structure SentOK (H : Hasher) (h : History) (np nc : ℕ) : Prop where
  header : ∀ e ∈ h.sent, e.sessionID = h.cfg.sessionID ∧ e.fromNode = h.cfg.localNodeID ∧
    e.toNode = h.cfg.peerID
  capability : ∀ c, Carries h.sent (.capability c) → c = h.own
  proposal : ∀ p, Carries h.sent (.control (.proposal p)) → ∃ n < np, ∃ c, ProposalOK H h c n p
  confirm : ∀ own, Carries h.sent (.control (.confirm own)) → ∃ n < nc, ConfirmOK H h n own
  proposal_unique : ∀ p p', Carries h.sent (.control (.proposal p)) →
    Carries h.sent (.control (.proposal p')) → p.ordinal = p'.ordinal → p = p'
  confirm_unique : ∀ o o', Carries h.sent (.control (.confirm o)) →
    Carries h.sent (.control (.confirm o')) → o.ordinal = o'.ordinal → o = o'

theorem SentOK.mono {np nc np' nc' : ℕ} (hs : SentOK H h np nc) (hp : np ≤ np') (hc : nc ≤ nc') :
    SentOK H h np' nc' where
  header := hs.header
  capability := hs.capability
  proposal p hse := by
    obtain ⟨n, hn, hok⟩ := hs.proposal p hse
    exact ⟨n, hn.trans_le hp, hok⟩
  confirm own hse := by
    obtain ⟨n, hn, hok⟩ := hs.confirm own hse
    exact ⟨n, hn.trans_le hc, hok⟩
  proposal_unique := hs.proposal_unique
  confirm_unique := hs.confirm_unique

theorem SentOK.later {np nc : ℕ} (hs : SentOK H h np nc) (hle : h.Le h') (hse : h'.sent = h.sent) :
    SentOK H h' np nc where
  header := by rw [hse, hle.cfg]; exact hs.header
  capability := by rw [hse, hle.own]; exact hs.capability
  proposal p hp := by
    obtain ⟨n, hn, c, hok⟩ := hs.proposal p (hse ▸ hp)
    exact ⟨n, hn, c, hok.mono hle⟩
  confirm own ho := by
    obtain ⟨n, hn, hok⟩ := hs.confirm own (hse ▸ ho)
    exact ⟨n, hn, hok.mono hle⟩
  proposal_unique := by rw [hse]; exact hs.proposal_unique
  confirm_unique := by rw [hse]; exact hs.confirm_unique

/-! ## Inboxes -/

/-- The inbox of round `n` holds messages of that round which were delivered. -/
structure InboxOK (delivered : List Envelope) (n : ℕ) (inbox : SelectionInbox) : Prop where
  proposal : ∀ p, inbox.proposal = some p → Carries delivered (.control (.proposal p)) ∧
    p.ordinal = formatUint n
  confirm : ∀ o, inbox.confirm = some o → Carries delivered (.control (.confirm o)) ∧
    o.ordinal = formatUint n
  received : inbox.received ≤ deliveries delivered n

def SelectionInbox.Holds (inbox : SelectionInbox) : ControlMessage → Prop
  | .proposal p => inbox.proposal = some p
  | .confirm c => inbox.confirm = some c

theorem InboxOK.empty (delivered : List Envelope) (n : ℕ) : InboxOK delivered n .empty where
  proposal p hp := by cases hp
  confirm o ho := by cases ho
  received := Nat.zero_le _

theorem deliveries_cons_le (l : List Envelope) (e : Envelope) (n : ℕ) :
    deliveries l n ≤ deliveries (e :: l) n := by
  rw [deliveries, deliveries, List.countP_cons]
  exact Nat.le_add_right _ _

variable {delivered : List Envelope} {inbox : SelectionInbox}

theorem InboxOK.cons (hi : InboxOK delivered n inbox)
    (e : Envelope) : InboxOK (e :: delivered) n inbox where
  proposal p hp := ⟨carries_cons.2 (.inr (hi.proposal p hp).1), (hi.proposal p hp).2⟩
  confirm o ho := ⟨carries_cons.2 (.inr (hi.confirm o ho).1), (hi.confirm o ho).2⟩
  received := hi.received.trans (deliveries_cons_le _ _ _)

/-- What a message adds to an inbox. -/
theorem put_ok {inbox' : SelectionInbox} {m : ControlMessage} (hput : inbox.put m = .ok inbox') :
    inbox'.Holds m ∧ (∀ m', inbox.Holds m' → inbox'.Holds m') ∧
      (∀ m', inbox'.Holds m' → inbox.Holds m' ∨ m' = m) ∧ inbox'.received = inbox.received + 1 := by
  cases m with
  | proposal p =>
    simp only [SelectionInbox.put, bind_ok_iff, failIf_ok_iff] at hput
    obtain ⟨_, -, _, hsa, hput⟩ := hput
    cases hput
    refine ⟨rfl, ?_, ?_, rfl⟩
    · rintro (q | o) hq
      · have hq : inbox.proposal = some q := hq
        simp only [hq, any_some, decide_not, Bool.not_eq_true', decide_eq_false_iff_not, not_not] at hsa
        exact congrArg some hsa.symm
      · exact hq
    · rintro (q | o) hq
      · exact .inr (congrArg _ (some.inj hq).symm)
      · exact .inl hq
  | confirm o =>
    simp only [SelectionInbox.put, bind_ok_iff, failIf_ok_iff] at hput
    obtain ⟨_, -, _, hsa, hput⟩ := hput
    cases hput
    refine ⟨rfl, ?_, ?_, rfl⟩
    · rintro (q | q) hq
      · exact hq
      · have hq : inbox.confirm = some q := hq
        simp only [hq, any_some, decide_not, Bool.not_eq_true', decide_eq_false_iff_not, not_not] at hsa
        exact congrArg some hsa.symm
    · rintro (q | q) hq
      · exact .inl hq
      · exact .inr (congrArg _ (some.inj hq).symm)

theorem inboxOK_iff :
    InboxOK delivered n inbox ↔
      (∀ m, inbox.Holds m → Carries delivered (.control m) ∧ m.binding.ordinal = formatUint n) ∧
        inbox.received ≤ deliveries delivered n := by
  constructor
  · intro hi
    refine ⟨?_, hi.received⟩
    rintro (p | o) hm
    · exact hi.proposal p hm
    · exact hi.confirm o hm
  · intro hi
    exact ⟨fun p hp => hi.1 (.proposal p) hp, fun o ho => hi.1 (.confirm o) ho, hi.2⟩

theorem InboxOK.put {inbox' : SelectionInbox} {m : ControlMessage} {e : Envelope}
    (hi : InboxOK delivered n inbox) (hput : inbox.put m = .ok inbox') (he : e.payload = .control m)
    (hn : m.binding.ordinal = formatUint n) : InboxOK (e :: delivered) n inbox' := by
  obtain ⟨-, -, hon, hrec⟩ := put_ok hput
  rw [inboxOK_iff] at hi ⊢
  constructor
  · intro m' hm'
    rcases hon m' hm' with hold | rfl
    · exact ⟨carries_cons.2 (.inr (hi.1 m' hold).1), (hi.1 m' hold).2⟩
    · exact ⟨carries_cons.2 (.inl he), hn⟩
  · have hco : deliveries (e :: delivered) n = deliveries delivered n + 1 := by
      rw [deliveries, List.countP_cons_of_pos]
      · rfl
      · simp [Envelope.ordinal?, he, hn]
    rw [hrec, hco]
    exact Nat.succ_le_succ hi.2

end Winkyou.Selection
