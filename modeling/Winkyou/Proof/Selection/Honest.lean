import Winkyou.Proof.Selection.Agreement

/-!
# Honest peers never contradict each other

The two sides run the same rounds: a side opens round `n + 1` only when the peer has confirmed
round `n`, so their ordinals differ by at most one and their previous digests agree.

* `selection_consistent`: no message of the peer stops a session for its ordinal, its epoch or one
  of its digests, and a message of the next round is kept for it.
-/

namespace Winkyou.Selection

open SelectionAgreement Transition List SelectionAgreement Except

variable {H : Hasher} {w w' : World} {p : Side} {n : ℕ}
  {c : SelectionCapability} {q : SelectionProposal} {m : ControlMessage}

/-! ## The assumptions -/

/-- Two sides that take part in the same round have a candidate in common. -/
def CommonCandidate (w : World) : Prop :=
  ∀ r ∈ (w .a).session.agreement.current, ∀ r' ∈ (w .b).session.agreement.current, r.ordinal =
    r'.ordinal → ∃ name ∈ r.localProposal.strategies, name ∈ r'.localProposal.strategies

/-- No round's messages are delivered more often than the receive limit. -/
def ReceiveLimited (delivered : List Envelope) : Prop :=
  ∀ e ∈ delivered, e.ordinal?.isSome = true →
    delivered.countP (fun e' => e'.ordinal? = e.ordinal?) ≤ selectionReceiveLimit

/-- What the two resolvers and the network promise of a state. -/
def Assumed (w : World) : Prop :=
  CommonCandidate w ∧ ReceiveLimited (w .a).delivered ∧ ReceiveLimited (w .b).delivered

/-- A step that keeps the promises. -/
def Honest (H : Hasher) (w : World) (act : Side × Action) : Prop := ∀ w' ∈ step H w act, Assumed w'

instance (w : World) : Decidable (CommonCandidate w) := by
  unfold CommonCandidate
  infer_instance

instance (delivered : List Envelope) : Decidable (ReceiveLimited delivered) := by
  unfold ReceiveLimited
  infer_instance

instance (w : World) : Decidable (Assumed w) := by
  unfold Assumed
  infer_instance

instance (H : Hasher) (w : World) (act : Side × Action) : Decidable (Honest H w act) := by
  unfold Honest
  infer_instance

theorem CommonCandidate.of_side (h : CommonCandidate w) {r r' : SelectionRound}
    (hr : (w p).session.agreement.current = some r)
    (hr' : (w p.peer).session.agreement.current = some r') (hn : r.ordinal = r'.ordinal) :
    ∃ name ∈ r.localProposal.strategies, name ∈ r'.localProposal.strategies := by
  cases p with
  | a => exact h r hr r' hr' hn
  | b =>
    obtain ⟨name, h1, h2⟩ := h r' hr' r hr hn.symm
    exact ⟨name, h2, h1⟩

theorem Assumed.limited (h : Assumed w) : ReceiveLimited (w p).delivered := by
  cases p with
  | a => exact h.2.1
  | b => exact h.2.2

/-- The assumptions hold in the world that is reached. -/
theorem reachable_assumed (h : Reachable (step H) Initial (Honest H) w) : Assumed w := by
  refine h.invariant ?_ ?_
  · rintro w ⟨hfr, -⟩
    obtain ⟨_, ha, -, -, hda, -⟩ := hfr .a
    obtain ⟨_, -, -, -, hdb, -⟩ := hfr .b
    obtain ⟨-, -, -, -, -, hcur, -⟩ := newConverging_ok ha
    refine ⟨?_, ?_, ?_⟩
    · intro r hr
      rw [hcur] at hr
      cases hr
    · intro e he
      rw [hda] at he
      cases he
    · intro e he
      rw [hdb] at he
      cases he
  · intro w act w' _ _ hok hs
    exact hok w' hs

/-! ## The two sides run the same rounds -/

section

variable (hw : WorldOK H w)

include hw

theorem WorldOK.capability_eq (hc : Carries (w p).delivered (.capability c)) :
    c = (w p.peer).session.agreement.localCapability :=
  (hw.party p.peer).sent.capability c (hc.mono (hw.network p))

theorem WorldOK.own_normal :
    receivedCapability (w p).session.agreement.localCapability =
      (w p).session.agreement.localCapability :=
  (hw.party p).normal

theorem WorldOK.proposal_shape (hq : ProposalOK H (w p).history c n q) :
    c = (w p.peer).session.agreement.localCapability ∧
      ∃ previous, PreviousOK (w p).confirmed n previous ∧
      q = proposalOf H (w p).session.agreement.localCapability
        (w p.peer).session.agreement.localCapability
        q.strategies n previous := by
  have hc := hw.capability_eq hq.capability
  obtain ⟨previous, hpr, hsh⟩ := hq.shape
  refine ⟨hc, previous, hpr, ?_⟩
  rw [hc, hw.own_normal] at hsh
  exact hsh

/-- **The ordinals differ by at most one.** -/
theorem WorldOK.opened_le :
    (w p).session.agreement.opened ≤ (w p.peer).session.agreement.opened + 1 := by
  rcases hco : (w p).session.agreement.core with _ | r
  · rw [opened, hco]
    exact Nat.zero_le _
  rw [opened_of_core hco]
  rcases ((hw.party p).round r hco).previous with hze | ⟨d, hd, hn⟩
  · omega
  -- the peer has sent a confirmation of the round before
  obtain ⟨c, hc, hord, -⟩ := hw.peer_sent hd
  obtain ⟨m, hm, hok⟩ := (hw.party p.peer).sent.confirm c hc
  have hle := confirming_le (w p.peer).session.agreement.opened (w p.peer).session.point
  have heq : m = d.ordinal := formatUint_injective (hok.ordinal.symm.trans hord)
  omega

theorem WorldOK.previous_eq {s t : String} (hs : PreviousOK (w p).confirmed n s)
    (ht : PreviousOK (w p.peer).confirmed n t) : s = t := by
  rcases hs with ⟨hn, rfl⟩ | ⟨d, hd, hn, rfl⟩
  · rcases ht with ⟨-, rfl⟩ | ⟨d', -, hn', -⟩
    · rfl
    · omega
  · rcases ht with ⟨hn', -⟩ | ⟨d', hd', hn', rfl⟩
    · omega
    · exact (hw.agree hd hd' (by omega)).2

theorem WorldOK.binding_expected {c' : SelectionCapability} {q' : SelectionProposal}
    (hq : ProposalOK H (w p).history c n q) (hq' : ProposalOK H (w p.peer).history c' n q') :
    q'.toSelectionBinding = q.toSelectionBinding.expected := by
  obtain ⟨-, previous, hpr, hsh⟩ := hw.proposal_shape hq
  obtain ⟨-, previous', hpr', hsh'⟩ := hw.proposal_shape hq'
  have heq := hw.previous_eq hpr hpr'
  rw [hsh, hsh', heq, peer_peer]
  rfl

end

/-! ## Messages of the peer -/

/-- What the receiver of a message needs to know of it. -/
structure MessageOK (H : Hasher) (w : World) (p : Side) (n : ℕ) (m : ControlMessage) : Prop where
  binding : ∃ names previous, PreviousOK (w p).confirmed n previous ∧
    m.binding = (proposalOf H (w p).session.agreement.localCapability
      (w p.peer).session.agreement.localCapability names n previous).toSelectionBinding
  opened : n < (w p).session.agreement.opened
  small : n < 2 ^ 64
  wellFormed : m.wellFormed = true

theorem selectionListLoop_identifier {seen values : List String}
    (h : selectionListLoop seen values = true) {value : String} (hv : value ∈ values) :
    selectionIdentifier value selectionTokenLimit = true := by
  induction values generalizing seen with
  | nil => cases hv
  | cons v values ih =>
    simp only [selectionListLoop, Bool.and_eq_true] at h
    rcases mem_cons.1 hv with rfl | hv
    · exact h.1.1
    · exact ih h.2 hv

section

variable (hw : WorldOK H w)

include hw

/-- Every control message that a side sent is well formed and bound to both sessions. -/
theorem WorldOK.message_ok (hm : Carries (w p).sent (.control m)) : ∃ n, MessageOK H w p n m := by
  have hse := (hw.party p).sent
  cases m with
  | proposal q =>
    obtain ⟨n, hn, c, hok⟩ := hse.proposal q hm
    obtain ⟨-, previous, hpr, hsh⟩ := hw.proposal_shape hok
    exact ⟨n, ⟨q.strategies, previous, hpr, congrArg SelectionProposal.toSelectionBinding hsh⟩,
      hn.trans_le (proposed_le _ _), hok.small, hok.list⟩
  | confirm o =>
    obtain ⟨n, hn, c, q, remote, hok, -, -, hco⟩ := hse.confirm o hm
    obtain ⟨-, hbi, joint, hjo, hstr, hdig⟩ := confirmProposal_ok hco
    obtain ⟨-, previous, hpr, hsh⟩ := hw.proposal_shape hok
    have hli := hok.list
    simp only [selectionList, Bool.and_eq_true] at hli
    refine ⟨n, ⟨q.strategies, previous, hpr, ?_⟩, hn.trans_le (confirming_le _ _), hok.small, ?_⟩
    · exact hbi.trans (congrArg SelectionProposal.toSelectionBinding hsh)
    · simp only [ControlMessage.wellFormed, Bool.and_eq_true]
      refine ⟨?_, ?_⟩
      · rw [hstr]
        exact selectionListLoop_identifier hli.2 (jointSelection_order hjo)
      · rw [hdig]
        exact selectionHex_selectionHash _

theorem WorldOK.epoch_hex (p : Side) :
    selectionHex (w p).session.agreement.localCapability.epoch 16 = true :=
  validateSelectionCapability_ok (hw.party p).valid

theorem MessageOK.valid (hm : MessageOK H w p n m) :
    validateSelectionBinding m.binding = .ok () ∧ selectionOrdinal m.binding.ordinal = .ok n := by
  obtain ⟨names, previous, hpr, hbi⟩ := hm.binding
  rw [hbi]
  refine ⟨proposalOf_valid (hw.epoch_hex p) (hw.epoch_hex p.peer) hm.small ?_,
    selectionOrdinal_formatUint hm.small⟩
  rcases hpr with hze | ⟨d, hd, hn, rfl⟩
  · exact .inl hze
  · exact .inr ⟨by omega, ((hw.party p).decision d hd).hex⟩

theorem MessageOK.names (hm : MessageOK H w p.peer n m) :
    (w p).session.agreement.bindingNames H m.binding = true := by
  obtain ⟨names, previous, -, hbi⟩ := hm.binding
  rw [hbi, peer_peer]
  simp only [bindingNames, proposalOf, beq_self_eq_true, Bool.true_and]
  rw [Option.all_eq_true_iff_get]
  intro hso
  obtain ⟨c, hc, -, heq⟩ := (hw.party p).inboxes.remote _ (Option.some_get hso).symm
  rw [heq, hw.capability_eq hc, hw.own_normal]
  simp

/-! ## Receiving from the peer -/

/-- An inbox of the round takes a message of the peer as long as the receive limit allows it. -/
theorem WorldOK.put_ok {inbox : SelectionInbox} (hm : Carries (w p.peer).sent (.control m))
    (hord : m.binding.ordinal = formatUint n) (hin : InboxOK (w p).delivered n inbox)
    (hlim : deliveries (w p).delivered n < selectionReceiveLimit) :
    ∃ inbox', inbox.put m = .ok inbox' := by
  have hco : ¬ selectionReceiveLimit < inbox.received + 1 := by
    have := hin.received
    omega
  have hse := (hw.party p.peer).sent
  cases m with
  | proposal q =>
    have hsa : ¬ inbox.proposal.any (fun q' => q' ≠ q) = true := by
      simp only [Option.any_eq_true, decide_eq_true_eq, not_exists, not_and, not_not]
      intro q' hq'
      obtain ⟨hgot, hord'⟩ := hin.proposal q' hq'
      exact hse.proposal_unique q' q (hgot.mono (hw.network p)) hm (hord'.trans hord.symm)
    simp only [SelectionInbox.put, Except.failIf, if_neg hco, if_neg hsa]
    exact ⟨_, rfl⟩
  | confirm o =>
    have hsa : ¬ inbox.confirm.any (fun o' => o' ≠ o) = true := by
      simp only [Option.any_eq_true, decide_eq_true_eq, not_exists, not_and, not_not]
      intro o' ho'
      obtain ⟨hgot, hord'⟩ := hin.confirm o' ho'
      exact hse.confirm_unique o' o (hgot.mono (hw.network p)) hm (hord'.trans hord.symm)
    simp only [SelectionInbox.put, Except.failIf, if_neg hco, if_neg hsa]
    exact ⟨_, rfl⟩

/-- **A control message of the peer never stops the session.** -/
theorem WorldOK.receiveSelectionControl_err (hm : Carries (w p.peer).sent (.control m))
    (herr : (w p).session.agreement.err = none)
    (hlim : ∀ n, m.binding.ordinal = formatUint n →
      deliveries (w p).delivered n < selectionReceiveLimit) :
    ((w p).session.agreement.receiveSelectionControl H m).err = none := by
  obtain ⟨n, hok⟩ := hw.message_ok hm
  obtain ⟨hva, hord⟩ := hok.valid hw
  have hte := formatUint_of_selectionOrdinal hord
  have hle : n ≤ (w p).session.agreement.opened := by
    have := hok.opened
    have := hw.opened_le (p := p.peer)
    rw [peer_peer] at this
    omega
  have hsl := slotOf_spec (a := (w p).session.agreement) n
  have hin := (hw.party p).inboxes
  unfold receiveSelectionControl
  rw [hok.wellFormed, hva, hord]
  simp only [Bool.not_true, Bool.false_eq_true, if_false]
  unfold fileControl
  rw [herr, hok.names hw]
  simp only [Option.isSome_none, Bool.not_true, Bool.false_eq_true, if_false]
  split
  · exact herr
  · -- the ordinal is not beyond the next round
    rename_i hs
    rw [hs] at hsl
    rcases hsl with ⟨hne, hlt⟩ | ⟨r, -, hmax, hlt⟩
    · cases hcur : (w p).session.agreement.current with
      | none =>
        have hze : (w p).session.agreement.opened = 0 := by
          rw [opened, core, hcur]
          rfl
        omega
      | some r =>
        have := opened_of_current hcur
        have := hlt r hcur
        omega
    · have := hok.small
      omega
  · rename_i hs
    rw [hs] at hsl
    obtain ⟨inbox, hput⟩ := hw.put_ok hm hte (hsl ▸ hin.future) (hlim n hte)
    rw [hput]
  · rename_i r hs
    rw [hs] at hsl
    obtain ⟨hr, rfl⟩ := hsl
    obtain ⟨inbox, hput⟩ := hw.put_ok hm hte (hin.current r hr) (hlim _ hte)
    rw [hput]
    -- a committed round still holds the confirmation that it was committed with
    have hke : contradictsCommit r inbox = false := by
      cases hco : r.confirmed with
      | false => simp [contradictsCommit, hco]
      | true =>
        obtain ⟨c, hc, hdig, hstr⟩ := hin.kept herr r hr hco
        have hc' : inbox.confirm = some c := (Winkyou.Selection.put_ok hput).2.1 (.confirm c) hc
        simp [contradictsCommit, hc', hdig, hstr]
    simp only [hke, Bool.false_eq_true, if_false]

/-- **A capability of the peer stops the session only when it is the first and comes late.** -/
theorem WorldOK.receiveSelectionCapability_err {late : Bool}
    (hc : Carries (w p.peer).sent (.capability c)) (herr : (w p).session.agreement.err = none) :
    ((w p).session.agreement.receiveSelectionCapability H c late).err = none ∨
      late = true ∧ (w p).session.agreement.remote = none ∧
        ((w p).session.agreement.receiveSelectionCapability H c late).err =
          some (selectionDeadline .capabilityMissing) := by
  have hown := (hw.party p.peer).sent.capability c hc
  have hva : validateSelectionCapability c = .ok () := by
    rw [hown]
    exact (hw.party p.peer).valid
  unfold receiveSelectionCapability
  rw [hva, herr]
  cases hrem : (w p).session.agreement.remote with
  | none =>
    cases late with
    | false => exact .inl rfl
    | true => exact .inr ⟨rfl, rfl, by simp [stopLocked, herr, terminalError, selectionDeadline]⟩
  | some r =>
    obtain ⟨c', hc', -, rfl⟩ := (hw.party p).inboxes.remote r hrem
    have heq : c' = c := (hw.capability_eq hc').trans hown.symm
    simp only [heq, receivedCapability_epoch, ne_eq, not_true_eq_false, or_self, if_false]
    exact .inl trivial

theorem WorldOK.header_ok {e : Envelope} (he : e ∈ (w p.peer).sent) :
    ¬ (e.sessionID ≠ (w p).session.cfg.sessionID ∨ e.fromNode ≠ (w p).session.cfg.peerID ∨
      e.toNode ≠ (w p).session.cfg.localNodeID) := by
  obtain ⟨hses, hfr, hto⟩ := (hw.party p.peer).sent.header e he
  obtain ⟨hs, hl, hp⟩ := hw.mirrored p
  simp only [not_or, not_not]
  exact ⟨hses.trans hs, hfr.trans hl, hto.trans hp⟩

/-- **No message of the peer stops a session**, but for a first capability that comes late. -/
theorem WorldOK.deliver_err {e : Envelope} {late : Bool} (he : e ∈ (w p.peer).sent)
    (herr : (w p).session.agreement.err = none) (hlim : ReceiveLimited (e :: (w p).delivered)) :
    ((w p).deliver H e late).session.agreement.err = none ∨
      ((w p).deliver H e late).session.agreement.err = some (selectionDeadline .capabilityMissing) := by
  unfold Party.deliver Session.handleEnvelopeMessage
  rw [if_neg (hw.header_ok he)]
  split
  · rename_i c hpay
    exact (hw.receiveSelectionCapability_err ⟨e, he, hpay⟩ herr).imp id fun h => h.2.2
  · rename_i m hpay
    refine .inl (hw.receiveSelectionControl_err ⟨e, he, hpay⟩ herr ?_)
    intro n hn
    have hord : e.ordinal? = some (formatUint n) := by simp [Envelope.ordinal?, hpay, hn]
    have hco := hlim e mem_cons_self (by rw [hord]; rfl)
    rw [hord, countP_cons_of_pos (by simpa using hord)] at hco
    exact hco

/-! ## Reading what the peer sent -/

theorem WorldOK.confirmProposal_ok {c' : SelectionCapability} {q' : SelectionProposal}
    (hq : ProposalOK H (w p).history c n q) (hq' : ProposalOK H (w p.peer).history c' n q')
    (hcom : ∃ name ∈ q.strategies, name ∈ q'.strategies) :
    ∃ own, confirmProposal H (w p).session.cfg (callOf (w p).session.agreement.localCapability c q)
      q' = .ok own := by
  obtain ⟨name, hn, hn'⟩ := hcom
  have hc := (hw.proposal_shape hq).1
  have hc' := (hw.proposal_shape hq').1
  rw [peer_peer] at hc'
  obtain ⟨joint, hjo⟩ : ∃ joint, jointSelection (w p).session.cfg
      (w p).session.agreement.localCapability.domainWire (receivedCapability c).domainWire q q' =
        .ok joint :=
    jointSelection_ok hn hn'
  have hna : ¬ q'.strategies.any (fun name =>
    name ∉ (callOf (w p).session.agreement.localCapability c q).remoteCap.strategies ||
      name ∉ (callOf (w p).session.agreement.localCapability c q).localCap.strategies) = true := by
    intro hany
    obtain ⟨s, hs, hno⟩ := any_eq_true.1 hany
    obtain ⟨h1, h2⟩ := hq'.names s hs
    rw [hc', hw.own_normal] at h2
    have h3 : s ∈ (receivedCapability c).domainWire.strategies := by
      rw [hc, hw.own_normal]
      exact h1
    rw [Bool.or_eq_true, decide_eq_true_iff, decide_eq_true_iff] at hno
    rcases hno with hno | hno
    · exact hno h3
    · exact hno h2
  have hbi : ¬ q'.toSelectionBinding ≠ q.toSelectionBinding.expected :=
    not_not.2 (hw.binding_expected hq hq')
  simp only [confirmProposal, bind_ok_iff, failIf_ok_iff, mapError_ok_iff]
  exact ⟨_, (), hbi, (), hna, joint, hjo, rfl⟩

/-- A delivered proposal of the open round is the peer's only proposal of that round. -/
theorem WorldOK.delivered_proposal (hq : Carries (w p).delivered (.control (.proposal q)))
    (hord : q.ordinal = formatUint n) :
    Carries (w p.peer).sent (.control (.proposal q)) ∧ ∃ c, ProposalOK H (w p.peer).history c n q := by
  have hse := hq.mono (hw.network p)
  obtain ⟨m, -, c, hok⟩ := (hw.party p.peer).sent.proposal q hse
  have hm : m = n := formatUint_injective (hok.ordinal.symm.trans hord)
  exact ⟨hse, c, hm ▸ hok⟩

end

/-- A side that waits for the peer's proposal has not sent its confirmation, so the peer is still in
the round of the proposal. -/
theorem WorldOK.peer_round (hw : WorldOK H w) {call : Call}
    (hpt : (w p).session.point = .awaitProposal call) {r : SelectionRound}
    (hr : (w p).session.agreement.current = some r)
    (hq : Carries (w p.peer).sent (.control (.proposal q)))
    (hord : q.ordinal = formatUint r.ordinal) :
    ∃ r', (w p.peer).session.agreement.current = some r' ∧ r'.ordinal = r.ordinal ∧
      r'.localProposal = q := by
  have hope := opened_of_current hr
  obtain ⟨m, hm, c, hok⟩ := (hw.party p.peer).sent.proposal q hq
  have hmr : m = r.ordinal := formatUint_injective (hok.ordinal.symm.trans hord)
  have hlt := hm.trans_le (proposed_le _ _)
  rcases hcur : (w p.peer).session.agreement.current with _ | r'
  · rw [opened, core, hcur] at hlt
    exact absurd hlt (Nat.not_lt_zero _)
  have hco' := core_of_current hcur
  have hope' := opened_of_current hcur
  have hro := (hw.party p.peer).round _ hco'
  have hle := hw.opened_le (p := p.peer)
  rw [peer_peer] at hle
  have heq : r'.ordinal = r.ordinal := by
    by_contra hne
    -- the peer is one round ahead, so it has a confirmation of this round
    rcases hro.previous with hze | ⟨d, hd, hn⟩
    · have hze : r'.ordinal = 0 := hze
      omega
    have hn : r'.ordinal = d.ordinal + 1 := hn
    obtain ⟨o, ho, hoo, -⟩ := hw.peer_sent hd
    rw [peer_peer] at ho
    obtain ⟨k, hk, hok'⟩ := (hw.party p).sent.confirm o ho
    have hkd : k = d.ordinal := formatUint_injective (hok'.ordinal.symm.trans hoo)
    rw [hpt] at hk
    simp only [Point.confirming] at hk
    omega
  refine ⟨r', rfl, heq, (hro.proposal q hq ?_).symm⟩
  rw [hord, ← heq]
  rfl

theorem WorldOK.confirmation_matches (hw : WorldOK H w) {call : Call}
    {own received : SelectionConfirmation}
    (hpo : PointOK H (w p).history (w p).session.agreement (.awaitConfirm call own))
    (hin : (w p).inbox.confirm = some received) : confirmationMatches call own received = true := by
  obtain ⟨⟨hca, hse, remote, hrem, hco⟩, -⟩ := hpo
  obtain ⟨r, c, hcur, -, -, -, hpr, hcal⟩ := hca.current
  obtain ⟨hgot, hord⟩ := (inbox_ok (hw.party p) hcur).2.confirm received hin
  obtain ⟨m, -, hok⟩ := (hw.party p.peer).sent.confirm received (hgot.mono (hw.network p))
  have hm : m = r.ordinal := formatUint_injective (hok.ordinal.symm.trans hord)
  subst hm
  obtain ⟨c', q', remote', hpr', hse', hrem', hco'⟩ := hok
  obtain ⟨hbi, -, joint, hjo, hstr, hdig⟩ := Winkyou.Selection.confirmProposal_ok hco
  obtain ⟨hbi', hown', joint', hjo', hstr', hdig'⟩ := Winkyou.Selection.confirmProposal_ok hco'
  -- each side has answered the other's only proposal of the round
  have hq' : remote = q' := by
    refine (hw.party p.peer).sent.proposal_unique remote q' (hrem.mono (hw.network p)) hse' ?_
    rw [hbi, hpr'.ordinal]
    exact hpr.ordinal
  have hq : remote' = call.proposal := by
    refine (hw.party p).sent.proposal_unique remote' call.proposal ?_ hse ?_
    · have hba := hrem'.mono (hw.network p.peer)
      rwa [peer_peer] at hba
    · rw [hbi', hpr.ordinal]
      exact hpr'.ordinal
  have hc := (hw.proposal_shape hpr).1
  have hc' := (hw.proposal_shape hpr').1
  rw [peer_peer] at hc'
  have hjoint_eq : joint' = joint := by
    rw [hcal] at hjo
    rw [hq] at hjo'
    rw [hq'] at hjo
    have hmir :
        jointSelection (w p.peer).session.cfg (w p.peer).session.agreement.localCapability.domainWire
            (receivedCapability c').domainWire q' call.proposal =
          jointSelection (w p).session.cfg (w p).session.agreement.localCapability.domainWire
            (receivedCapability c).domainWire call.proposal q' :=
      jointSelection_mirror call.proposal q' (hw.mirrored p) (hw.initiator p)
        (by rw [hc]; exact (normalizeCapability_idem _).symm)
          (by rw [hc']; exact normalizeCapability_idem _)
    exact ok.inj (hjo'.symm.trans (hmir.trans hjo))
  rw [confirmationMatches_iff]
  refine ⟨?_, ?_, ?_⟩
  · exact hown'.trans (hw.binding_expected hpr hpr')
  · rw [hdig, hdig', hjoint_eq]
  · rw [hstr, hstr', hjoint_eq]

/-- **Reading a message of the peer never fails the call.** -/
theorem WorldOK.read_ok (hw : WorldOK H w) (hcom : CommonCandidate w) {y : Party}
    (h : (w p).read H = some y) (err : Err) : y.session.point ≠ .failing err := by
  have hpo := (hw.party p).point
  unfold Party.read at h
  split at h
  · rename_i call hpt
    rw [hpt] at hpo
    split at h
    · cases h
      simp [Party.setPoint]
    obtain ⟨remote, hrem, rfl⟩ := Option.map_eq_some_iff.1 h
    obtain ⟨r, c, hcur, -, -, hlo, hpr, hcal⟩ := hpo.1.current
    obtain ⟨hgot, hord⟩ := (inbox_ok (hw.party p) hcur).2.proposal remote hrem
    obtain ⟨hse, c', hpr'⟩ := hw.delivered_proposal hgot hord
    obtain ⟨r', hcur', hn, rfl⟩ := hw.peer_round hpt hcur hse hord
    have hna := hcom.of_side hcur hcur' hn.symm
    rw [hlo] at hna
    obtain ⟨own, hown⟩ := hw.confirmProposal_ok hpr hpr' hna
    have hca : call = callOf (w p).session.agreement.localCapability c call.proposal := hcal
    rw [← hca] at hown
    simp [Party.examineProposal, hown, Party.setPoint]
  · rename_i call own hpt
    rw [hpt] at hpo
    split at h
    · cases h
      simp [Party.setPoint]
    · obtain ⟨received, hrec, rfl⟩ := Option.map_eq_some_iff.1 h
      simp [Party.examineConfirm, hw.confirmation_matches hpo hrec, Party.setPoint]
  · cases h

/-! ## The result -/

/-- **Honest peers never contradict each other.** In every run in which two sides that take part in
a round have a candidate in common and no round's messages are delivered more often than the
receive limit: a message of the peer never stops a session (a first capability that comes after
its deadline apart), and never fails the call that reads it; the ordinals of the open rounds differ
by at most one; and a delivered message stays in the inbox of its round until that round is over. -/
theorem selection_consistent (H : Hasher) {w : World}
    (h : Reachable (step H) Initial (Honest H) w) :
    (∀ p e late w', step H w (p, .deliver e late) = some w' → Assumed w' →
        (w p).session.agreement.err = none →
        (w' p).session.agreement.err = none ∨
          (w' p).session.agreement.err = some (selectionDeadline .capabilityMissing)) ∧
      (∀ p w', step H w (p, .read) = some w' → ∀ err, (w' p).session.point ≠ .failing err) ∧
      (∀ p r, (w p).session.agreement.current = some r →
        match (w p.peer).session.agreement.current with
        | none => r.ordinal = 0
        | some r' => r.ordinal ≤ r'.ordinal + 1) ∧
      ∀ p, (w p).session.agreement.err = none → ∀ m, Carries (w p).delivered (.control m) →
        ∃ n, m.binding.ordinal = formatUint n ∧
          match (w p).session.agreement.current with
          | none => n = 0 ∧ (w p).session.agreement.future.Holds m
          | some r => n < r.ordinal ∨ n = r.ordinal ∧ r.remote.Holds m ∨
              n = r.ordinal + 1 ∧ (w p).session.agreement.future.Holds m := by
  have hw := reachable_ok h
  have hassumed := reachable_assumed h
  refine ⟨?_, ?_, ?_, ?_⟩
  · intro p e late w' hs hlim herr
    obtain ⟨⟨y, hy, rfl⟩, hnet⟩ := step_act hs
    cases hy
    have hlimited := hlim.limited (p := p)
    rw [Function.update_self] at hlimited ⊢
    exact hw.deliver_err (hnet e late rfl) herr hlimited
  · intro p w' hs err
    obtain ⟨⟨y, hy, rfl⟩, -⟩ := step_act hs
    rw [Function.update_self]
    exact hw.read_ok hassumed.1 hy err
  · intro p r hr
    have hopened := opened_of_current hr
    have hle := hw.opened_le (p := p)
    cases hcur : (w p.peer).session.agreement.current with
    | none =>
      have hzero : (w p.peer).session.agreement.opened = 0 := by
        rw [opened, core, hcur]
        rfl
      simp only
      omega
    | some r' =>
      have hopened' := opened_of_current hcur
      simp only
      omega
  · intro p herr m hm
    obtain ⟨n, hn, hle, hfut, hcurr⟩ := (hw.party p).inboxes.retained herr m hm
    refine ⟨n, hn, ?_⟩
    cases hcur : (w p).session.agreement.current with
    | none =>
      have hzero : (w p).session.agreement.opened = 0 := by
        rw [opened, core, hcur]
        rfl
      exact ⟨by omega, hfut (by omega)⟩
    | some r =>
      have hopened := opened_of_current hcur
      rcases lt_trichotomy n r.ordinal with hlt | heq | hgt
      · exact .inl hlt
      · exact .inr (.inl ⟨heq, hcurr r hcur heq.symm⟩)
      · exact .inr (.inr ⟨by omega, hfut (by omega)⟩)

theorem sampleRun_honest :
    (runFrom (step sampleHasher) (Honest sampleHasher) sampleWorld sampleRun).map
      (fun w => ((w .a).entered.map Decision.ordinal, (w .b).entered.map Decision.ordinal)) =
        some ([0], [0]) := by
  decide +kernel

theorem selection_consistent_sample :
    ∃ w, Reachable (step sampleHasher) Initial (Honest sampleHasher) w ∧
      (w .a).entered.map Decision.ordinal = [0] ∧ (w .b).entered.map Decision.ordinal = [0] ∧
      ∀ p w', step sampleHasher w (p, .read) = some w' → ∀ err, (w' p).session.point ≠ .failing err := by
  obtain ⟨w, hw, hent⟩ := Option.map_eq_some_iff.1 sampleRun_honest
  have hreach : Reachable (step sampleHasher) Initial (Honest sampleHasher) w :=
    .of_run (.start sampleWorld_initial) hw
  exact ⟨w, hreach, congrArg Prod.fst hent, congrArg Prod.snd hent,
    (selection_consistent sampleHasher hreach).2.1⟩

end Winkyou.Selection
