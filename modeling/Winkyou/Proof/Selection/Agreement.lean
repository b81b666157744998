import Winkyou.Lib.Table
import Winkyou.Lib.Transition
import Winkyou.Proof.Selection.Step

/-!
# Both sides agree on the strategy of every round

A session confirms a round only when a delivered confirmation of the peer names its own strategy
and digest, and the peer sends one confirmation a round.

* `selection_agreement`: two sides that confirm a round agree; a side enters only what its peer
  has confirmed, enters no round twice, and enters nothing once it has stopped.
-/

namespace Winkyou.Selection

open SelectionAgreement Transition List
open Function (proj_update update_of_ne update_self)

variable {H : Hasher} {x : Party} {w w' : World} {p : Side} {action : Action}

/-! ## The two sessions -/

@[simp] theorem peer_peer : p.peer.peer = p := by cases p <;> rfl

/-- The invariant of the two sessions and the network between them. -/
structure WorldOK (H : Hasher) (w : World) : Prop where
  party : ∀ p, PartyOK H (w p)
  network : ∀ p, (w p).delivered ⊆ (w p.peer).sent
  mirrored : ∀ p, (w p).session.cfg.Mirrored (w p.peer).session.cfg
  initiator : ∀ p, (w p.peer).session.cfg.initiator = !(w p).session.cfg.initiator

theorem newConverging_ok {cfg : Config} {epoch : Bytes} {a : SelectionAgreement}
    (h : newConverging cfg epoch = .ok a) :
    cfg.localNodeID ≠ cfg.peerID ∧ cfg.initiator = decide (cfg.localNodeID < cfg.peerID) ∧
      validateSelectionCapability a.localCapability = .ok () ∧
      receivedCapability a.localCapability = a.localCapability ∧
      a.remote = none ∧ a.current = none ∧ a.future = .empty ∧ a.err = none := by
  simp only [newConverging, Except.bind_ok_iff, Except.failIf_ok_iff] at h
  obtain ⟨_, hcfg, _, hva, h⟩ := h
  cases h
  simp only [Bool.or_eq_true, not_or, decide_eq_true_eq] at hcfg
  refine ⟨hcfg.1.1.2, not_not.1 hcfg.1.2, hva, ?_, rfl, rfl, rfl, rfl⟩
  have hid := normalizeCapability_idem cfg.localCapability
  simp only [receivedCapability, SelectionCapability.domainWire]
  rw [hid]

theorem Party.Fresh.ok (h : x.Fresh) : PartyOK H x := by
  obtain ⟨epoch, hnew, hpt, hse, hdel, hconf, hent⟩ := h
  obtain ⟨-, -, hva, hnor, hrem, hcur, hfut, herr⟩ := newConverging_ok hnew
  have hco : x.session.agreement.core = none := by rw [SelectionAgreement.core, hcur]; rfl
  have hno : ∀ payload, ¬ Carries x.sent payload := by simp [Carries, hse]
  refine {
    valid := hva, normal := hnor
    sent := {
      header := fun e he => by simp [Party.history, hse] at he
      capability := fun c hc => absurd hc (hno _)
      proposal := fun q hq => absurd hq (hno _)
      confirm := fun o ho => absurd ho (hno _)
      proposal_unique := fun q _ hq => absurd hq (hno _)
      confirm_unique := fun q _ hq => absurd hq (hno _) }
    round := fun r hr => by rw [hco] at hr; cases hr
    inboxes := {
      remote := fun r hr => by rw [hrem] at hr; cases hr
      current := fun r hr => by rw [hcur] at hr; cases hr
      future := by rw [hfut]; exact InboxOK.empty _ _
      retained := fun _ m hm => by simp [Carries, hdel] at hm
      kept := fun _ r hr => by rw [hcur] at hr; cases hr }
    decision := fun d hd => by rw [hconf] at hd; cases hd
    entered := fun d hd => by rw [hent] at hd; cases hd
    nodup := by rw [hent]; exact nodup_nil
    point := by
      rw [hpt]
      intro _ r hr
      rw [hco] at hr
      cases hr }

theorem initial_ok (h : Initial w) : WorldOK H w := by
  obtain ⟨hfr, hses, hlo, hpe⟩ := h
  obtain ⟨_, ha, -⟩ := hfr .a
  obtain ⟨_, hb, -⟩ := hfr .b
  obtain ⟨hne, hia, -⟩ := newConverging_ok ha
  obtain ⟨-, hib, -⟩ := newConverging_ok hb
  -- the side with the smaller node id is the initiator
  have hin : (w .b).session.cfg.initiator = !(w .a).session.cfg.initiator := by
    rw [hia, hib, hlo, hpe]
    rcases lt_or_gt_of_ne hne with hlt | hgt
    · simp [hlt, hlt.not_gt]
    · simp [hgt, hgt.not_gt]
  exact {
    party := fun p => (hfr p).ok
    network := fun p => by
      obtain ⟨_, -, -, -, hdel, -⟩ := hfr p
      rw [hdel]
      exact nil_subset _
    mirrored := fun p => by
      cases p with
      | a => exact ⟨hses, hlo, hpe⟩
      | b => exact ⟨hses.symm, hpe.symm, hlo.symm⟩
    initiator := fun p => by
      cases p with
      | a => exact hin
      | b =>
        change (w .a).session.cfg.initiator = !(w .b).session.cfg.initiator
        rw [hin, Bool.not_not] }

/-- A step is an action of one side; a delivery hands over what the peer sent. -/
theorem step_act {s : Side} (h : step H w (s, action) = some w') :
    (∃ y, (w s).act H action = some y ∧ w' = Function.update w s y) ∧
      ∀ e late, action = .deliver e late → e ∈ (w s.peer).sent := by
  unfold step at h
  split at h
  · rename_i hd
    obtain ⟨y, hy, rfl⟩ := Option.map_eq_some_iff.1 h
    refine ⟨⟨y, hy, rfl⟩, ?_⟩
    rintro e late rfl
    simpa [deliverable] using hd
  · cases h

theorem step_ok {act : Side × Action} (hw : WorldOK H w) (h : step H w act = some w') :
    WorldOK H w' := by
  obtain ⟨s, action⟩ := act
  obtain ⟨⟨y, hy, rfl⟩, hnet⟩ := step_act h
  obtain ⟨hok, heff⟩ := act_ok (hw.party s) hy
  have hcfg := proj_update (fun z : Party => z.session.cfg) (x := w) heff.cfg
  exact {
    party := by
      intro p
      rcases eq_or_ne p s with rfl | hp
      · rw [update_self]
        exact hok
      · rw [update_of_ne hp]
        exact hw.party p
    network := by
      -- what was sent stays sent, and a new delivery is something the peer sent
      have hse : ∀ p, (w p).sent ⊆ (Function.update w s y p).sent := by
        intro p
        rcases eq_or_ne p s with rfl | hp
        · rw [update_self]
          exact heff.sent
        · rw [update_of_ne hp]
          exact List.Subset.refl _
      intro p
      refine List.Subset.trans ?_ (hse p.peer)
      rcases eq_or_ne p s with rfl | hp
      · rw [update_self]
        rcases heff.delivered with heq | ⟨e, late, hact, heq⟩
        · rw [heq]
          exact hw.network p
        · rw [heq]
          exact cons_subset.2 ⟨hnet e late hact, hw.network p⟩
      · rw [update_of_ne hp]
        exact hw.network p
    mirrored := fun p => by rw [hcfg p, hcfg p.peer]; exact hw.mirrored p
    initiator := fun p => by rw [hcfg p, hcfg p.peer]; exact hw.initiator p }

theorem reachable_ok {ok : World → Side × Action → Prop} (h : Reachable (step H) Initial ok w) :
    WorldOK H w :=
  h.invariant (fun _ => initial_ok) fun _ _ _ _ hw _ hs => step_ok hw hs

/-! ## Agreement -/

theorem WorldOK.peer_sent (hw : WorldOK H w) {d : Decision} (hd : d ∈ (w p).confirmed) :
    ∃ c, Carries (w p.peer).sent (.control (.confirm c)) ∧ c.ordinal = formatUint d.ordinal ∧
      c.strategy = d.strategy ∧ c.digest = d.digest := by
  obtain ⟨c, hc, hre⟩ := ((hw.party p).decision d hd).peer
  exact ⟨c, hc.mono (hw.network p), hre⟩

/-- **Two sides that confirm a round agree on it.** -/
theorem WorldOK.agree (hw : WorldOK H w) {d d' : Decision} (hd : d ∈ (w p).confirmed)
    (hd' : d' ∈ (w p.peer).confirmed) (hn : d.ordinal = d'.ordinal) :
    d.strategy = d'.strategy ∧ d.digest = d'.digest := by
  obtain ⟨c, hc, hord, hstr, hdig⟩ := hw.peer_sent hd
  obtain ⟨own, hown, hord', hstr', hdig'⟩ := ((hw.party p.peer).decision d' hd').own
  have heq : c = own := (hw.party p.peer).sent.confirm_unique c own hc hown (by rw [hord, hord', hn])
  rw [← hstr, ← hdig, heq]
  exact ⟨hstr', hdig'⟩

/-- **Strategy selection agreement.** In every state of every run: two sides that confirm a round
agree on its strategy and digest; whatever a side entered, its peer has sent a confirmation of; no
round is entered twice; and a side that stopped stays stopped and enters nothing more. -/
theorem selection_agreement (H : Hasher) {w : World}
    (h : Reachable (step H) Initial (fun _ _ => True) w) :
    (∀ p, ∀ d ∈ (w p).confirmed, ∀ d' ∈ (w p.peer).confirmed, d.ordinal = d'.ordinal →
        d.strategy = d'.strategy ∧ d.digest = d'.digest) ∧
      (∀ p, ∀ d ∈ (w p).entered, ∃ c, Carries (w p.peer).sent (.control (.confirm c)) ∧
        c.ordinal = formatUint d.ordinal ∧ c.strategy = d.strategy ∧ c.digest = d.digest) ∧
      (∀ p, ((w p).entered.map Decision.ordinal).Nodup) ∧
      ∀ p act w', step H w act = some w' → (w p).session.agreement.err ≠ none →
        (w' p).session.agreement.err = (w p).session.agreement.err ∧ (w' p).entered = (w p).entered := by
  have hw := reachable_ok h
  refine ⟨?_, ?_, fun p => (hw.party p).nodup, ?_⟩
  · intro p d hd d' hd' hn
    exact hw.agree hd hd' hn
  · intro p d hd
    exact hw.peer_sent ((hw.party p).entered d hd)
  · rintro p ⟨s, action⟩ w' hs herr
    obtain ⟨⟨y, hy, rfl⟩, -⟩ := step_act hs
    rcases eq_or_ne p s with rfl | hp
    · rw [update_self]
      exact (act_ok (hw.party p) hy).effect.stopped herr
    · rw [update_of_ne hp]
      exact ⟨rfl, rfl⟩

/-! ## A run -/

def sampleHasher : Hasher := ⟨fun _ => replicate 32 7, fun _ => length_replicate⟩

def sampleConfig : Side → Config
  | .a => ⟨"session", "node-a", "node-b", true, second, ⟨["ice", "tcp"], []⟩⟩
  | .b => ⟨"session", "node-b", "node-a", false, second, ⟨["tcp", "ice"], []⟩⟩

/-- The agreement of each side at the start. -/
def sampleAgreement (p : Side) : SelectionAgreement :=
  (newConverging (sampleConfig p) (replicate 16 (match p with | .a => 10 | .b => 11))).toOption.getD
    ⟨⟨[], [], "", ""⟩, none, none, .empty, none, false, true, none, []⟩

def sampleWorld : World := fun p => ⟨⟨sampleConfig p, sampleAgreement p, .idle⟩, [], [], [], []⟩

def sampleEnvelope (p : Side) (payload : Payload) : Envelope :=
  ⟨"session", (sampleConfig p).localNodeID, (sampleConfig p).peerID, payload⟩

def sampleProposal (p : Side) : SelectionProposal :=
  proposalOf sampleHasher (sampleAgreement p).localCapability (sampleAgreement p.peer).localCapability
    (match p with | .a => ["ice", "tcp"] | .b => ["tcp", "ice"]) 0 ""

def sampleConfirmation (p : Side) : SelectionConfirmation :=
  { toSelectionBinding := (sampleProposal p).toSelectionBinding, strategy := "ice"
    digest := String.ofList (hexEncode (replicate 32 7)) }

/-- Side `a` confirms and enters before `b` has read the confirmation of `a`; some messages arrive
twice, and the proposal of `a` comes before its capability. -/
def sampleRun : List (Side × Action) :=
  let deliver (p : Side) (payload : Payload) := (p, Action.deliver (sampleEnvelope p.peer payload) false)
  [(.a, .sendCapability none false), (.b, .sendCapability none false),
    deliver .a (.capability (sampleAgreement .b).localCapability),
    (.a, .agree ["ice", "tcp"]), (.a, .openRound), (.a, .send none false),
    deliver .b (.control (.proposal (sampleProposal .a))),
    deliver .b (.capability (sampleAgreement .a).localCapability),
    (.b, .agree ["tcp", "ice"]), (.b, .openRound), (.b, .send none false), (.b, .read),
    (.b, .send none false),
    deliver .a (.control (.confirm (sampleConfirmation .b))),
    deliver .a (.control (.proposal (sampleProposal .b))),
    deliver .a (.control (.proposal (sampleProposal .b))),
    (.a, .read), (.a, .send none false), (.a, .read), (.a, .commit false), (.a,
    .enter ⟨0, "ice", true⟩ none false), deliver .b (.control (.confirm (sampleConfirmation .a))),
    (.b, .read), (.b, .commit false), (.b, .enter ⟨1, "ice", true⟩ none false)]

theorem sampleWorld_initial : Initial sampleWorld := by
  refine ⟨?_, rfl, rfl, rfl⟩
  intro p
  cases p with
  | a => exact ⟨replicate 16 10, by decide +kernel, rfl, rfl, rfl, rfl, rfl⟩
  | b => exact ⟨replicate 16 11, by decide +kernel, rfl, rfl, rfl, rfl, rfl⟩

def sampleResult : Option World :=
  runFrom (step sampleHasher) (fun _ _ => True) sampleWorld sampleRun

theorem sampleResult_entered :
    sampleResult.map (fun w => ((w .a).entered.map Decision.ordinal,
      (w .b).entered.map Decision.ordinal)) =
      some ([0], [0]) := by
  decide +kernel

theorem selection_agreement_sample :
    ∃ w, Reachable (step sampleHasher) Initial (fun _ _ => True) w ∧
      (w .a).entered.map Decision.ordinal = [0] ∧ (w .b).entered.map Decision.ordinal = [0] ∧
      ∀ d ∈ (w .a).confirmed, ∀ d' ∈ (w .b).confirmed, d.ordinal = d'.ordinal →
        d.strategy = d'.strategy ∧ d.digest = d'.digest := by
  obtain ⟨w, hw, hent⟩ := Option.map_eq_some_iff.1 sampleResult_entered
  have hreach : Reachable (step sampleHasher) Initial (fun _ _ => True) w :=
    .of_run (.start sampleWorld_initial) hw
  exact ⟨w, hreach, congrArg Prod.fst hent, congrArg Prod.snd hent,
    (selection_agreement sampleHasher hreach).1 .a⟩

/-! ## Validity -/

/-- What a session confirms, it has proposed and can do. -/
theorem PartyOK.offered (hx : PartyOK H x) {o : SelectionConfirmation}
    (ho : Carries x.sent (.control (.confirm o))) :
    ∃ a, Carries x.sent (.control (.proposal a)) ∧ a.ordinal = o.ordinal ∧
      o.strategy ∈ a.strategies ∧ o.strategy ∈ x.session.agreement.localCapability.strategies := by
  obtain ⟨n, -, hco⟩ := hx.sent.confirm o ho
  have hord := hco.ordinal
  obtain ⟨c, a, remote, ha, hsent, -, hok⟩ := hco
  obtain ⟨-, -, joint, hjoint, hstr, -⟩ := confirmProposal_ok hok
  have hmem : o.strategy ∈ a.strategies := hstr ▸ jointSelection_order hjoint
  exact ⟨a, hsent, ha.ordinal.trans hord.symm, hmem, (ha.names _ hmem).1⟩

/-- **Selection is valid, and no session equivocates.** In every state of every run: what a side has
confirmed, both sides have proposed in that round, and both can do it; and a session sends at most
one proposal and one confirmation a round, whatever the network does. -/
theorem selection_valid (H : Hasher) :
    (∀ w, Reachable (step H) Initial (fun _ _ => True) w → ∀ p q, ∀ d ∈ (w p).confirmed,
      ∃ a, Carries (w q).sent (.control (.proposal a)) ∧ a.ordinal = formatUint d.ordinal ∧
        d.strategy ∈ a.strategies ∧
        d.strategy ∈ (w q).session.agreement.localCapability.strategies) ∧
    ∀ w, Reachable (step H) Initial (fun _ _ => True) w → ∀ p,
      (∀ a b, Carries (w p).sent (.control (.proposal a)) → Carries (w p).sent (.control (.proposal b)) →
        a.ordinal = b.ordinal → a = b) ∧
      ∀ a b, Carries (w p).sent (.control (.confirm a)) →
        Carries (w p).sent (.control (.confirm b)) → a.ordinal = b.ordinal → a = b := by
  constructor
  · intro w h p q d hd
    have hw := reachable_ok h
    obtain ⟨o, ho, hord, hstr, -⟩ : ∃ o, Carries (w q).sent (.control (.confirm o)) ∧
        o.ordinal = formatUint d.ordinal ∧ o.strategy = d.strategy ∧ o.digest = d.digest := by
      obtain rfl | rfl : q = p ∨ q = p.peer := by cases p <;> cases q <;> simp [Side.peer]
      · exact ((hw.party q).decision d hd).own
      · exact hw.peer_sent hd
    rw [← hord, ← hstr]
    exact (hw.party q).offered ho
  · intro w h p
    have hsent := ((reachable_ok h).party p).sent
    exact ⟨hsent.proposal_unique, hsent.confirm_unique⟩

/-- The sample run: what `a` has confirmed, `b` has proposed. -/
theorem selection_valid_sample : ∃ w, Reachable (step sampleHasher) Initial (fun _ _ => True) w ∧
    (w .a).confirmed ≠ [] ∧ ∀ d ∈ (w .a).confirmed,
      ∃ a, Carries (w .b).sent (.control (.proposal a)) ∧ d.strategy ∈ a.strategies := by
  have hconfirmed : sampleResult.map (fun w => (w .a).confirmed.length) = some 1 := by decide +kernel
  obtain ⟨w, hw, hlen⟩ := Option.map_eq_some_iff.1 hconfirmed
  have hreach : Reachable (step sampleHasher) Initial (fun _ _ => True) w :=
    .of_run (.start sampleWorld_initial) hw
  refine ⟨w, hreach, ne_nil_of_length_pos (by omega), fun d hd => ?_⟩
  obtain ⟨a, hsent, -, hstrategy, -⟩ := (selection_valid sampleHasher).1 w hreach .a .b d hd
  exact ⟨a, hsent, hstrategy⟩

end Winkyou.Selection
