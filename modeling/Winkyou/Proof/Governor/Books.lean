import Winkyou.Lib.Table
import Winkyou.Proof.Governor.Limits

/-!
# The reservation books

What the accounting of a governor is about, without its goroutines: which peers and attempts
are open, what they reserve, and the totals kept of it. The books know five entries (a peer or
an attempt is opened, a peer is closed and later dropped, an attempt is released) and the
final wipe.

* `Books.Exact`: the totals are the sums over the open attempts, the maps hold exactly the open
  attempts, and every limit is respected.
* `Exact.openAttempt`, `Exact.release`, …: every entry keeps the books exact.

`Proof/Governor/Sections.lean` shows that the sections of the governor only make such entries.
-/

namespace Winkyou.Governor

open List AList
open PeerLease (closed peerID)
open Function (proj_update update update_of_ne update_self)

/-- What the books read of an attempt. -/
structure Booking where
  peer : PeerRef
  request : AttemptRequest
  closed : Bool

structure Books where
  limits : Limits
  peers : GoMap PeerRef
  attempts : GoMap AttemptRef
  reserved : Resources
  heavyweightAttempts : ℤ
  peer : PeerRef → PeerLease
  peerCount : ℕ
  booking : AttemptRef → Booking
  attemptCount : ℕ

namespace Books

variable {b : Books} {p : PeerRef} {a : AttemptRef} {id : String} {k : Resource}

/-- An attempt that was admitted and not released. -/
def Open (b : Books) (a : AttemptRef) : Prop := a < b.attemptCount ∧ (b.booking a).closed = false

def attemptID (b : Books) (a : AttemptRef) : String := (b.booking a).request.id

def cost (b : Books) (a : AttemptRef) : Resources := (b.booking a).request.cost.resources

/-- One for a heavyweight attempt. -/
def weight (b : Books) (a : AttemptRef) : ℤ :=
  if (b.booking a).request.cost.heavyweight then 1 else 0

/-! ## Entries -/

def openPeer (b : Books) (peerID : String) : Books :=
  { b with
    peers := b.peers.insert peerID b.peerCount
    peer := update b.peer b.peerCount { peerID := peerID }
    peerCount := b.peerCount + 1 }

def closePeer (b : Books) (p : PeerRef) : Books :=
  { b with peer := update b.peer p { b.peer p with closed := true } }

def dropPeer (b : Books) (p : PeerRef) : Books :=
  { b with peers := b.peers.erase (b.peer p).peerID }

def openAttempt (b : Books) (p : PeerRef) (request : AttemptRequest) : Books :=
  { b with
    booking := update b.booking b.attemptCount ⟨p, request, false⟩
    attemptCount := b.attemptCount + 1
    peer := update b.peer p
      { b.peer p with attempts := (b.peer p).attempts.insert request.id b.attemptCount }
    attempts := b.attempts.insert request.id b.attemptCount
    reserved := b.reserved.add request.cost.resources
    heavyweightAttempts := b.heavyweightAttempts + if request.cost.heavyweight then 1 else 0 }

/-- The attempt is closed, and its resources are given back. -/
def release (b : Books) (a : AttemptRef) : Books :=
  let l := b.booking a
  { b with
    booking := update b.booking a { l with closed := true }
    attempts := b.attempts.erase l.request.id
    peer := update b.peer l.peer
      { b.peer l.peer with attempts := (b.peer l.peer).attempts.erase l.request.id }
    reserved := b.reserved.subtract l.request.cost.resources
    heavyweightAttempts := b.heavyweightAttempts - if l.request.cost.heavyweight then 1 else 0 }

def wipe (b : Books) : Books :=
  { b with peers := ∅, attempts := ∅, reserved := {}, heavyweightAttempts := 0 }

def reorder (b : Books) (peers : GoMap PeerRef) (attempts : GoMap AttemptRef) : Books :=
  { b with peers := peers, attempts := attempts }

def reorderPeer (b : Books) (p : PeerRef) (attempts : GoMap AttemptRef) : Books :=
  { b with peer := update b.peer p { b.peer p with attempts := attempts } }

section Fields

variable {request : AttemptRequest}

theorem openPeer_peer : (b.openPeer id).peer = update b.peer b.peerCount { peerID := id } := rfl
theorem openPeer_peers : (b.openPeer id).peers = b.peers.insert id b.peerCount := rfl
/-- Only the map of peers changes. -/
theorem dropPeer_peers : (b.dropPeer p).peers = b.peers.erase (b.peer p).peerID := rfl
theorem openAttempt_peer : (b.openAttempt p request).peer = update b.peer p
    { b.peer p with attempts := (b.peer p).attempts.insert request.id b.attemptCount } := rfl
theorem openAttempt_attempts : (b.openAttempt p request).attempts =
    b.attempts.insert request.id b.attemptCount := rfl
theorem release_booking : (b.release a).booking =
    update b.booking a { b.booking a with closed := true } := rfl
theorem release_peer :
    (b.release a).peer = update b.peer (b.booking a).peer { b.peer (b.booking a).peer with
      attempts := (b.peer (b.booking a).peer).attempts.erase (b.booking a).request.id } := rfl
theorem release_attempts : (b.release a).attempts = b.attempts.erase (b.booking a).request.id := rfl

end Fields

/-! ## Exact books -/

/-- **The books are exact.** -/
structure Exact (b : Books) : Prop where
  limitsOK : LimitsOK b.limits
  /-- `attempts` holds the open attempts under their ids. -/
  attempts_index : b.attempts.Indexes b.Open b.attemptID
  /-- The map of a peer holds its open attempts under their ids. -/
  peer_index : ∀ p, (b.peer p).attempts.Indexes (fun a => b.Open a ∧ (b.booking a).peer = p) b.attemptID
  peer_found : ∀ id p, b.peers.lookup id = some p → p < b.peerCount ∧ (b.peer p).peerID = id
  peer_stored : ∀ p, p < b.peerCount → (b.peer p).closed = false →
    b.peers.lookup (b.peer p).peerID = some p
  attempt_peer : ∀ a, b.Open a → (b.booking a).peer < b.peerCount ∧
    b.peers.lookup (b.peer (b.booking a).peer).peerID = some (b.booking a).peer
  reserved_eq : ∀ k, b.reserved.get k = b.attempts.total fun a => (b.cost a).get k
  heavyweight_eq : b.heavyweightAttempts = b.attempts.total b.weight
  cost_nonneg : ∀ a, b.Open a → ∀ k, 0 ≤ (b.cost a).get k
  reserved_le : ∀ k, b.reserved.get k ≤ b.limits.aggregate.get k
  attempts_le : b.attempts.entries.length ≤ b.limits.maxActiveAttempts
  perPeer_le : ∀ p, (b.peer p).attempts.entries.length ≤ b.limits.maxAttemptsPerPeer
  peers_le : b.peers.entries.length ≤ b.limits.maxActivePeers
  heavyweight_le : b.heavyweightAttempts ≤ b.limits.maxHeavyweightAttempts

theorem Exact.reserved_nonneg (h : b.Exact) (k : Resource) : 0 ≤ b.reserved.get k := by
  rw [h.reserved_eq k]
  exact total_nonneg fun id a hfo => h.cost_nonneg a ((h.attempts_index id a).1 hfo).1 k

theorem weight_nonneg : 0 ≤ b.weight a := by
  unfold weight
  split <;> decide

theorem Exact.heavyweight_nonneg (h : b.Exact) : 0 ≤ b.heavyweightAttempts := by
  rw [h.heavyweight_eq]
  exact total_nonneg fun _ _ _ => weight_nonneg

/-! ## Peers -/

theorem Exact.openPeer (h : b.Exact) (hnew : id ∉ b.peers)
    (hro : b.peers.entries.length < b.limits.maxActivePeers) : (b.openPeer id).Exact := by
  have hold : ∀ q, q < b.peerCount → (b.openPeer id).peer q = b.peer q := by
    intro q hq
    exact update_of_ne hq.ne _ _
  -- a new peer has no attempts, and neither had the unallocated reference
  have hmap : ∀ q, ((b.openPeer id).peer q).attempts = (b.peer q).attempts := by
    intro q
    rcases eq_or_ne q b.peerCount with rfl | hq
    swap
    · rw [openPeer_peer, update_of_ne hq]
    rw [openPeer_peer, update_self]
    symm
    apply ext
    rw [empty_entries, entries_eq_nil_iff]
    intro id'
    cases hfo : (b.peer b.peerCount).attempts.lookup id' with
    | none => rfl
    | some a =>
      obtain ⟨⟨ha, hpe⟩, -⟩ := (h.peer_index _ _ _).1 hfo
      have hlt := (h.attempt_peer a ha).1
      rw [hpe] at hlt
      exact absurd hlt (lt_irrefl _)
  have hloo : ∀ id' q, b.peers.lookup id' = some q → (b.openPeer id).peers.lookup id' = some q := by
    intro id' q hq
    have hne : id' ≠ id := by
      rintro rfl
      exact hnew (lookup_isSome.1 (by rw [hq]; rfl))
    rw [openPeer_peers, lookup_insert_ne hne, hq]
  refine { h with peer_index := ?_, peer_found := ?_, peer_stored := ?_, attempt_peer := ?_, perPeer_le := ?_, peers_le := ?_ }
  · intro q
    rw [hmap]
    exact h.peer_index q
  · intro id' q hq
    rcases eq_or_ne id' id with rfl | hne
    · rw [openPeer_peers, lookup_insert] at hq
      cases hq
      exact ⟨Nat.lt_succ_self _, by rw [openPeer_peer, update_self]⟩
    · rw [openPeer_peers, lookup_insert_ne hne] at hq
      obtain ⟨hlt, hid⟩ := h.peer_found id' q hq
      rw [hold q hlt]
      exact ⟨Nat.lt_succ_of_lt hlt, hid⟩
  · intro q hq hop
    rcases Nat.lt_succ_iff_lt_or_eq.1 hq with hlt | rfl
    · rw [hold q hlt] at hop ⊢
      exact hloo _ _ (h.peer_stored q hlt hop)
    · rw [openPeer_peer, openPeer_peers, update_self, lookup_insert]
  · intro a ha
    obtain ⟨hlt, hfo⟩ := h.attempt_peer a ha
    refine ⟨Nat.lt_succ_of_lt hlt, ?_⟩
    change (b.openPeer id).peers.lookup ((b.openPeer id).peer (b.booking a).peer).peerID = _
    rw [hold _ hlt]
    exact hloo _ _ hfo
  · intro q
    rw [hmap]
    exact h.perPeer_le q
  · rw [openPeer_peers, length_insert hnew]
    exact hro

/-- A peer's lease may be closed and its attempts stored in another order. -/
theorem Exact.setPeer {lease : PeerLease} (h : b.Exact) (hpe : lease.peerID = (b.peer p).peerID)
    (hopen : lease.closed = false → (b.peer p).closed = false)
    (ha : lease.attempts.entries.Perm (b.peer p).attempts.entries) :
    Exact { b with peer := update b.peer p lease } := by
  have hid : ∀ q, (update b.peer p lease q).peerID = (b.peer q).peerID :=
    proj_update peerID hpe
  refine { h with
    peer_index := ?_, peer_found := ?_, peer_stored := ?_, attempt_peer := ?_, perPeer_le := ?_ }
  · intro q
    show (update b.peer p lease q).attempts.Indexes _ _
    rcases eq_or_ne q p with rfl | hq
    · rw [update_self]
      intro id a
      rw [perm_lookup ha]
      exact h.peer_index q id a
    · rw [update_of_ne hq]
      exact h.peer_index q
  · intro id q hfo
    rw [hid]
    exact h.peer_found id q hfo
  · intro q hlt hop
    rw [hid]
    apply h.peer_stored q hlt
    change (update b.peer p lease q).closed = false at hop
    rcases eq_or_ne q p with rfl | hq
    · rw [update_self] at hop
      exact hopen hop
    · rwa [update_of_ne hq] at hop
  · intro a hop
    rw [hid]
    exact h.attempt_peer a hop
  · intro q
    show ((update b.peer p lease q).attempts.entries.length : ℤ) ≤ _
    rcases eq_or_ne q p with rfl | hq
    · rw [update_self, ha.length_eq]
      exact h.perPeer_le q
    · rw [update_of_ne hq]
      exact h.perPeer_le q

theorem Exact.closePeer (h : b.Exact) : (b.closePeer p).Exact :=
  h.setPeer rfl nofun (.refl _)

/-- A closed peer without attempts can be dropped from the map. -/
theorem Exact.dropPeer (h : b.Exact) (hsto : b.peers.lookup (b.peer p).peerID = some p)
    (hclo : (b.peer p).closed = true) (hid : (b.peer p).attempts.entries = []) :
    (b.dropPeer p).Exact := by
  -- the other peers stay under their ids
  have hke : ∀ q, q ≠ p → b.peers.lookup (b.peer q).peerID = some q →
      (b.dropPeer p).peers.lookup (b.peer q).peerID = some q := by
    intro q hne hq
    rw [dropPeer_peers, lookup_erase_ne, hq]
    intro heq
    rw [heq, hsto] at hq
    exact hne (Option.some.inj hq).symm
  refine { h with peer_found := ?_, peer_stored := ?_, attempt_peer := ?_, peers_le := ?_ }
  · intro id' q hq
    rcases eq_or_ne id' (b.peer p).peerID with rfl | hne
    · rw [dropPeer_peers, lookup_erase] at hq
      cases hq
    · rw [dropPeer_peers, lookup_erase_ne hne] at hq
      exact h.peer_found id' q hq
  · intro q hq hop
    apply hke q _ (h.peer_stored q hq hop)
    rintro rfl
    rw [show (b.dropPeer q).peer q = b.peer q from rfl, hclo] at hop
    cases hop
  · intro a ha
    obtain ⟨hlt, hfo⟩ := h.attempt_peer a ha
    refine ⟨hlt, hke _ ?_ hfo⟩
    rintro heq
    have hin := (h.peer_index p _ a).2 ⟨⟨ha, heq⟩, rfl⟩
    rw [entries_eq_nil_iff.1 hid] at hin
    cases hin
  · have hlen := length_erase hsto
    have hle := h.peers_le
    change ((b.peers.erase (b.peer p).peerID).entries.length : ℤ) ≤ b.limits.maxActivePeers
    omega

/-! ## Attempts -/

/-- What `validateAttemptLocked` and the checks before it establish. -/
structure Admissible (b : Books) (p : PeerRef) (request : AttemptRequest) : Prop where
  peer_allocated : p < b.peerCount
  peer_open : (b.peer p).closed = false
  id_new : request.id ∉ b.attempts
  room : b.attempts.entries.length < b.limits.maxActiveAttempts
  peer_room : (b.peer p).attempts.entries.length < b.limits.maxAttemptsPerPeer
  cost_nonneg : ∀ k, 0 ≤ request.cost.resources.get k
  cost_le : ∀ k, request.cost.resources.get k ≤ b.limits.perAttempt.get k
  within : ∀ k, (b.reserved.add request.cost.resources).get k ≤ b.limits.aggregate.get k
  heavyweight_room : request.cost.heavyweight = true →
    b.heavyweightAttempts < b.limits.maxHeavyweightAttempts

/-- **The sum the validator checks does not overflow.** -/
theorem Exact.add_exact {request : AttemptRequest} (h : b.Exact)
    (hnon : ∀ k, 0 ≤ request.cost.resources.get k)
    (hle : ∀ k, request.cost.resources.get k ≤ b.limits.perAttempt.get k) (k : Resource) :
    (b.reserved.add request.cost.resources).get k = b.reserved.get k + request.cost.resources.get
      k := by
  rw [Resources.get_add]
  have h₁ := h.reserved_nonneg k
  have h₂ := (h.reserved_le k).trans (h.limitsOK.aggregate_le k)
  have h₃ := hnon k
  have h₄ := (hle k).trans (h.limitsOK.perAttempt_le k)
  apply int64_of_range <;> omega

section OpenAttempt

variable {request : AttemptRequest}

variable {a' : AttemptRef}

theorem openAttempt_booking_of_ne (hne : a' ≠ b.attemptCount) :
    (b.openAttempt p request).booking a' = b.booking a' :=
  update_of_ne hne _ _

theorem openAttempt_booking_self :
    (b.openAttempt p request).booking b.attemptCount = ⟨p, request, false⟩ :=
  update_self _ _ _

theorem open_openAttempt : (b.openAttempt p request).Open a' ↔ b.Open a' ∨ a' = b.attemptCount := by
  rcases eq_or_ne a' b.attemptCount with rfl | hne
  · simp [Open, openAttempt]
  · simp only [Open, openAttempt_booking_of_ne hne, hne, or_false]
    have hlt : a' < b.attemptCount + 1 ↔ a' < b.attemptCount :=
      ⟨fun h => (Nat.lt_succ_iff_lt_or_eq.1 h).resolve_right hne, Nat.lt_succ_of_lt⟩
    exact and_congr_left fun _ => hlt

/-- What a map over attempts adds up to after a new attempt came under a new id. -/
theorem total_openAttempt (h : b.Exact) (hnew : request.id ∉ b.attempts) {f : Booking → ℤ} :
    (b.openAttempt p request).attempts.total (fun a => f ((b.openAttempt p request).booking a)) =
      f ⟨p, request, false⟩ + b.attempts.total fun a => f (b.booking a) := by
  rw [openAttempt_attempts, total_insert hnew, openAttempt_booking_self]
  congr 1
  apply total_congr
  intro id a hfo
  have hlt := ((h.attempts_index id a).1 hfo).1.1
  rw [openAttempt_booking_of_ne hlt.ne]

/-- **Opening an attempt keeps the books exact.** -/
theorem Exact.openAttempt (h : b.Exact) (hadm : b.Admissible p request) :
    (b.openAttempt p request).Exact := by
  have hsum := h.add_exact hadm.cost_nonneg hadm.cost_le
  have hid : ∀ q, ((b.openAttempt p request).peer q).peerID = (b.peer q).peerID :=
    proj_update peerID rfl
  have hfr : ∀ a, b.Open a → a ≠ b.attemptCount := fun a ha => ha.1.ne
  have hkey : ∀ a, b.Open a → (b.openAttempt p request).attemptID a = b.attemptID a := by
    intro a ha
    rw [attemptID, openAttempt_booking_of_ne (hfr a ha)]
    rfl
  have hkeyN : (b.openAttempt p request).attemptID b.attemptCount = request.id := by
    rw [attemptID, openAttempt_booking_self]
  -- the new id is free in the peer's map as well
  have hpee : request.id ∉ (b.peer p).attempts := by
    rw [(h.peer_index p).notMem_iff]
    intro a ha
    exact h.attempts_index.notMem_iff.1 hadm.id_new a ha.1
  refine { h with
    attempts_index := ?_, peer_index := ?_, peer_found := ?_, peer_stored := ?_, attempt_peer := ?_
    reserved_eq := ?_, heavyweight_eq := ?_, cost_nonneg := ?_, reserved_le := hadm.within
    attempts_le := ?_, perPeer_le := ?_, heavyweight_le := ?_ }
  · exact h.attempts_index.insert hadm.id_new (fun a => open_openAttempt) hkey hkeyN
  · intro q
    have hof : ∀ a, (b.openAttempt p request).Open a ∧ ((b.openAttempt p request).booking a).peer = q ↔
        b.Open a ∧ (b.booking a).peer = q ∨ a = b.attemptCount ∧ p = q := by
      intro a
      rw [open_openAttempt]
      rcases eq_or_ne a b.attemptCount with rfl | hne
      · simp [openAttempt_booking_self, Open]
      · simp [openAttempt_booking_of_ne hne, hne]
    rcases eq_or_ne q p with rfl | hq
    · rw [openAttempt_peer, update_self]
      exact (h.peer_index q).insert hpee (by simpa using hof) (fun a ha => hkey a ha.1) hkeyN
    · rw [openAttempt_peer, update_of_ne hq]
      exact (h.peer_index q).congr (by simpa [hq.symm] using hof) (fun a ha => hkey a ha.1)
  · intro id' q hq
    rw [hid]
    exact h.peer_found id' q hq
  · intro q hq hop
    rw [hid]
    apply h.peer_stored q hq
    rcases eq_or_ne q p with rfl | hne
    · exact hadm.peer_open
    · rwa [openAttempt_peer, update_of_ne hne] at hop
  · intro a ha
    rw [hid]
    rcases open_openAttempt.1 ha with hop | rfl
    · rw [openAttempt_booking_of_ne (hfr a hop)]
      exact h.attempt_peer a hop
    · rw [openAttempt_booking_self]
      exact ⟨hadm.peer_allocated, h.peer_stored p hadm.peer_allocated hadm.peer_open⟩
  · intro k
    have hto := total_openAttempt (p := p) h hadm.id_new
      (f := fun l => l.request.cost.resources.get k)
    refine (hsum k).trans ?_
    rw [h.reserved_eq k, add_comm]
    exact hto.symm
  · have hto := total_openAttempt (p := p) h hadm.id_new
      (f := fun l => if l.request.cost.heavyweight then 1 else 0)
    have hold := h.heavyweight_eq
    change b.heavyweightAttempts + _ = _
    rw [hold, add_comm]
    exact hto.symm
  · intro a ha k
    rcases open_openAttempt.1 ha with hop | rfl
    · rw [cost, openAttempt_booking_of_ne (hfr a hop)]
      exact h.cost_nonneg a hop k
    · rw [cost, openAttempt_booking_self]
      exact hadm.cost_nonneg k
  · rw [openAttempt_attempts, length_insert hadm.id_new]
    exact hadm.room
  · intro q
    rcases eq_or_ne q p with rfl | hq
    · rw [openAttempt_peer, update_self, length_insert hpee]
      exact hadm.peer_room
    · rw [openAttempt_peer, update_of_ne hq]
      exact h.perPeer_le q
  · change b.heavyweightAttempts + (if request.cost.heavyweight then 1 else 0) ≤
      b.limits.maxHeavyweightAttempts
    split_ifs with hhe
    · exact hadm.heavyweight_room hhe
    · rw [add_zero]
      exact h.heavyweight_le

end OpenAttempt

section Release

theorem release_booking_request :
    ∀ a', ((b.release a).booking a').request = (b.booking a').request :=
  proj_update Booking.request rfl

theorem release_booking_peer : ∀ a', ((b.release a).booking a').peer = (b.booking a').peer :=
  proj_update Booking.peer rfl

theorem open_release : (b.release a).Open a' ↔ b.Open a' ∧ a' ≠ a := by
  rcases eq_or_ne a' a with rfl | hne
  · simp [Open, release_booking]
  · simp only [Open, release_booking, update_of_ne hne, hne, ne_eq, not_false_eq_true, and_true]
    rfl

/-- **A release keeps the books exact**: it takes back what the attempt had reserved. -/
theorem Exact.release (h : b.Exact) (ha : b.Open a) : (b.release a).Exact := by
  have hkey : ∀ a', (b.release a).attemptID a' = b.attemptID a' := by
    intro a'
    rw [attemptID, release_booking_request]
    rfl
  have hco : (b.release a).cost = b.cost := by
    funext a'
    rw [cost, release_booking_request]
    rfl
  have hwei : (b.release a).weight = b.weight := by
    funext a'
    rw [weight, release_booking_request]
    rfl
  have hid : ∀ q, ((b.release a).peer q).peerID = (b.peer q).peerID :=
    proj_update peerID rfl
  have hclo : ∀ q, ((b.release a).peer q).closed = (b.peer q).closed :=
    proj_update closed rfl
  have hfo : b.attempts.lookup (b.booking a).request.id = some a := h.attempts_index.lookup ha
  have hfou : (b.peer (b.booking a).peer).attempts.lookup (b.booking a).request.id = some a :=
    (h.peer_index _).lookup ⟨ha, rfl⟩
  have hin : (b.release a).attempts.Indexes (b.release a).Open (b.release a).attemptID :=
    h.attempts_index.erase ha (fun a' => open_release) (fun a' _ => hkey a')
  have hcos : ∀ a', (b.release a).Open a' → ∀ k, 0 ≤ (b.cost a').get k :=
    fun a' ha' => h.cost_nonneg a' (open_release.1 ha').1
  -- what stays reserved is the sum over the other attempts, so nothing wraps
  have hsp : ∀ k, b.reserved.get k = (b.cost a).get k + (b.release a).attempts.total fun a =>
    (b.cost a).get k :=
    fun k => (h.reserved_eq k).trans (total_erase hfo)
  have hre : ∀ k, (b.reserved.subtract (b.cost a)).get k =
      (b.release a).attempts.total fun a => (b.cost a).get k := by
    intro k
    have h₁ := h.cost_nonneg a ha k
    have h₂ := (h.reserved_le k).trans (h.limitsOK.aggregate_le k)
    have h₃ := h.reserved_nonneg k
    have h₄ := total_nonneg fun id a' hfo => hcos a' ((hin id a').1 hfo).1 k
    have h₅ := hsp k
    rw [Resources.get_subtract, int64_of_range] <;> omega
  refine { h with
    attempts_index := hin, peer_index := ?_, peer_found := ?_, peer_stored := ?_, attempt_peer := ?_
    reserved_eq := ?_, heavyweight_eq := ?_, cost_nonneg := ?_, reserved_le := ?_
    attempts_le := ?_, perPeer_le := ?_, heavyweight_le := ?_ }
  · intro q
    rw [release_peer]
    rcases eq_or_ne q (b.booking a).peer with rfl | hq
    · rw [update_self]
      refine (h.peer_index _).erase ⟨ha, rfl⟩ ?_ (fun a' _ => hkey a')
      intro a'
      rw [open_release, release_booking_peer]
      tauto
    · rw [update_of_ne hq]
      refine (h.peer_index q).congr ?_ (fun a' _ => hkey a')
      intro a'
      rw [open_release, release_booking_peer]
      constructor
      · rintro ⟨⟨hop, -⟩, hpe⟩
        exact ⟨hop, hpe⟩
      · rintro ⟨hop, hpe⟩
        refine ⟨⟨hop, ?_⟩, hpe⟩
        rintro rfl
        exact hq hpe.symm
  · intro id' q hq
    rw [hid]
    exact h.peer_found id' q hq
  · intro q hq hop
    rw [hid]
    rw [hclo] at hop
    exact h.peer_stored q hq hop
  · intro a' ha'
    rw [hid, release_booking_peer]
    exact h.attempt_peer a' (open_release.1 ha').1
  · intro k
    rw [hco]
    exact hre k
  · have hsp := total_erase (f := b.weight) hfo
    rw [← h.heavyweight_eq] at hsp
    rw [hwei, release_attempts]
    change b.heavyweightAttempts - b.weight a = _
    omega
  · rw [hco]
    exact hcos
  · intro k
    have hle := h.reserved_le k
    have h₁ := h.cost_nonneg a ha k
    have h₂ := hsp k
    change (b.reserved.subtract (b.cost a)).get k ≤ b.limits.aggregate.get k
    rw [hre k]
    omega
  · have hlen := length_erase hfo
    have hle := h.attempts_le
    change ((b.attempts.erase _).entries.length : ℤ) ≤ b.limits.maxActiveAttempts
    omega
  · intro q
    rw [release_peer]
    rcases eq_or_ne q (b.booking a).peer with rfl | hq
    · rw [update_self]
      have hlen := length_erase hfou
      have hle := h.perPeer_le (b.booking a).peer
      change (((b.peer _).attempts.erase _).entries.length : ℤ) ≤ b.limits.maxAttemptsPerPeer
      omega
    · rw [update_of_ne hq]
      exact h.perPeer_le q
  · have hle := h.heavyweight_le
    change b.heavyweightAttempts - b.weight a ≤ b.limits.maxHeavyweightAttempts
    have hw := @weight_nonneg b a
    omega

end Release

/-- **The wipe keeps the books exact** once every attempt is released and every peer is closed. -/
theorem Exact.wipe (h : b.Exact) (hno : ∀ a, ¬ b.Open a)
    (hclo : ∀ p, p < b.peerCount → (b.peer p).closed = true) : b.wipe.Exact := by
  refine { h with
    attempts_index := ?_, peer_found := ?_, peer_stored := ?_, attempt_peer := ?_, reserved_eq := ?_
    heavyweight_eq := ?_, reserved_le := ?_, attempts_le := ?_, peers_le := ?_, heavyweight_le := ?_ }
  · intro id a
    constructor
    · intro hfo
      cases hfo
    · rintro ⟨hop, -⟩
      exact absurd hop (hno a)
  · intro id p hfo
    cases hfo
  · intro p hp hop
    have hc : (b.wipe.peer p).closed = true := hclo p hp
    rw [hc] at hop
    cases hop
  · intro a ha
    exact absurd ha (hno a)
  · intro k
    exact Resources.get_zero
  · rfl
  · intro k
    change Resources.get {} k ≤ _
    rw [Resources.get_zero]
    exact h.limitsOK.aggregate_nonneg k
  · exact h.limitsOK.attempts_pos.le
  · exact h.limitsOK.peers_pos.le
  · exact h.limitsOK.heavyweight_nonneg

/-! ## Iteration order -/

/-- The order of the entries of the two maps of the governor does not matter. -/
theorem Exact.reorder {peers : GoMap PeerRef} {attempts : GoMap AttemptRef} (h : b.Exact)
    (hp : peers.entries.Perm b.peers.entries) (ha : attempts.entries.Perm b.attempts.entries) :
    (b.reorder peers attempts).Exact := by
  have hpl : ∀ id, (b.reorder peers attempts).peers.lookup id = b.peers.lookup id :=
    fun _ => perm_lookup hp
  have hal : ∀ id, (b.reorder peers attempts).attempts.lookup id = b.attempts.lookup id :=
    fun _ => perm_lookup ha
  refine { h with
    attempts_index := ?_, peer_found := ?_, peer_stored := ?_, attempt_peer := ?_, reserved_eq := ?_
    heavyweight_eq := ?_, attempts_le := ?_, peers_le := ?_ }
  · intro id a
    rw [hal]
    exact h.attempts_index id a
  · intro id p hfo
    rw [hpl] at hfo
    exact h.peer_found id p hfo
  · intro p hlt hop
    rw [hpl]
    exact h.peer_stored p hlt hop
  · intro a hop
    rw [hpl]
    exact h.attempt_peer a hop
  · intro k
    exact (h.reserved_eq k).trans (total_perm ha).symm
  · exact h.heavyweight_eq.trans (total_perm ha).symm
  · change (attempts.entries.length : ℤ) ≤ b.limits.maxActiveAttempts
    rw [ha.length_eq]
    exact h.attempts_le
  · change (peers.entries.length : ℤ) ≤ b.limits.maxActivePeers
    rw [hp.length_eq]
    exact h.peers_le

/-- Nor does the order of the entries of a peer's map. -/
theorem Exact.reorderPeer {attempts : GoMap AttemptRef} (h : b.Exact)
    (ha : attempts.entries.Perm (b.peer p).attempts.entries) : (b.reorderPeer p attempts).Exact :=
  h.setPeer rfl id ha

end Books

end Winkyou.Governor
