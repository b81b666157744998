import Winkyou.Proof.Governor.Limits
import Winkyou.Spec.Selfhosted.Schedule

/-!
# Two peers meet on every pair of candidates

* `attemptWindowDetails_eq`: while `UnixNano` does not wrap around, the windows tile the time line.
* `schedule_covers`: among 16 consecutive ordinals every pair of ranks is selected.
* `attempts_increase`: the loop makes at most one attempt in a window.
* `peers_meet`: all of it; `window_wraps` is an instant where the first fails.
-/

namespace Winkyou.Selfhosted

variable {hmac : Hmac} {key : Vector UInt8 32} {cycle active : Duration} {now : Time} {cfg : Config}
  {parse : String → Option (Addr × ℕ)} {nodeID : String} {peer : PeerRuntime}

theorem pairKey_comm (a b : String) (secret : Bytes) :
    pairKey hmac a b secret = pairKey hmac b a secret := by
  unfold pairKey
  generalize trimSpace a = x
  generalize trimSpace b = y
  dsimp only
  have hco : (x = "" ∨ y = "" ∨ x = y) ↔ (y = "" ∨ x = "" ∨ y = x) := by rw [or_left_comm,
    eq_comm (a := x) (b := y)]
  by_cases href : x = "" ∨ y = "" ∨ x = y
  · rw [if_pos href, if_pos (hco.1 href)]
  · rw [if_neg href, if_neg (mt hco.2 href)]
    rcases lt_trichotomy x y with h | h | h
    · rw [if_neg h.asymm, if_neg h.asymm, if_pos h, if_pos h]
    · exact absurd (.inr (.inr h)) href
    · rw [if_neg h.asymm, if_neg h.asymm, if_pos h, if_pos h]

/-! ## Windows -/

/-- The start of a window, in nanoseconds since the zero time. -/
def windowStart (key : Vector UInt8 32) (cycle : Duration) (n : ℤ) : ℤ :=
  unixEpoch + windowOffset key cycle + n * cycle

/-- The ordinal of the window that an instant belongs to. -/
def ordinalAt (key : Vector UInt8 32) (cycle : Duration) (now : Time) : ℤ :=
  (now.nanos - unixEpoch - windowOffset key cycle) / cycle

/-- `UnixNano` is exact, and stays so one cycle before. -/
def Representable (cycle : Duration) (now : Time) : Prop :=
  -2 ^ 63 + cycle ≤ now.nanos - unixEpoch ∧ now.nanos - unixEpoch < 2 ^ 63

theorem windowOffset_range (key : Vector UInt8 32) (hc : 0 < cycle) :
    0 ≤ windowOffset key cycle ∧ windowOffset key cycle < cycle :=
  ⟨Int.emod_nonneg _ hc.ne', Int.emod_lt_of_pos _ hc⟩

theorem floor_eq (n : ℤ) (hc : 0 < cycle) :
    (if n < 0 ∧ n.tmod cycle ≠ 0 then n.tdiv cycle - 1 else n.tdiv cycle) = n / cycle := by
  simp only [ne_eq, ← Int.dvd_iff_tmod_eq_zero]
  rw [Int.tdiv_eq_ediv, Int.sign_eq_one_of_pos hc]
  by_cases hneg : n < 0
  · by_cases hdvd : cycle ∣ n
    · simp [hdvd]
    · simp [hneg, hdvd, not_le.2 hneg]
  · simp [hneg, not_lt.1 hneg]

theorem ordinalAt_iff (hc : 0 < cycle) (n : ℤ) :
    windowStart key cycle n ≤ now.nanos ∧ now.nanos < windowStart key cycle (n + 1) ↔
      n = ordinalAt key cycle now := by
  have hle : n ≤ ordinalAt key cycle now ↔ windowStart key cycle n ≤ now.nanos := by
    rw [ordinalAt, Int.le_ediv_iff_mul_le hc, windowStart]
    constructor <;> intro h <;> linarith
  have hlt : ordinalAt key cycle now < n + 1 ↔ now.nanos < windowStart key cycle (n + 1) := by
    rw [ordinalAt, Int.ediv_lt_iff_lt_mul hc, windowStart]
    constructor <;> intro h <;> linarith
  rw [← hle, ← hlt]
  omega

/-- **The windows tile the time line.** -/
theorem attemptWindowDetails_eq (key : Vector UInt8 32) (active : Duration) (hc : 0 < cycle)
    (hnow : Representable cycle now) :
    let start : Time := ⟨windowStart key cycle (ordinalAt key cycle now), now.isUTC⟩
    attemptWindowDetails key now cycle active =
      ⟨start, start.add active, now.before (start.add active), ordinalAt key cycle now⟩ := by
  obtain ⟨ho, hoc⟩ := windowOffset_range key hc
  obtain ⟨hlow, hhi⟩ := hnow
  obtain ⟨hst, hne⟩ := (ordinalAt_iff hc _).2 (rfl : ordinalAt key cycle now = _)
  have hexpand : windowStart key cycle (ordinalAt key cycle now + 1) =
      windowStart key cycle (ordinalAt key cycle now) + cycle := by
    unfold windowStart
    ring
  have hun : unixNano now = now.nanos - unixEpoch := int64_of_range (by omega) hhi
  have hsh : int64 (unixNano now - windowOffset key cycle) =
    now.nanos - unixEpoch - windowOffset key cycle := by
    rw [hun]
    exact int64_of_range (by omega) (by omega)
  have hba : int64 (ordinalAt key cycle now * cycle + windowOffset key cycle) + unixEpoch =
      windowStart key cycle (ordinalAt key cycle now) := by
    unfold windowStart at *
    rw [int64_of_range (by omega) (by omega)]
    ring
  have hbef : now.before ⟨windowStart key cycle (ordinalAt key cycle now), now.isUTC⟩ = false := by
    simpa [Time.before] using hst
  have hord : (now.nanos - unixEpoch - windowOffset key cycle) / cycle = ordinalAt key cycle now := rfl
  simp only [attemptWindowDetails, hsh, floor_eq _ hc, hord, hba, hbef, Bool.not_false, Bool.true_and]

theorem ordinalAt_add_cycle (hc : 0 < cycle) :
    ordinalAt key cycle (now.add cycle) = ordinalAt key cycle now + 1 := by
  have hadd : (now.add cycle).nanos - unixEpoch - windowOffset key cycle =
      now.nanos - unixEpoch - windowOffset key cycle + 1 * cycle := by
    simp only [Time.add_nanos]
    ring
  rw [ordinalAt, hadd, Int.add_mul_ediv_right _ _ hc.ne']
  rfl

theorem ordinalAt_mono (hc : 0 < cycle) {later : Time} (h : now.nanos ≤ later.nanos) :
    ordinalAt key cycle now ≤ ordinalAt key cycle later :=
  Int.ediv_le_ediv hc (by omega)

/-! ## Ranks -/

theorem portfolio_groups_length (endpoints : List Endpoint) (allowNonPublic : Bool) :
    (buildCandidatePortfolio parse endpoints allowNonPublic).groups.length ≤ 4 := by
  simp [buildCandidatePortfolio, maxCandidateGroups]

theorem scheduleIndex_eq {i j count : ℕ} {ordinal : ℤ} (hi : i < 4) (h : ordinal % 16 = 4 * j + i)
    (role : Role) (hco : (if role = .receiver then j else i) < count) :
    recoveryCandidateScheduleIndex ordinal role count = if role = .receiver then j else i := by
  have hph : (if ordinal.tmod 16 < 0 then ordinal.tmod 16 + 16 else ordinal.tmod 16) = 4 * j + i := by
    rw [← h, Int.tmod_eq_emod]
    split_ifs <;> omega
  unfold recoveryCandidateScheduleIndex
  split_ifs at hco ⊢ with h1 hr hr
  · omega
  · omega
  all_goals
    simp only [maxCandidateGroups, Nat.cast_ofNat, show (4 : ℤ) * 4 = 16 from rfl, hph]
    rw [← Nat.cast_ofNat (R := ℤ) (n := 4), ← Nat.cast_mul, ← Nat.cast_add]
  · rw [← Int.ofNat_tdiv, Int.toNat_natCast, show (4 * j + i) / 4 = j by omega, Nat.mod_eq_of_lt hco]
  · rw [← Int.ofNat_tmod, Int.toNat_natCast, show (4 * j + i) % 4 = i by omega, Nat.mod_eq_of_lt hco]

theorem selectRecoveryCandidate_eq {portfolio : CandidatePortfolio} {ordinal : ℤ} {role : Role}
    {i : ℕ} (hi : i < portfolio.groups.length)
    (h : recoveryCandidateScheduleIndex ordinal role portfolio.groups.length = i) :
    ∃ selection, (selectRecoveryCandidate peer portfolio ordinal role).2 = some selection ∧
      selection.index = i + 1 ∧ some selection.group = portfolio.groups[i]? := by
  have hso : portfolio.groups.isEmpty = false := by
    rw [List.isEmpty_eq_false_iff, ← List.length_pos_iff]
    omega
  simp [selectRecoveryCandidate, hso, h, hi]

/-- **Every pair of ranks is selected** at one of 16 consecutive ordinals. -/
theorem schedule_covers {selector receiver : CandidatePortfolio} {i j : ℕ}
    (hi : i < selector.groups.length) (hj : j < receiver.groups.length)
    (hsel : selector.groups.length ≤ 4) (hrec : receiver.groups.length ≤ 4)
    (peer peer' : PeerRuntime) (first : ℤ) :
    ∃ ordinal, first ≤ ordinal ∧ ordinal < first + 16 ∧
      (∃ s, (selectRecoveryCandidate peer selector ordinal .selector).2 = some s ∧ s.index = i + 1 ∧
        some s.group = selector.groups[i]?) ∧
      ∃ s, (selectRecoveryCandidate peer' receiver ordinal .receiver).2 = some s ∧ s.index = j + 1 ∧
        some s.group = receiver.groups[j]? := by
  have hord : (first + (4 * j + i - first) % 16) % 16 = 4 * j + i := by omega
  refine ⟨first + (4 * j + i - first) % 16, by omega, by omega, ?_, ?_⟩
  · exact selectRecoveryCandidate_eq hi (scheduleIndex_eq (by omega) hord .selector hi)
  · exact selectRecoveryCandidate_eq hj (scheduleIndex_eq (by omega) hord .receiver hj)

/-! ## The loop -/

/-- A pass makes no attempt, or the one of a window that was not tried last. -/
theorem runPeer_cases (cfg : Config) (parse : String → Option (Addr × ℕ)) (nodeID : String)
    (peer : PeerRuntime) (pass : Pass) : (runPeer cfg parse nodeID peer pass).1.key = peer.key ∧
      ((runPeer cfg parse nodeID peer pass).2 = none ∧
          (runPeer cfg parse nodeID peer pass).1.lastAttemptWindow = peer.lastAttemptWindow ∨
        ∃ a, (runPeer cfg parse nodeID peer pass).2 = some a ∧
          let window := attemptWindowDetails peer.key pass.now cfg.attemptCycle cfg.attemptWindow
          a.selection.windowOrdinal = window.ordinal ∧
          (runPeer cfg parse nodeID peer pass).1.lastAttemptWindow = window.start ∧
          window.start.nanos ≠ peer.lastAttemptWindow.nanos) := by
  -- neither the selection nor the counts touch the window that was tried
  have hsel : ∀ (peer : PeerRuntime) portfolio ordinal role,
      (selectRecoveryCandidate peer portfolio ordinal role).1.key = peer.key ∧
      (selectRecoveryCandidate peer portfolio ordinal role).1.lastAttemptWindow =
        peer.lastAttemptWindow ∧
      ∀ s, (selectRecoveryCandidate peer portfolio ordinal role).2 = some s →
        s.windowOrdinal = ordinal := by
    intro peer portfolio ordinal role
    unfold selectRecoveryCandidate
    split
    · exact ⟨rfl, rfl, nofun⟩
    · refine ⟨rfl, rfl, fun s hs => ?_⟩
      obtain ⟨group, -, rfl⟩ := Option.map_eq_some_iff.1 hs
      rfl
  have hrec : ∀ (peer : PeerRuntime) id stage penalize,
      (recordCandidateFailure peer id stage penalize).key = peer.key ∧
      (recordCandidateFailure peer id stage penalize).lastAttemptWindow = peer.lastAttemptWindow := by
    intro peer id stage penalize
    unfold recordCandidateFailure
    dsimp only
    split_ifs <;> exact ⟨rfl, rfl⟩
  unfold runPeer
  generalize hre : (if pass.reset then _ else peer : PeerRuntime) = start
  have hst : start.key = peer.key ∧ start.lastAttemptWindow = peer.lastAttemptWindow := by
    rw [← hre]
    split_ifs <;> exact ⟨rfl, rfl⟩
  rw [← hst.1, ← hst.2]
  dsimp only
  split
  · exact ⟨rfl, .inl ⟨rfl, rfl⟩⟩
  obtain ⟨hkey, hla, hord⟩ := hsel start
    (buildCandidatePortfolio parse (pass.endpoints.getD []) cfg.allowNonPublic)
    (attemptWindowDetails start.key pass.now cfg.attemptCycle cfg.attemptWindow).ordinal
    (selfBootstrapPunchRole nodeID start.id)
  generalize selectRecoveryCandidate start _ _ _ = selected at *
  obtain ⟨chosen, selection⟩ := selected
  rcases selection with _ | s
  · exact ⟨hkey, .inl ⟨rfl, hla⟩⟩
  dsimp only at *
  split_ifs with hsk
  · exact ⟨hkey, .inl ⟨rfl, hla⟩⟩
  simp only [not_or, hla] at hsk
  refine ⟨?_, .inr ⟨_, rfl, hord s rfl, ?_, fun h => hsk.2.1 h.symm⟩⟩
  · split
    · exact (hrec _ _ _ _).1.trans hkey
    · exact hkey
  · split
    · exact (hrec _ _ _ _).2
    · rfl

/-- **At most one attempt in a window**, while the clock does not go back. -/
theorem attempts_increase (hc : 0 < cfg.attemptCycle) {passes : List Pass} :
    ∀ {peer : PeerRuntime}, (∀ pass ∈ passes, Representable cfg.attemptCycle pass.now) →
      (passes.map fun pass => pass.now.nanos).Pairwise (· ≤ ·) →
      ((attempts cfg parse nodeID peer passes).map fun a => a.selection.windowOrdinal).Pairwise (· < ·) ∧
        ∀ tried, peer.lastAttemptWindow.nanos = windowStart peer.key cfg.attemptCycle tried →
          (∀ pass ∈ passes, tried ≤ ordinalAt peer.key cfg.attemptCycle pass.now) →
          ∀ a ∈ attempts cfg parse nodeID peer passes, tried < a.selection.windowOrdinal := by
  induction passes with
  | nil => exact fun _ _ => ⟨.nil, fun _ _ _ => nofun⟩
  | cons pass passes ih =>
    intro peer hnow hcl
    obtain ⟨hlat, hcl⟩ := List.pairwise_cons.1 hcl
    obtain ⟨hkey, hca⟩ := runPeer_cases cfg parse nodeID peer pass
    obtain ⟨hinc, hre⟩ := @ih (runPeer cfg parse nodeID peer pass).1
      (fun p hp => hnow p (List.mem_cons_of_mem _ hp)) hcl
    rw [hkey] at hre
    rcases hca with ⟨hno, hla⟩ | ⟨a, hso, hord, hla, hnew⟩
    · simp only [attempts, hno, Option.toList_none, List.nil_append]
      refine ⟨hinc, fun tried htr hle => ?_⟩
      exact hre tried (hla ▸ htr) fun p hp => hle p (List.mem_cons_of_mem _ hp)
    have hwin := attemptWindowDetails_eq peer.key cfg.attemptWindow hc (hnow pass List.mem_cons_self)
    simp only at hwin
    rw [hwin] at hord hla hnew
    -- later passes are in the window of this one or after it
    have haf : ∀ b ∈ attempts cfg parse nodeID (runPeer cfg parse nodeID peer pass).1 passes,
        a.selection.windowOrdinal < b.selection.windowOrdinal := by
      rw [hord]
      refine hre _ (by rw [hla]) fun p hp => ordinalAt_mono hc (hlat _ (List.mem_map_of_mem hp))
    simp only [attempts, hso, Option.toList_some, List.singleton_append]
    refine ⟨List.pairwise_cons.2 ⟨fun n hn => ?_, hinc⟩, fun tried htr hle b hb => ?_⟩
    · obtain ⟨b, hb, rfl⟩ := List.mem_map.1 hn
      exact haf b hb
    · have hlt : tried < a.selection.windowOrdinal := by
        refine lt_of_le_of_ne (hord ▸ hle pass List.mem_cons_self) fun heq => hnew ?_
        rw [htr, heq, hord]
      rcases List.mem_cons.1 hb with rfl | hb
      · exact hlt
      · exact hlt.trans (haf b hb)

/-! ## The result -/

/-- **Peers meet on every pair of candidates**, while their clocks are at least one cycle after the
earliest instant that `UnixNano` represents. -/
theorem peers_meet (hmac : Hmac) (secret : Bytes) (parse : String → Option (Addr × ℕ))
    {cfg : Config} (hwindow : 0 < cfg.attemptWindow)
    (hcycle : cfg.attemptWindow < cfg.attemptCycle) :
    (∀ a b, pairKey hmac a b secret = pairKey hmac b a secret) ∧
    (∀ key now, Representable cfg.attemptCycle now →
      let window := attemptWindowDetails key now cfg.attemptCycle cfg.attemptWindow
      window.start.nanos = windowStart key cfg.attemptCycle window.ordinal ∧
      window.finish.nanos = window.start.nanos + cfg.attemptWindow ∧
      (window.active = true ↔ now.nanos < window.finish.nanos) ∧
      (∀ n, windowStart key cfg.attemptCycle n ≤ now.nanos ∧
        now.nanos < windowStart key cfg.attemptCycle (n + 1) ↔ n = window.ordinal) ∧
      (Representable cfg.attemptCycle (now.add cfg.attemptCycle) →
        (attemptWindowDetails key (now.add cfg.attemptCycle) cfg.attemptCycle
          cfg.attemptWindow).ordinal =
          window.ordinal + 1)) ∧
    (∀ a b : String, a < b → ∀ (toB toA : List Endpoint) (peerB peerA : PeerRuntime) (i j : ℕ)
      (first : ℤ),
      let selector := buildCandidatePortfolio parse toB cfg.allowNonPublic
      let receiver := buildCandidatePortfolio parse toA cfg.allowNonPublic
      i < selector.groups.length → j < receiver.groups.length →
      ∃ ordinal, first ≤ ordinal ∧ ordinal < first + 16 ∧
        (∃ s, (selectRecoveryCandidate peerB selector ordinal (selfBootstrapPunchRole a b)).2 =
          some s ∧ s.index = i + 1 ∧ some s.group = selector.groups[i]?) ∧
        ∃ s, (selectRecoveryCandidate peerA receiver ordinal (selfBootstrapPunchRole b a)).2 =
          some s ∧ s.index = j + 1 ∧ some s.group = receiver.groups[j]?) ∧
    ∀ (nodeID : String) (peer : PeerRuntime) (passes : List Pass),
      (∀ pass ∈ passes, Representable cfg.attemptCycle pass.now) →
      (passes.map fun pass => pass.now.nanos).Pairwise (· ≤ ·) →
      ((attempts cfg parse nodeID peer passes).map fun a => a.selection.windowOrdinal).Pairwise (· <
        ·) := by
  have hc : 0 < cfg.attemptCycle := hwindow.trans hcycle
  refine ⟨fun a b => pairKey_comm a b secret, fun key now hnow => ?_, ?_, fun _ _ _ hnow hclock =>
    (attempts_increase hc hnow hclock).1⟩
  · have heq := attemptWindowDetails_eq key cfg.attemptWindow hc hnow
    simp only at heq
    rw [heq]
    refine ⟨rfl, rfl, Time.before_iff, ordinalAt_iff hc, fun hnext => ?_⟩
    have hnext := attemptWindowDetails_eq key cfg.attemptWindow hc hnext
    simp only at hnext
    rw [hnext]
    exact ordinalAt_add_cycle hc
  · intro a b hab toB toA peerB peerA i j first selector receiver hi hj
    rw [selfBootstrapPunchRole, if_pos hab, selfBootstrapPunchRole, if_neg hab.asymm]
    exact schedule_covers hi hj (portfolio_groups_length _ _) (portfolio_groups_length _ _) peerB
      peerA first

/-- The default windows: 45 seconds of each minute. -/
def sampleConfig : Config := ⟨45 * second, minute, 8 * second, 3 * second, false⟩

/-- Two public addresses. -/
def sampleParse : String → Option (Addr × ℕ)
  | "1" => some (.v4 0x08080808, 4000)
  | "2" => some (.v4 0x01010101, 4000)
  | _ => none

def sampleEndpoint (addrPort : String) : Endpoint :=
  ⟨addrPort, .zero, "", ⟨.preserving, 0, none, .zero⟩, .zero⟩

/-- The windows of two consecutive minutes, and the round in which the only candidate of one peer
meets the second one of the other. -/
theorem peers_meet_sample :
    (attemptWindowDetails (.replicate 32 0) ⟨unixEpoch - 1, true⟩ minute (45 * second)).ordinal = -1 ∧
    (attemptWindowDetails (.replicate 32 0) (Time.add ⟨unixEpoch - 1, true⟩ minute) minute
      (45 * second)).ordinal =
      (attemptWindowDetails (.replicate 32 0) ⟨unixEpoch - 1, true⟩ minute (45 * second)).ordinal + 1 ∧
    let peer (id : String) : PeerRuntime := ⟨id, .replicate 32 0, .zero, fun _ => 0, fun _ => 0⟩
    let selector := buildCandidatePortfolio sampleParse [sampleEndpoint "1"] false
    let receiver := buildCandidatePortfolio sampleParse [sampleEndpoint "1", sampleEndpoint "2"] false
    ∃ ordinal, 7 ≤ ordinal ∧ ordinal < 7 + 16 ∧
      (∃ s, (selectRecoveryCandidate (peer "b") selector ordinal (selfBootstrapPunchRole "a"
        "b")).2 = some s ∧ s.index = 1 ∧ some s.group = selector.groups[0]?) ∧
      ∃ s, (selectRecoveryCandidate (peer "a") receiver ordinal (selfBootstrapPunchRole "b"
        "a")).2 = some s ∧
        s.index = 2 ∧ some s.group = receiver.groups[1]? := by
  have hmeet := @peers_meet (fun _ _ => .replicate 32 0) [] sampleParse sampleConfig (by decide)
    (by decide)
  have hnow : Representable minute ⟨unixEpoch - 1, true⟩ := ⟨by decide, by decide⟩
  have hnext : Representable minute (Time.add ⟨unixEpoch - 1, true⟩ minute) := ⟨by decide, by decide⟩
  exact ⟨by decide +kernel, (hmeet.2.1 (.replicate 32 0) _ hnow).2.2.2.2 hnext,
    hmeet.2.2.1 "a" "b" (by decide)
    [sampleEndpoint "1"] [sampleEndpoint "1", sampleEndpoint "2"] ⟨"b", .replicate 32 0, .zero,
      fun _ => 0, fun _ => 0⟩
    ⟨"a", .replicate 32 0, .zero, fun _ => 0, fun _ => 0⟩ 0 1 7 (by decide +kernel) (by decide +kernel)⟩

/-- The earliest instant that `UnixNano` represents is put into a window that starts more than five
centuries later. -/
theorem window_wraps :
    let now : Time := ⟨unixEpoch - 2 ^ 63, true⟩
    let window := attemptWindowDetails (.replicate 32 0) now minute (45 * second)
    unixNano now = -2 ^ 63 ∧ now.nanos < window.start.nanos ∧
      window.start.nanos ≠ windowStart (.replicate 32 0) minute window.ordinal := by
  decide +kernel

end Winkyou.Selfhosted
