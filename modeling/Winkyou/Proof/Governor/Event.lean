import Winkyou.Proof.Governor.Lease

/-!
# The event of a drain timeout is always accepted

`drainOrdinaryAttempts` validates the event it built before it trips, and does not trip when the
check fails. The check never fails: every part of the event is bounded and printable.
-/

namespace Winkyou

open List Except Bool

/-- A printable text of at most `n` characters. -/
def Printable (n : ℕ) (cs : List Char) : Prop := cs.length ≤ n ∧ ∀ c ∈ cs, isControl c = false

theorem Printable.append {m n : ℕ} {as bs : List Char} (ha : Printable m as) (hb : Printable n bs) :
    Printable (m + n) (as ++ bs) := by
  refine ⟨?_, ?_⟩
  · rw [length_append]
    exact Nat.add_le_add ha.1 hb.1
  · exact forall_mem_append.2 ⟨ha.2, hb.2⟩

theorem Printable.mono {m n : ℕ} {cs : List Char} (h : Printable m cs) (hmn : m ≤ n) :
    Printable n cs :=
  ⟨h.1.trans hmn, h.2⟩

theorem printable_of_all {n : ℕ} {cs : List Char} (h : (cs.all fun c => !isControl c) = true)
    (hn : cs.length ≤ n) : Printable n cs :=
  ⟨hn, by simpa using h⟩

theorem isControl_of_isDigit {c : Char} (h : c.isDigit = true) : isControl c = false := by
  have h' : 48 ≤ c.toNat ∧ c.toNat ≤ 57 := by
    simp only [Char.isDigit, and_eq_true, decide_eq_true_eq, ge_iff_le] at h
    exact ⟨UInt32.le_iff_toNat_le.1 h.1, UInt32.le_iff_toNat_le.1 h.2⟩
  simp only [isControl, or_eq_false_iff, and_eq_false_iff, decide_eq_false_iff_not]
  omega

/-- The digits of a number are printable. -/
theorem printable_toDigits {n k : ℕ} (hk : 0 < k) (h : n < 10 ^ k) :
    Printable k (Nat.toDigits 10 n) := by
  refine ⟨(Nat.length_toDigits_le_iff (by decide) hk).2 h, ?_⟩
  intro c hc
  exact isControl_of_isDigit (Nat.isDigit_of_mem_toDigits (by decide) (by decide) hc)

theorem isControl_digitChar {n : ℕ} (h : n < 10) : isControl (Nat.digitChar n) = false := by
  interval_cases n <;> decide

theorem printable_fmtFrac_loop : ∀ (n v k : ℕ) (digits : List Char), Printable k digits →
    Printable (n + k + 1) (fmtFrac.loop v n digits).1 ∧ (fmtFrac.loop v n digits).2 ≤ v := by
  intro n
  induction n with
  | zero =>
    intro v k digits hd
    cases digits with
    | nil => exact ⟨⟨Nat.zero_le _, by simp [fmtFrac.loop]⟩, le_rfl⟩
    | cons d ds =>
      refine ⟨?_, le_rfl⟩
      have hdot : Printable 1 ['.'] := printable_of_all (by decide) (by decide)
      rw [Nat.zero_add, Nat.add_comm]
      exact hdot.append hd
  | succ n ih =>
    intro v k digits hd
    rw [fmtFrac.loop]
    have hne : Printable (k + 1)
        (if digits = [] ∧ v % 10 = 0 then [] else Nat.digitChar (v % 10) :: digits) := by
      split_ifs
      · exact ⟨Nat.zero_le _, by simp⟩
      have hdi : Printable 1 [Nat.digitChar (v % 10)] := by
        refine ⟨le_rfl, ?_⟩
        intro c hc
        rw [mem_singleton.1 hc]
        exact isControl_digitChar (Nat.mod_lt v (by decide))
      rw [Nat.add_comm]
      exact hdi.append hd
    obtain ⟨hp, hle⟩ := ih (v / 10) (k + 1) _ hne
    exact ⟨hp.mono (by omega), hle.trans (Nat.div_le_self v 10)⟩

theorem printable_fmtFrac (v prec : ℕ) :
    Printable (prec + 1) (fmtFrac v prec).1 ∧ (fmtFrac v prec).2 ≤ v := by
  cases prec with
  | zero => exact ⟨⟨Nat.zero_le _, by simp [fmtFrac]⟩, le_rfl⟩
  | succ n =>
    have h := printable_fmtFrac_loop (n + 1) v 0 [] ⟨le_rfl, by simp⟩
    exact ⟨h.1, h.2⟩

/-- A duration below ten seconds prints as a short text. -/
theorem printable_durationString {d : Duration} (h : d.natAbs < 10 ^ 10) :
    Printable 60 (durationString d).toList := by
  have hneg : Printable 1 (if d < 0 then ['-'] else []) := by
    split_ifs
    · exact printable_of_all (by decide) (by decide)
    · exact ⟨by simp, by simp⟩
  have hdig : ∀ n, n ≤ d.natAbs → Printable 10 (Nat.toDigits 10 n) :=
    fun n hn => printable_toDigits (by decide) (lt_of_le_of_lt hn h)
  have hun : ∀ prec (unit : List Char), prec ≤ 9 → Printable 2 unit →
      Printable 60 ((if d < 0 then ['-'] else []) ++ fmtUnit d.natAbs prec unit) := by
    intro prec unit hpr hu
    obtain ⟨hfr, hle⟩ := printable_fmtFrac d.natAbs prec
    exact (hneg.append (((hdig _ hle).append hfr).append hu)).mono (by omega)
  have hs : Printable 1 ['s'] := printable_of_all (by decide) (by decide)
  obtain ⟨hfr, hle⟩ := printable_fmtFrac d.natAbs 9
  have hla : Printable 21 (Nat.toDigits 10 ((fmtFrac d.natAbs 9).2 % 60) ++
    (fmtFrac d.natAbs 9).1 ++ ['s']) :=
    ((hdig _ ((Nat.mod_le _ _).trans hle)).append hfr).append hs
  have hmi : (fmtFrac d.natAbs 9).2 / 60 ≤ d.natAbs := (Nat.div_le_self _ _).trans hle
  have hm : Printable 1 ['m'] := printable_of_all (by decide) (by decide)
  have hh : Printable 1 ['h'] := printable_of_all (by decide) (by decide)
  unfold durationString
  simp only [String.toList_ofList]
  generalize (if d < 0 then ['-'] else []) = neg at hneg hun ⊢
  split_ifs
  · exact printable_of_all (by decide) (by decide)
  · exact hun 0 _ (by decide) (printable_of_all (by decide) (by decide))
  · exact hun 3 _ (by decide) (printable_of_all (by decide) (by decide))
  · exact hun 6 _ (by decide) (printable_of_all (by decide) (by decide))
  · exact (hneg.append hla).mono (by decide)
  · exact (((hneg.append (hdig _ ((Nat.mod_le _ _).trans hmi))).append hm).append hla).mono (by decide)
  · exact (((((hneg.append (hdig _ ((Nat.div_le_self _ _).trans hmi))).append hh).append
      (hdig _ ((Nat.mod_le _ _).trans hmi))).append hm).append hla).mono (by decide)

theorem utf8ByteSize_le (text : String) : text.utf8ByteSize ≤ 4 * text.toList.length := by
  have key : ∀ cs : List Char, (String.ofList cs).utf8ByteSize ≤ 4 * cs.length := by
    intro cs
    induction cs with
    | nil => decide
    | cons c cs ih =>
      have hco : String.ofList (c :: cs) = String.singleton c ++ String.ofList cs := by
        apply String.toList_injective
        simp
      rw [hco, String.utf8ByteSize_append, String.utf8ByteSize_singleton, length_cons]
      have := c.utf8Size_le_four
      omega
  simpa using key text.toList

theorem validateSafetyDiagnosticText_ok {field value : String} {maximum : ℕ}
    (hlen : value.utf8ByteSize ≤ maximum) (hcon : value.toList.any isControl = false) :
    validateSafetyDiagnosticText field value maximum true = .ok () := by
  unfold validateSafetyDiagnosticText
  split
  · rfl
  · simp only [bind_ok_iff, failIf_ok_iff, hcon, not_lt]
    exact ⟨(), hlen, false_ne_true⟩

namespace Governor

variable {s : State} {a : AttemptRef}

/-- The name of the first pending drain is short and printable. -/
theorem firstPendingDrainName_printable {l : AttemptLease} (h : LeaseOK l) :
    l.firstPendingDrainName.utf8ByteSize ≤ 256 ∧ l.firstPendingDrainName.toList.any isControl =
      false := by
  unfold AttemptLease.firstPendingDrainName
  split
  · exact ⟨by decide, by decide⟩
  · rename_i d hd
    have hna := h.names d (argmin_mem hd)
    exact ⟨hna.length, hna.noControl⟩

/-- **The event of a drain timeout passes its own check.** -/
theorem drainTimeoutEvent_valid (hlim : LimitsOK s.limits) (hle : LeaseOK (s.attempt a))
    (hpe : Identifier (s.peer (s.attempt a).peer).peerID) :
    validateSafetyTripEvent (s.drainTimeoutEvent a) = .ok () := by
  have hdur : Printable 60 (durationString s.limits.cancellationDrainTimeout).toList := by
    apply printable_durationString
    have hnat : ∀ t : ℤ, 0 < t → t ≤ 2000000000 → t.natAbs < 10 ^ 10 := by
      intro t h₁ h₂
      omega
    exact hnat _ hlim.timeout_pos hlim.timeout_le
  have hco : (toString (s.attempt a).drains.length).utf8ByteSize ≤ 4 ∧
      (toString (s.attempt a).drains.length).toList.any isControl = false := by
    have hlen : (s.attempt a).drains.length ≤ 8 := hle.length
    interval_cases (s.attempt a).drains.length <;> decide
  obtain ⟨hna, hnam⟩ := firstPendingDrainName_printable hle
  have hbu := validateIdentifier_ok_iff.1 s.owner.buildVersion_identifier
  simp only [validateSafetyTripEvent, bind_ok_iff, failIf_ok_iff, mapError_ok_iff]
  refine ⟨(), Bool.noConfusion, (), validateSafetyDiagnosticText_ok ?_ ?_, (),
    validateSafetyDiagnosticText_ok s.owner.buildVersion_length hbu.noControl, ?_⟩
  · have hdurL := (utf8ByteSize_le (durationString s.limits.cancellationDrainTimeout)).trans
      (Nat.mul_le_mul_left 4 hdur.1)
    have hsi : (s.drainTimeoutEvent a).detail.utf8ByteSize ≤ 64 + 4 * 60 + 4 + 256 := by
      simp only [State.drainTimeoutEvent, String.utf8ByteSize_append]
      have h₁ : "attempt cancellation exceeded ".utf8ByteSize = 30 := by decide
      have h₂ : " with ".utf8ByteSize = 6 := by decide
      have h₃ : " pending drain(s); first=".utf8ByteSize = 25 := by decide
      have := hco.1
      omega
    exact hsi.trans (by decide)
  · have hdurC : (durationString s.limits.cancellationDrainTimeout).toList.any isControl = false := by
      simpa using hdur.2
    simp only [State.drainTimeoutEvent, String.toList_append, any_append, hdurC, hco.2, hnam]
    decide
  · have hid : validateIdentifier "attempt id" (s.drainTimeoutEvent a).attemptID = .ok () :=
      validateIdentifier_ok_iff.2 hle.identifier
    have hpid : validateIdentifier "peer id" (s.drainTimeoutEvent a).peerID = .ok () :=
      validateIdentifier_ok_iff.2 hpe
    rw [hpid, hid]
    split_ifs <;> rfl

end Governor

end Winkyou
