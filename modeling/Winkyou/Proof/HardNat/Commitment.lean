import Winkyou.Spec.HardNat.Planner

/-!
# Local commitments

A commitment is made from a shape, a report and slots. What `validateLocalCommitment` checks beside
the slots holds of every commitment that `commitmentOf` makes from its own shape and report.

* `shapeFor_ok_iff`: the profiles and resource classes that have a shape.
* `validateLocalCommitment_ok_iff`: what a valid commitment is.
* `makeCommitment_ok_iff`: only the slots are left to check.
* `reconstructLocalCommitment_eq`: the compact form is rebuilt to the commitment it is made of, if
  that is valid.
-/

namespace Winkyou.HardNat

open Except (failIf bind_ok_iff failIf_ok_iff mapError_ok_iff)
open List Except

variable {P : Primitives}

/-! ## Shapes and reports -/

/-- The resource classes of a profile. -/
inductive Paired : ProfileName → ResourceName → Prop
  | predictive : Paired .predictiveEdm .predictive
  | asymmetric : Paired .asymmetricBirthday .asymmetric
  | hard16K : Paired .hardBirthday .hard16KLab
  | hard32K : Paired .hardBirthday .hard32KCandidate

/-- The profile of a resource class. -/
def profileOf : ResourceName → ProfileName
  | .predictive => .predictiveEdm
  | .asymmetric => .asymmetricBirthday
  | .hard16KLab | .hard32KCandidate => .hardBirthday

/-- The shape of a resource class under its own profile. -/
def shapeOf (resource : ResourceName) (role : Role) (predictedPorts : ℕ) : PlanShape :=
  (shapeFor (.known (profileOf resource)) (.known resource) role predictedPorts).toOption.get
    (by cases resource <;> rfl)

theorem shapeFor_ok_iff {profile : Profile} {resource : ResourceClass} {role : Role} {n : ℕ}
    {shape : PlanShape} :
    shapeFor profile resource role n = .ok shape ↔
      ∃ p r, profile = .known p ∧ resource = .known r ∧ Paired p r ∧ shape = shapeOf r role n := by
  constructor
  · intro h
    unfold shapeFor at h
    split at h
    · exact ⟨_, _, rfl, rfl, .predictive, (ok.inj h).symm⟩
    · exact ⟨_, _, rfl, rfl, .asymmetric, (ok.inj h).symm⟩
    · exact ⟨_, _, rfl, rfl, .hard16K, (ok.inj h).symm⟩
    · exact ⟨_, _, rfl, rfl, .hard32K, (ok.inj h).symm⟩
    · cases h
  · rintro ⟨p, r, rfl, rfl, hpa, rfl⟩
    cases hpa <;> rfl

variable {r : ResourceName}

theorem Paired.shapeFor_eq {p : ProfileName} (h : Paired p r) (role : Role) (n : ℕ) :
    shapeFor (.known p) (.known r) role n = .ok (shapeOf r role n) :=
  shapeFor_ok_iff.2 ⟨p, r, rfl, rfl, h, rfl⟩

theorem shapeOf_ports (h : r ≠ .predictive) (role : Role) (n m : ℕ) :
    shapeOf r role n = shapeOf r role m := by
  cases r with
  | predictive => exact absurd rfl h
  | _ => rfl

theorem probabilityFor_ports (h : r ≠ .predictive) (coverage : Bytes) (n m : ℕ)
    (shape : PlanShape) :
    probabilityFor P (.known r) coverage n shape = probabilityFor P (.known r) coverage m shape := by
  cases r with
  | predictive => exact absurd rfl h
  | _ => rfl

theorem probabilityFor_coverage {resource : ResourceClass} {coverage : Bytes} {n : ℕ}
    {shape : PlanShape} {report : ProbabilityReport}
    (h : probabilityFor P resource coverage n shape = .ok report) :
    report.modelCoverage = coverage := by
  unfold probabilityFor at h
  split at h
  iterate 2
    · simp only [probabilityForHardShape, bind_ok_iff] at h
      obtain ⟨_, -, _, -, _, -, _, -, hrep⟩ := h
      cases hrep
      rfl
  iterate 2
    · simp only [bind_ok_iff] at h
      obtain ⟨_, -, _, -, _, -, hrep⟩ := h
      cases hrep
      rfl
  · cases h

/-! ## Slots -/

/-- What `validateSourceSlots` checks. -/
structure SlotsOK (c : LocalSourceCommitment) (r : ResourceName) : Prop where
  length : c.sourceSlots.length = wantedSlots r c.role
  valid : ∀ item ∈ c.sourceSlots.zipIdx, validSlot c r item.2 item.1
  nodup : r = .predictive → (c.sourceSlots.map (·.expectedPublicSourcePort)).Nodup

theorem validateSourceSlots_ok_iff {c : LocalSourceCommitment} (h : c.resourceClass = .known r) :
    validateSourceSlots c = .ok () ↔ SlotsOK c r := by
  unfold validateSourceSlots
  rw [h]
  simp only [bind_ok_iff, failIf_ok_iff, not_not, not_and]
  constructor
  · rintro ⟨-, hlen, -, hva, hno⟩
    exact ⟨hlen, hva, hno⟩
  · intro hok
    exact ⟨(), hok.length, (), hok.valid, hok.nodup⟩

theorem mem_numberedSlots_zipIdx {n : ℕ} {item : SourceSlot × ℕ}
    (h : item ∈ (numberedSlots n).zipIdx) :
    item.1 = { socketSlot := UInt16.ofNat item.2, ordinal := item.2 } := by
  have hget := mem_zipIdx_iff_getElem?.1 h
  rw [numberedSlots, getElem?_map] at hget
  obtain ⟨i, hi, heq⟩ := Option.map_eq_some_iff.1 hget
  obtain ⟨hlt, hi⟩ := List.getElem?_eq_some_iff.1 hi
  rw [getElem_range] at hi
  rw [← heq, ← hi]

theorem mem_predictiveSlots_zipIdx {ports : List UInt16} {item : SourceSlot × ℕ}
    (h : item ∈ (predictiveSlots ports).zipIdx) :
    ∃ port ∈ ports, item.1 = ⟨UInt16.ofNat (item.2 % 8), item.2, port⟩ := by
  have hget := mem_zipIdx_iff_getElem?.1 h
  rw [predictiveSlots, getElem?_map] at hget
  obtain ⟨⟨port, i⟩, hi, heq⟩ := Option.map_eq_some_iff.1 hget
  rw [getElem?_zipIdx] at hi
  obtain ⟨port', hpo, hpa⟩ := Option.map_eq_some_iff.1 hi
  cases hpa
  exact ⟨port, mem_of_getElem? hpo, by rw [← heq, Nat.zero_add]⟩

theorem predictiveSlots_length (ports : List UInt16) :
    (predictiveSlots ports).length = ports.length := by
  simp [predictiveSlots]

theorem predictiveSlots_ports (ports : List UInt16) :
    (predictiveSlots ports).map (·.expectedPublicSourcePort) = ports := by
  rw [predictiveSlots, map_map]
  exact zipIdx_map_fst 0 ports

theorem numberedSlots_length (n : ℕ) : (numberedSlots n).length = n := by simp [numberedSlots]

/-! ## Validation -/

/-- What `validateLocalCommitment` checks. -/
structure LocalOK (P : Primitives) (c : LocalSourceCommitment) (p : ProfileName)
    (r : ResourceName) : Prop where
  profile : c.profile = .known p
  resource : c.resourceClass = .known r
  paired : Paired p r
  role : validateRole (.known p) c.role = .ok ()
  endpoint : validateReceiveEndpoint (.known p) c.role c.receiveEndpoint = .ok ()
  cost : c.cost = (shapeOf r c.role (predictedPortsOf c)).cost
  universe_eq : c.universe_ = (shapeOf r c.role (predictedPortsOf c)).universe_
  executable : c.executable = (shapeOf r c.role (predictedPortsOf c)).executable
  costDigest : c.costDigest = digestCost P (.known p) (.known r) c.cost
  evidenceDigest : allZero c.evidenceDigest = false
  validationDigest : allZero c.validationDigest = false
  sourceDigest : c.sourceDigest = digestSourceCommitment P c
  report : probabilityFor P (.known r) c.probability.modelCoverage (predictedPortsOf c)
    (shapeOf r c.role (predictedPortsOf c)) = .ok c.probability
  admitted : probabilityAdmitted (.known r) c.probability = true
  slots : SlotsOK c r

theorem validateLocalCommitment_ok_iff {c : LocalSourceCommitment} :
    validateLocalCommitment P c = .ok () ↔ ∃ p r, LocalOK P c p r := by
  simp only [validateLocalCommitment, shapeForCommitment, probabilityForCommitment, bind_ok_iff,
    failIf_ok_iff, shapeFor_ok_iff, not_or, not_not, Bool.not_eq_true, Bool.not_eq_false]
  constructor
  · rintro ⟨⟨⟩, hro, ⟨⟩, hend, _, ⟨p, r, hpro, hres, hpai, rfl⟩, report, hrep, ⟨⟩,
      ⟨hco, huni, hexecutable, hcos, hevi, hval, hsou, heq, hadm⟩, hsl⟩
    rw [hpro] at hro hend hcos
    rw [hres] at hrep hcos hadm
    rw [← heq] at hrep
    exact ⟨p, r, hpro, hres, hpai, hro, hend, hco, huni, hexecutable, hcos, hevi,
      hval, hsou, hrep, hadm, (validateSourceSlots_ok_iff hres).1 hsl⟩
  · rintro ⟨p, r, h⟩
    refine ⟨(), h.profile ▸ h.role, (), h.profile ▸ h.endpoint, _, ⟨p, r, h.profile, h.resource,
      h.paired, rfl⟩,
      c.probability, h.resource ▸ h.report, (), ⟨h.cost, h.universe_eq, h.executable, ?_,
      h.evidenceDigest, h.validationDigest, h.sourceDigest, rfl, h.resource ▸ h.admitted⟩,
      (validateSourceSlots_ok_iff h.resource).2 h.slots⟩
    rw [h.profile, h.resource]
    exact h.costDigest

/-- What a commitment is made from, apart from its slots. -/
structure Made (P : Primitives) (p : ProfileName) (r : ResourceName) (role : Role)
    (endpoint : AddressPort) (coverage : Bytes) (n : ℕ) (report : ProbabilityReport) : Prop where
  paired : Paired p r
  role_ok : validateRole (.known p) role = .ok ()
  endpoint_ok : validateReceiveEndpoint (.known p) role endpoint = .ok ()
  report_ok : probabilityFor P (.known r) coverage n (shapeOf r role n) = .ok report
  admitted : probabilityAdmitted (.known r) report = true

section Make

variable {p : ProfileName} {r : ResourceName} {role : Role} {endpoint : AddressPort}
  {coverage : Bytes} {n : ℕ} {report : ProbabilityReport}

variable (P p r role endpoint n report) in
def makeCommitment (attemptDigest : Digest) (generation : UInt64)
    (evidenceDigest validationDigest : Digest) (slots : List SourceSlot) : LocalSourceCommitment :=
  commitmentOf P (.known p) (.known r) role attemptDigest generation evidenceDigest validationDigest
    endpoint
    (shapeOf r role n) report slots

variable {attemptDigest evidenceDigest validationDigest : Digest} {generation : UInt64}
  {slots : List SourceSlot}

/-- **Only the slots of a commitment are left to check.** -/
theorem makeCommitment_ok_iff (h : Made P p r role endpoint coverage n report)
    (hsl : r = .predictive → slots.length = n) (hevi : allZero evidenceDigest = false)
    (hval : allZero validationDigest = false) :
    validateLocalCommitment P (makeCommitment P p r role endpoint n report attemptDigest generation
      evidenceDigest
        validationDigest slots) = .ok () ↔
      SlotsOK (makeCommitment P p r role endpoint n report attemptDigest generation evidenceDigest
        validationDigest
        slots) r := by
  rw [validateLocalCommitment_ok_iff]
  generalize hc : makeCommitment P p r role endpoint n report attemptDigest generation
    evidenceDigest validationDigest
    slots = c
  have hpo : shapeOf r role (predictedPortsOf c) = shapeOf r role n ∧
      probabilityFor P (.known r) coverage (predictedPortsOf c) (shapeOf r role n) = .ok report := by
    by_cases hr : r = .predictive
    · have hco : predictedPortsOf c = n := by
        rw [← hc, ← hsl hr]
        exact if_pos (congrArg _ hr)
      rw [hco]
      exact ⟨rfl, h.report_ok⟩
    · exact ⟨shapeOf_ports hr _ _ _, probabilityFor_ports hr coverage _ n _ ▸ h.report_ok⟩
  have hcov := probabilityFor_coverage h.report_ok
  constructor
  · rintro ⟨p', r', hok⟩
    have hr : r' = r := by
      have hres := hok.resource
      rw [← hc] at hres
      exact (Named.known.inj hres).symm
    exact hr ▸ hok.slots
  · intro hok
    subst hc
    refine ⟨p, r, rfl, rfl, h.paired, h.role_ok, h.endpoint_ok, ?_, ?_, ?_, rfl, hevi, hval, rfl,
      ?_, h.admitted, hok⟩
    · exact congrArg PlanShape.cost hpo.1.symm
    · exact congrArg PlanShape.universe_ hpo.1.symm
    · exact congrArg PlanShape.executable hpo.1.symm
    · calc _ = probabilityFor P (.known r) coverage _ (shapeOf r role n) := by
            rw [← hcov]
            exact congrArg _ hpo.1
        _ = _ := hpo.2

/-- **The compact form of a commitment is rebuilt to it**, if it is valid and its coverage text
fits. -/
theorem reconstructLocalCommitment_eq (h : Made P p r role endpoint coverage n report)
    {input : CompactSourceInput}
    (hpro : input.profile = .known p) (hres : input.resourceClass = .known r) (hro : input.role = role)
    (hend : input.receiveEndpoint = endpoint) (hcov : input.modelCoverage = coverage)
    (hgen : input.generation ≠ 0) (hatt : allZero input.attemptDigest = false)
    (hevi : allZero input.evidenceDigest = false) (hval : allZero input.validationDigest = false)
    (hlen : coverage.length ≠ 0 ∧ coverage.length ≤ maxModelCoverageBytes)
    (hfie : validateCompactFields input = .ok ()) (hexecutable : (shapeOf r role n).executable = true)
    (hco : r = .predictive → input.predictedPorts.length = n)
    (hsl : sourceSlotsFor (.known r) role input.predictedPorts input.receiveSocketSlot endpoint =
      .ok slots)
    (hok : validateLocalCommitment P (makeCommitment P p r role endpoint n report
      input.attemptDigest input.generation
      input.evidenceDigest input.validationDigest slots) = .ok ()) :
    reconstructLocalCommitment P input = .ok (makeCommitment P p r role endpoint n report
      input.attemptDigest
      input.generation input.evidenceDigest input.validationDigest slots) := by
  have hpo : shapeOf r role input.predictedPorts.length = shapeOf r role n ∧
      probabilityFor P (.known r) coverage input.predictedPorts.length (shapeOf r role n) =
        .ok report := by
    by_cases hr : r = .predictive
    · rw [hco hr]
      exact ⟨rfl, h.report_ok⟩
    · exact ⟨shapeOf_ports hr _ _ _, probabilityFor_ports hr coverage _ n _ ▸ h.report_ok⟩
  unfold reconstructLocalCommitment
  simp only [bind_ok_iff, failIf_ok_iff, mapError_ok_iff, not_or, Bool.not_eq_true,
    Bool.not_eq_false, not_lt]
  refine ⟨(), ⟨hgen, hatt, hevi, hval, hcov ▸ hlen.1, hcov ▸ hlen.2⟩, (), ?_, (),
    hfie, shapeOf r role n, ?_, (), hexecutable, report, ?_, (), ?_, slots, ?_, (), ?_, ?_⟩
  · rw [hpro, hro]
    exact h.role_ok
  · rw [hpro, hres, hro, h.paired.shapeFor_eq, hpo.1]
  · rw [hres, hcov]
    exact hpo.2
  · rw [hres]
    exact h.admitted
  · rw [hres, hro, hend]
    exact hsl
  · rw [hpro, hres, hro, hend]
    exact hok
  · rw [hpro, hres, hro, hend]
    rfl

end Make

/-! ## The order of the commitments -/

/-- Commitments that do not pair up fail in either order, and the roles of a pair fix its order. -/
theorem canonicalCommitments_comm (x y : LocalSourceCommitment) :
    canonicalCommitments x y = canonicalCommitments y x := by
  have hmismatch : ∀ {x y : LocalSourceCommitment}, ¬ (x.profile = y.profile ∧
    x.resourceClass = y.resourceClass ∧
      x.attemptDigest = y.attemptDigest ∧ x.generation = y.generation) →
      canonicalCommitments x y = .error .planMismatch := fun h =>
    bind_error_iff.2 (.inl (failIf_error_iff.2 ⟨by tauto, rfl⟩))
  by_cases h : x.profile = y.profile ∧ x.resourceClass = y.resourceClass ∧
    x.attemptDigest = y.attemptDigest ∧ x.generation = y.generation
  · obtain ⟨h1, h2, h3, h4⟩ := h
    simp only [canonicalCommitments, h1, h2, h3, h4]
    congr 1
    funext _
    cases y.profile with
    | other => rfl
    | known p =>
      have hne : (directionRoles p).1 ≠ (directionRoles p).2 := by cases p <;> decide
      dsimp only
      split_ifs with ha hb
      · exact absurd (ha.1.symm.trans hb.2) hne
      all_goals rfl
  · rw [hmismatch h, hmismatch fun h' => h ⟨h'.1.symm, h'.2.1.symm, h'.2.2.1.symm, h'.2.2.2.symm⟩]

/-- **Both sides build the same plan**, whichever of the two commitments is passed first. -/
theorem bilateral_plan_symmetric (P : Primitives) (left right : LocalSourceCommitment)
    (keySource : Option (PlannerKeyContext → Option Digest)) :
    buildBilateralPlan P left right keySource = buildBilateralPlan P right left keySource := by
  rw [buildBilateralPlan, canonicalCommitments_comm]
  rfl

end Winkyou.HardNat
