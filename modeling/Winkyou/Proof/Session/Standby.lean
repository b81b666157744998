import Mathlib.Data.List.Induction
import Mathlib.Data.Finset.Max
import Winkyou.Spec.Session.Standby

/-!
# Which path takes over

The loop of `selectStandby` compares two paths by protection, and by priority only when their roles
are the same, so its result depends on the order of the paths. It is the protected path of the
highest priority in every order exactly when the roles tell enough (`RolesTell`).

* `standby_prefers_protected`
* `dependent_path_displaces_protected`: otherwise a path of the same role that is not protected can
  win.
-/

namespace Winkyou.Session

open List

variable {excludeIDs : List String} {paths l L : List ChildState} {a b p r s : ChildState}

/-- The paths that may take over. -/
def candidates (excludeIDs : List String) (paths : List ChildState) : List ChildState :=
  paths.filter fun state => state.id ∉ excludeIDs ∧ state.healthy = true

/-- A protected path of the highest priority among the protected ones. -/
def Leads (l : List ChildState) (r : ChildState) : Prop :=
  r.isProtectedDirectPath ∧ ∀ s ∈ l, s.isProtectedDirectPath → s.priority ≤ r.priority

/-- What the roles of the paths have to say for the result to lead in every order. -/
structure RolesTell (l : List ChildState) : Prop where
  /-- A role with a protected path has one that no protected path and no path of the role
  exceeds. -/
  level : ∀ p ∈ l, ∀ q ∈ l, p.isProtectedDirectPath → (q.isProtectedDirectPath ∨ q.role = p.role) →
    ∃ p' ∈ l, p'.isProtectedDirectPath ∧ p'.role = p.role ∧ q.priority ≤ p'.priority
  /-- Where a path that is not protected exceeds a protected one of its role, the protected paths of
  the other roles lead. -/
  turn : ∀ b ∈ l, ∀ d ∈ l, b.isProtectedDirectPath → ¬ d.isProtectedDirectPath → d.role = b.role →
    b.priority < d.priority → ∀ c ∈ l, c.isProtectedDirectPath → c.role ≠ b.role → Leads l c

/-! ## The loop -/

/-- **The loop over the paths that may take over.** -/
theorem selectStandby_eq (excludeIDs : List String) (paths : List ChildState) :
    selectStandby paths excludeIDs = match candidates excludeIDs paths with
      | [] => none
      | a :: l => some (l.foldl prefer a) := by
  have hsome (l : List ChildState) : ∀ a, l.foldl (fun best s =>
    some (best.elim s (prefer · s))) (some a) =
      some (l.foldl prefer a) := by
    induction l with
    | nil => exact fun _ => rfl
    | cons s l ih => exact fun a => ih (prefer a s)
  have hfilter : selectStandby paths excludeIDs =
      (candidates excludeIDs paths).foldl (fun best s => some (best.elim s (prefer · s))) none := by
    rw [candidates, foldl_filter, selectStandby]
    congr! 3 with best s
    simp only [considerStandby, ← ite_not (s.id ∈ excludeIDs ∨ s.healthy = false), not_or,
      Bool.not_eq_false, decide_eq_true_eq]
  rw [hfilter]
  cases candidates excludeIDs paths with
  | nil => rfl
  | cons a l => exact hsome l a

theorem prefer_mem (a s : ChildState) : prefer a s = a ∨ prefer a s = s := by
  unfold prefer
  split_ifs <;> simp

/-- What one pass keeps, the loop keeps: about the paths seen so far and the best one. -/
theorem foldl_prefer_induction {I : List ChildState → ChildState → Prop} (h0 : I [a] a)
    (hstep : ∀ seen, ∀ r ∈ a :: l, ∀ s ∈ l, I seen r → I (seen ++ [s]) (prefer r s)) :
    l.foldl prefer a ∈ a :: l ∧ I (a :: l) (l.foldl prefer a) := by
  induction l using List.reverseRecOn with
  | nil => exact ⟨mem_singleton_self a, h0⟩
  | append_singleton l s ih =>
    obtain ⟨hmem, hI⟩ := ih fun seen r hr s hs =>
      hstep seen r (cons_subset_cons a (subset_append_left _ _) hr) s (mem_append_left _ hs)
    rw [foldl_concat]
    refine ⟨?_, hstep _ _ (cons_subset_cons a (subset_append_left _ _) hmem) s (by simp) hI⟩
    rcases prefer_mem (l.foldl prefer a) s with h | h <;> rw [h]
    · exact cons_subset_cons a (subset_append_left _ _) hmem
    · simp

theorem foldl_prefer_mem (a : ChildState) (l : List ChildState) : l.foldl prefer a ∈ a :: l :=
  (foldl_prefer_induction (I := fun _ _ => True) trivial fun _ _ _ _ _ _ => trivial).1

/-- A path of another role leaves a protected one in place. -/
theorem foldl_prefer_stays (hb : b.isProtectedDirectPath) (h : ∀ s ∈ l, s.role ≠ b.role) :
    l.foldl prefer b = b := by
  refine foldlRecOn (motive := (· = b)) l prefer rfl fun r hr s hs => ?_
  subst hr
  simp [prefer, hb, h s hs]

theorem foldl_prefer_role (h : ∀ s ∈ l, s.role = b.role) : (l.foldl prefer b).role = b.role := by
  refine foldlRecOn (motive := (·.role = b.role)) l prefer rfl fun r hr s hs => ?_
  rcases prefer_mem r s with h' | h' <;> rw [h']
  exacts [hr, h s hs]

/-! ## The condition is enough -/

/-- A path that leads stays. -/
theorem RolesTell.prefer_leads (h : RolesTell L) (hr : r ∈ L) (hs : s ∈ L) (hl : Leads L r) :
    prefer r s = r := by
  have hnot : ¬ (s.role = r.role ∧ s.priority > r.priority) := by
    rintro ⟨hrole, hgt⟩
    obtain ⟨p', hp', hprot, -, hle⟩ := h.level r hr s hs hl.1 (.inr hrole)
    exact absurd (hle.trans (hl.2 p' hp' hprot)) (not_le.2 hgt)
  simp [prefer, hl.1, hnot]

/-- **The loop ends with a path that leads.** -/
theorem RolesTell.leads (h : RolesTell L) (hmem : ∀ x, x ∈ a :: l ↔ x ∈ L) (hp : p ∈ L)
    (hprot : p.isProtectedDirectPath) : Leads L (l.foldl prefer a) := by
  have hl : ∀ s ∈ l, s ∈ L := fun s hs => (hmem s).1 (mem_cons_of_mem a hs)
  by_cases hturn : ∃ b ∈ L, ∃ d ∈ L, b.isProtectedDirectPath ∧ ¬ d.isProtectedDirectPath ∧
    d.role = b.role ∧
      b.priority < d.priority
  · -- a protected path that does not lead has the role of `b`, so the first that leads there is taken
    obtain ⟨b, hb, d, hd, hbp, hdp, hrole, hlt⟩ := hturn
    have hI := foldl_prefer_induction (a := a) (l := l)
      (I := fun seen r => (∃ t ∈ seen, Leads L t ∧ t.role = b.role) → Leads L r)
      (by simp only [mem_singleton]; rintro ⟨_, rfl, h', -⟩; exact h') fun seen r hr s hs ih => by
        rintro ⟨t, ht, htl, htr⟩
        by_cases hrl : Leads L r
        · rwa [h.prefer_leads ((hmem r).1 hr) (hl s hs) hrl]
        rcases mem_append.1 ht with ht | ht
        · exact absurd (ih ⟨t, ht, htl, htr⟩) hrl
        obtain rfl := mem_singleton.1 ht
        by_cases hrp : r.isProtectedDirectPath
        · have hrb : r.role = b.role := by
            by_contra hne
            exact hrl (h.turn b hb d hd hbp hdp hrole hlt r ((hmem r).1 hr) hrp hne)
          have hgt : t.priority > r.priority := by
            by_contra hle
            exact hrl ⟨hrp, fun q hq hqp => (htl.2 q hq hqp).trans (not_lt.1 hle)⟩
          simpa [prefer, hrp, htr, hrb, hgt] using htl
        · simpa [prefer, hrp, htl.1] using htl
    -- the highest protected path has its like in the role of `b`
    obtain ⟨top, htop, hmax⟩ : ∃ top ∈ L, top.isProtectedDirectPath ∧ ∀ q ∈ L, q.isProtectedDirectPath →
        q.priority ≤ top.priority := by
      classical
      obtain ⟨top, htop, hmax⟩ := (L.toFinset.filter (·.isProtectedDirectPath)).exists_max_image
        (·.priority)
        ⟨p, by simp [hp, hprot]⟩
      exact ⟨top, by simp_all, by simp_all, fun q hq hqp => hmax q (by simp [hq, hqp])⟩
    obtain ⟨t, ht, htp, htr, hle⟩ := h.level b hb top htop hbp (.inl hmax.1)
    exact hI.2 ⟨t, (hmem t).2 ht, ⟨htp, fun q hq hqp => (hmax.2 q hq hqp).trans hle⟩, htr⟩
  · -- a protected path is only replaced by a protected one of its role
    have hI := foldl_prefer_induction (a := a) (l := l)
      (I := fun seen r => ∀ p ∈ seen, p.isProtectedDirectPath → r.isProtectedDirectPath ∧
        (p.role = r.role → p.priority ≤ r.priority)) (by simp) fun seen r hr s hs ih x hx hxp => by
        by_cases hrp : r.isProtectedDirectPath
        · have hpref : prefer r s = if s.role = r.role ∧ s.priority > r.priority then s
            else r := by simp [prefer, hrp]
          rw [hpref]
          split_ifs with hgt
          · have hsp : s.isProtectedDirectPath := by
              by_contra hsp
              exact hturn ⟨r, (hmem r).1 hr, s, hl s hs, hrp, hsp, hgt⟩
            refine ⟨hsp, fun hrole => ?_⟩
            rcases mem_append.1 hx with hx | hx
            · exact ((ih x hx hxp).2 (hrole.trans hgt.1)).trans hgt.2.le
            · rw [mem_singleton.1 hx]
          · refine ⟨hrp, fun hrole => ?_⟩
            rcases mem_append.1 hx with hx | hx
            · exact (ih x hx hxp).2 hrole
            · obtain rfl := mem_singleton.1 hx
              exact not_lt.1 fun hlt => hgt ⟨hrole, hlt⟩
        · rcases mem_append.1 hx with hx | hx
          · exact absurd (ih x hx hxp).1 hrp
          · obtain rfl := mem_singleton.1 hx
            simp [prefer, hrp, hxp]
    have hrp := (hI.2 p ((hmem p).2 hp) hprot).1
    refine ⟨hrp, fun q hq hqp => ?_⟩
    obtain ⟨t, ht, htp, htr, hle⟩ := h.level _ ((hmem _).1 hI.1) q hq hrp (.inl hqp)
    exact hle.trans ((hI.2 t ((hmem t).2 ht) htp).2 htr)

/-! ## The condition is needed -/

theorem exists_perm_cons (h : a ∈ l) : ∃ rest, l.Perm (a :: rest) := by
  obtain ⟨u, v, rfl⟩ := append_of_mem h
  exact ⟨u ++ v, perm_middle⟩

/-- The paths of other roles first, then those of the role. -/
theorem exists_perm_role (role : PathRole) (l : List ChildState) :
    ∃ others same, l.Perm (others ++ same) ∧
    (∀ s ∈ others, s.role ≠ role) ∧ ∀ s ∈ same, s.role = role :=
  ⟨_, _, (filter_append_perm (·.role ≠ role) l).symm, by simp, by simp⟩

/-- **An order in which the loop ends with another path**, unless the roles tell. -/
theorem RolesTell.of_leads (h : ∀ a l, (a :: l).Perm L → Leads L (l.foldl prefer a)) :
    RolesTell L where
  level p hp q hq hpp hqp := by
    by_contra! hlow
    obtain ⟨X, hX⟩ := exists_perm_cons hp
    by_cases hprot : q.isProtectedDirectPath
    · -- the other roles leave `p` in place, and its own role has no path that leads
      obtain ⟨others, same, hperm, hothers, hsame⟩ := exists_perm_role p.role X
      have hall := hX.trans (hperm.cons p)
      have hl := h p _ hall.symm
      rw [foldl_append, foldl_prefer_stays hpp hothers] at hl
      have hmem : same.foldl prefer p ∈ L := by
        refine hall.mem_iff.2 (cons_subset_cons p (fun s hs => ?_) (foldl_prefer_mem p same))
        simp [hs]
      exact absurd (hl.2 q hq hprot) (not_le.2 (hlow _ hmem hl.1 (foldl_prefer_role hsame)))
    · -- with `q` at the end, it displaces a protected path of its role
      have hqX : q ∈ X := (mem_cons.1 (hX.mem_iff.1 hq)).resolve_left (by rintro rfl; exact hprot hpp)
      obtain ⟨Y, hY⟩ := exists_perm_cons hqX
      obtain ⟨others, same, hperm, hothers, hsame⟩ := exists_perm_role p.role Y
      have hall : L.Perm (p :: (others ++ same ++ [q])) :=
        hX.trans (.cons p (hY.trans ((hperm.cons q).trans (perm_append_singleton q _).symm)))
      have hl := h p _ hall.symm
      rw [foldl_concat, foldl_append, foldl_prefer_stays hpp hothers] at hl
      have hmem : same.foldl prefer p ∈ L := by
        refine hall.mem_iff.2 (cons_subset_cons p (fun s hs => ?_) (foldl_prefer_mem p same))
        simp [hs]
      have hrole := foldl_prefer_role hsame
      by_cases hrp : (same.foldl prefer p).isProtectedDirectPath
      · have hgt := hlow _ hmem hrp hrole
        simp [prefer, hrp, hprot, hrole, hqp.resolve_left hprot, hgt, Leads] at hl
      · rcases prefer_mem (same.foldl prefer p) q with h' | h' <;> rw [h'] at hl
        exacts [hrp hl.1, hprot hl.1]
  turn b hb d hd hbp hdp hrole hlt c hc hcp hne := by
    -- `b`, the other roles, `d`, `c`, and the role of `b`: the loop ends with `c`
    obtain ⟨X, hX⟩ := exists_perm_cons hb
    have hdX : d ∈ X := (mem_cons.1 (hX.mem_iff.1 hd)).resolve_left (by rintro rfl; exact hdp hbp)
    obtain ⟨Y, hY⟩ := exists_perm_cons hdX
    have hcY : c ∈ Y := by
      rcases mem_cons.1 (hX.mem_iff.1 hc) with rfl | hcX
      · exact absurd rfl hne
      · exact (mem_cons.1 (hY.mem_iff.1 hcX)).resolve_left (by rintro rfl; exact hdp hcp)
    obtain ⟨Z, hZ⟩ := exists_perm_cons hcY
    obtain ⟨others, same, hperm, hothers, hsame⟩ := exists_perm_role b.role Z
    have hall : L.Perm (b :: (others ++ d :: c :: same)) := by
      refine hX.trans (.cons b (hY.trans ((hZ.cons d).trans (((hperm.cons c).cons d).trans ?_))))
      exact (perm_middle.cons d).symm.trans perm_middle.symm
    have hl := h b _ hall.symm
    have hd' : prefer b d = d := by simp [prefer, hdp, hrole, hlt]
    have hc' : prefer d c = c := by simp [prefer, hcp, hdp]
    rwa [foldl_append, foldl_prefer_stays hbp hothers, foldl_cons, foldl_cons, hd', hc',
      foldl_prefer_stays hcp fun s hs => by rw [hsame s hs]; exact hne.symm] at hl

theorem exists_candidates {l : List ChildState} (h : l.Perm (candidates excludeIDs paths)) :
    ∃ paths', paths'.Perm paths ∧ candidates excludeIDs paths' = l := by
  refine ⟨l ++ paths.filter fun s => !decide (s.id ∉ excludeIDs ∧ s.healthy = true), ?_, ?_⟩
  · exact (h.append_right _).trans (filter_append_perm _ _)
  · have hl : l.filter (fun s => s.id ∉ excludeIDs ∧ s.healthy = true) = l :=
      filter_eq_self.2 fun s hs => (mem_filter.1 (h.mem_iff.1 hs)).2
    rw [candidates, filter_append, hl, filter_filter]
    simp

/-- **The protected direct path of the highest priority takes over, in every order of the paths,
exactly when the roles tell enough.** Some path takes over when any may. -/
theorem standby_prefers_protected (paths : List ChildState) (excludeIDs : List String) :
    bestStandbyLocked paths excludeIDs = selectStandby paths excludeIDs ∧
    ((∃ s ∈ candidates excludeIDs paths, s.isProtectedDirectPath) →
      ((∀ paths', paths'.Perm paths → ∃ r ∈ candidates excludeIDs paths,
        selectStandby paths' excludeIDs = some r ∧ Leads (candidates excludeIDs paths) r) ↔
      RolesTell (candidates excludeIDs paths))) ∧
    (candidates excludeIDs paths ≠ [] → (selectStandby paths excludeIDs).isSome = true) := by
  refine ⟨rfl, fun ⟨p, hp, hprot⟩ => ⟨fun h => ?_, fun h paths' hperm => ?_⟩, fun hne => ?_⟩
  · refine .of_leads fun a l hal => ?_
    obtain ⟨paths', hperm, hcand⟩ := exists_candidates hal
    obtain ⟨r, -, hsel, hr⟩ := h paths' hperm
    rw [selectStandby_eq, hcand] at hsel
    rwa [Option.some.inj hsel]
  · have hcand : (candidates excludeIDs paths').Perm (candidates excludeIDs paths) := hperm.filter _
    rw [selectStandby_eq]
    cases hc : candidates excludeIDs paths' with
    | nil =>
      rw [← hcand.mem_iff, hc] at hp
      cases hp
    | cons a l =>
      rw [hc] at hcand
      exact ⟨_, hcand.mem_iff.1 (foldl_prefer_mem a l), rfl, h.leads (fun _ => hcand.mem_iff) hp hprot⟩
  · rw [selectStandby_eq]
    cases hc : candidates excludeIDs paths with
    | nil => exact absurd hc hne
    | cons => rfl

/-- A path of the role `protected_direct`. -/
def directChild (id : String) (dependencies : List PathDependency) (priority : ℤ) : ChildState :=
  ⟨⟨id, .protectedDirect, ⟨id, "direct", "", ∅, .protectedDirect, dependencies, ∅⟩, 0, priority,
    false⟩, true⟩

/-- A relayed path of the role below the highest protected one does no harm, wherever it stands. -/
theorem standby_prefers_protected_pair : ∃ r, selectStandby
    [directChild "a" [] 1, directChild "b" [⟨.relay, "", ""⟩] 2, directChild "c" [] 5] [] = some r ∧
    r.isProtectedDirectPath ∧ 5 ≤ r.priority := by
  let paths := [directChild "a" [] 1, directChild "b" [⟨.relay, "", ""⟩] 2, directChild "c" [] 5]
  have hc : candidates [] paths = paths := rfl
  have hro : RolesTell (candidates [] paths) := by
    rw [hc]
    exact ⟨by decide +kernel, by unfold Leads; decide +kernel⟩
  have hmem : directChild "c" [] 5 ∈ candidates [] paths := by simp [hc, paths]
  have hprot : (directChild "c" [] 5).isProtectedDirectPath := by decide +kernel
  obtain ⟨r, -, hr, hlead⟩ := ((standby_prefers_protected paths []).2.1 ⟨_, hmem, hprot⟩).2 hro
    paths (.refl _)
  exact ⟨r, hr, hlead.1, hlead.2 _ hmem hprot⟩

/-- **A path with a dependency displaces a protected one** of the same role and a lower priority. -/
theorem dependent_path_displaces_protected : ∃ paths : List ChildState,
    (∃ s ∈ candidates [] paths, s.isProtectedDirectPath = true) ∧
    ∃ r, selectStandby paths [] = some r ∧ bestStandbyLocked paths [] = some r ∧
      r.isProtectedDirectPath = false := by
  let relayed := directChild "b" [⟨.relay, "", ""⟩] 2
  have hsel : selectStandby [directChild "a" [] 1, relayed] [] = some relayed := by
    refine congrArg some (if_neg ?_ |>.trans (if_pos ?_)) <;> decide +kernel
  exact ⟨[directChild "a" [] 1, relayed], ⟨directChild "a" [] 1, by simp [candidates,
    directChild], by decide +kernel⟩,
    relayed, hsel, hsel, by decide +kernel⟩

end Winkyou.Session
