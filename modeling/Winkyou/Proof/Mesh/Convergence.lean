import Winkyou.Lib.Transition
import Winkyou.Proof.Mesh.Routes

/-!
# Topologies converge

Each family of records keeps, for every node, a record of highest revision among those that were
stored or have arrived. Where records of one node and revision have equal content that record is
unique, so two nodes that have received the same records in any order, any number of times, hold the
same records; and the stored route tables are those of the stored records.

* `Topology.Reachable`: the states of a topology under every operation.
* `TopologyOK`: what every operation keeps, the route tables included.
* `topology_converges`: order and duplication do not matter.
-/

namespace Winkyou.Mesh

open Winkyou.Mesh.Topology List AList Except

/-! ## Operations -/

inductive TopologyAction
  | setLocalMember (record : MemberRecord)
  | setLocalLinkState (record : LinkStateAdvertisement)
  | applyMember (record : MemberRecord) (receivedAt now : Time)
  | applyLinkState (record : LinkStateAdvertisement) (receivedAt now : Time)
  | expire (now clock : Time)

/-- The topology after an operation; an operation that fails leaves it as it is. -/
def Topology.act (o : RangeOrder) (t : Topology) : TopologyAction → Topology
  | .setLocalMember record => (t.setLocalMember o record).toOption.getD t
  | .setLocalLinkState record => (t.setLocalLinkState o record).toOption.getD t
  | .applyMember record receivedAt now => (t.applyMember o record receivedAt now).1
  | .applyLinkState record receivedAt now => (t.applyLinkState o record receivedAt now).1
  | .expire now clock => (t.expire o now clock).1

/-- The topologies that operations reach from a new one. -/
def Topology.Reachable : Topology → Prop :=
  Transition.Reachable (fun t a => some (Topology.act a.1 t a.2)) (fun t => ∃ id, newTopology id =
    .ok t) fun _ (_ : RangeOrder × TopologyAction) => True

variable {ρ : Type} {f : Family ρ} {t t' : Topology} {o : RangeOrder}

/-! ## The two families -/

/-- The records of a table stand under the id of their node. -/
structure TableOK (f : Family ρ) (t : Topology) : Prop where
  keyed : ∀ id s, (f.table t).lookup id = some s → f.nodeID s.record = id ∧ id ≠ ""
  isLocal : ∀ id s, (f.table t).lookup id = some s → (s.isLocal = true ↔ id = t.localID)

structure RecordsOK (t : Topology) : Prop where
  localID : t.localID ≠ ""
  members : TableOK memberFamily t
  lsas : TableOK linkStateFamily t

/-- What the proofs use of a family. -/
structure Family.Lawful (f : Family ρ) : Prop where
  equal_iff : ∀ a b, f.equal a b = true ↔ a = b
  table_setTable : ∀ t m, f.table (f.setTable t m) = m
  localID_setTable : ∀ t m, (f.setTable t m).localID = t.localID
  routes_setTable : ∀ t m, (f.setTable t m).routes = t.routes ∧
    (f.setTable t m).dataRoutes = t.dataRoutes
  table_recompute : ∀ t o, f.table (t.recomputeLocked o) = f.table t
  /-- putting a record in the place of an equal one keeps the records -/
  sameRecords : ∀ t m, (∀ id, id ∈ m ↔ id ∈ f.table t) →
    (∀ id, (m.lookup id).map Leased.record = ((f.table t).lookup id).map Leased.record) →
    t.SameRecords (f.setTable t m)
  tableOK : ∀ t, RecordsOK t → TableOK f t
  recordsOK : ∀ t m, RecordsOK t → TableOK f (f.setTable t m) → RecordsOK (f.setTable t m)

theorem memberFamily_lawful : memberFamily.Lawful where
  equal_iff a b := by
    obtain ⟨_, _, _, _, _, _, _⟩ := a
    obtain ⟨_, _, _, _, _, _, _⟩ := b
    simp [memberFamily, memberRecordsEqual]
    tauto
  table_setTable _ _ := rfl
  localID_setTable _ _ := rfl
  routes_setTable _ _ := ⟨rfl, rfl⟩
  table_recompute _ _ := rfl
  sameRecords _ _ hmem _ := ⟨rfl, hmem, fun _ => rfl⟩
  tableOK _ h := h.members
  recordsOK _ _ h hm := ⟨h.localID, hm, h.lsas.keyed, h.lsas.isLocal⟩

theorem linkStateFamily_lawful : linkStateFamily.Lawful where
  equal_iff a b := by
    obtain ⟨_, _, _, _, _⟩ := a
    obtain ⟨_, _, _, _, _⟩ := b
    simp [linkStateFamily, linkStatesEqual, and_assoc]
  table_setTable _ _ := rfl
  localID_setTable _ _ := rfl
  routes_setTable _ _ := ⟨rfl, rfl⟩
  table_recompute _ _ := rfl
  sameRecords _ _ _ hrec := ⟨rfl, fun _ => Iff.rfl, hrec⟩
  tableOK _ h := h.lsas
  recordsOK _ _ h hm := ⟨h.localID, ⟨h.members.keyed, h.members.isLocal⟩, hm⟩

/-- A record that `apply` looks at. -/
structure Family.Acceptable (f : Family ρ) (localID : String) (record : ρ) : Prop where
  nodeID : trimSpace (f.nodeID record) ≠ ""
  revision : f.revision record ≠ 0
  lease : f.leaseMillis record ≠ 0
  remote : f.nodeID record ≠ localID

instance (f : Family ρ) (localID : String) (record : ρ) : Decidable (f.Acceptable localID record) :=
  decidable_of_iff (trimSpace (f.nodeID record) ≠ "" ∧ f.revision record ≠ 0 ∧
    f.leaseMillis record ≠ 0 ∧
    f.nodeID record ≠ localID) ⟨fun h => ⟨h.1, h.2.1, h.2.2.1, h.2.2.2⟩, fun h => ⟨h.1, h.2, h.3, h.4⟩⟩

/-- The topology with a record put in its place. -/
def Family.store (f : Family ρ) (t : Topology) (record : ρ) (receivedAt now : Time) : Topology :=
  f.setTable t ((f.table t).insert (f.nodeID record) ⟨record, f.expiry record receivedAt now, false⟩)

/-- **What `apply` can do**: nothing, or put an acceptable record in its place, in which case the
routes are computed again unless the stored record was equal. -/
theorem apply_cases (hf : f.Lawful) (o : RangeOrder) (t : Topology) (record : ρ)
    (receivedAt now : Time) :
    ((f.apply o t record receivedAt now).1 = t ∧ (f.Acceptable t.localID record →
      ∃ s, (f.table t).lookup (f.nodeID record) = some s ∧
        (s.isLocal = true ∨ f.revision record ≤ f.revision s.record))) ∨
    (f.Acceptable t.localID record ∧
      (∀ s, (f.table t).lookup (f.nodeID record) = some s →
        s.isLocal = false ∧ f.revision s.record ≤ f.revision record) ∧
      ∃ changed, f.apply o t record receivedAt now =
          (if changed then (f.store t record receivedAt now).recomputeLocked o
            else f.store t record receivedAt now,
            .ok changed) ∧
        (changed = false → ∃ s, (f.table t).lookup (f.nodeID record) = some s ∧
          s.record = record)) := by
  unfold Family.apply
  split
  · rename_i hbad
    refine .inl ⟨rfl, fun hacc => ?_⟩
    rcases hbad with h | h | h
    · exact absurd h hacc.nodeID
    · exact absurd h hacc.revision
    · exact absurd h hacc.lease
  rename_i hgo
  split
  · rename_i hlo
    exact .inl ⟨rfl, fun hacc => absurd hlo hacc.remote⟩
  rename_i hrem
  simp only [not_or] at hgo
  have hacc : f.Acceptable t.localID record := ⟨hgo.1, hgo.2.1, hgo.2.2, hrem⟩
  rcases hcur : (f.table t).lookup (f.nodeID record) with _ | s
  · exact .inr ⟨hacc, nofun, true, rfl, nofun⟩
  simp only [Family.verdict]
  by_cases hisL : s.isLocal = true
  · rw [if_pos hisL]
    exact .inl ⟨rfl, fun _ => ⟨s, rfl, .inl hisL⟩⟩
  rw [if_neg hisL]
  by_cases hlt : f.revision record < f.revision s.record
  · rw [if_pos hlt]
    exact .inl ⟨rfl, fun _ => ⟨s, rfl, .inr hlt.le⟩⟩
  rw [if_neg hlt]
  by_cases hco : f.revision record = f.revision s.record ∧ ¬ f.equal s.record record = true
  · rw [if_pos hco]
    exact .inl ⟨rfl, fun _ => ⟨s, rfl, .inr hco.1.le⟩⟩
  · rw [if_neg hco]
    refine .inr ⟨hacc, ?_, _, rfl, fun hsa => ⟨s, rfl, (hf.equal_iff _ _).1 ?_⟩⟩
    · rintro s' ⟨⟩
      exact ⟨Bool.not_eq_true _ ▸ hisL, not_lt.1 hlt⟩
    · simp only [Bool.or_eq_false_iff, Bool.not_eq_false'] at hsa
      exact hsa.2

variable {record : ρ} {id : String} {select : Arrival → Option ρ}

/-- A property of the topology that storing the record and computing the routes keep. -/
theorem apply_keeps (hf : f.Lawful) {P : Topology → Prop} {receivedAt now : Time} (h : P t)
    (hst : f.Acceptable t.localID record → P (f.store t record receivedAt now))
    (hrec : ∀ t', P t' → P (t'.recomputeLocked o)) : P (f.apply o t record receivedAt now).1 := by
  rcases apply_cases hf o t record receivedAt now with ⟨hsa, -⟩ | ⟨hacc, -, changed, hap, -⟩
  · rw [hsa]
    exact h
  · rw [hap]
    cases changed with
    | true => exact hrec _ (hst hacc)
    | false => exact hst hacc

theorem table_store (hf : f.Lawful) (record : ρ) (receivedAt now : Time) (id : String) :
    (f.table (f.store t record receivedAt now)).lookup id =
      if id = f.nodeID record then some ⟨record, f.expiry record receivedAt now, false⟩
        else (f.table t).lookup id := by
  rw [Family.store, hf.table_setTable]
  split
  · rename_i h
    rw [h, lookup_insert]
  · rename_i h
    rw [lookup_insert_ne h]

/-! ## What every operation keeps -/

/-- The stored tables are those of the stored records. -/
structure RoutesOK (t : Topology) : Prop where
  routes : ∀ o d, t.routes.lookup d = (t.computeRoutesLocked o [] false).lookup d
  dataRoutes : ∀ o d, t.dataRoutes.lookup d = (t.computeRoutesLocked o [] true).lookup d

structure TopologyOK (t : Topology) : Prop where
  localID : t.localID ≠ ""
  members : TableOK memberFamily t
  lsas : TableOK linkStateFamily t
  tables : RoutesOK t

theorem TopologyOK.records (h : TopologyOK t) : RecordsOK t := ⟨h.localID, h.members, h.lsas⟩

theorem nonempty_nodes (hlo : t.localID ≠ "") (hmemb : TableOK memberFamily t) : "" ∉ t.nodes := by
  intro hmem
  rcases mem_cons.1 hmem with h | h
  · exact hlo h.symm
  · obtain ⟨s, hs⟩ := Option.isSome_iff_exists.1 (lookup_isSome.2 (mem_keys.2 h))
    exact (hmemb.keyed "" s hs).2 rfl

theorem recomputeLocked_sameRecords (o : RangeOrder) (t : Topology) :
    t.SameRecords (t.recomputeLocked o) :=
  ⟨rfl, fun _ => Iff.rfl, fun _ => rfl⟩

/-- The tables are recomputed from the records. -/
theorem recomputeLocked_tables (hne : "" ∉ t.nodes) : RoutesOK (t.recomputeLocked o) where
  routes _ d := (computeRoutesLocked_congr (recomputeLocked_sameRecords o t) hne d).symm
  dataRoutes _ d := (computeRoutesLocked_congr (recomputeLocked_sameRecords o t) hne d).symm

theorem RecordsOK.recompute (h : RecordsOK t) : TopologyOK (t.recomputeLocked o) :=
  ⟨h.localID, ⟨h.members.keyed, h.members.isLocal⟩, ⟨h.lsas.keyed, h.lsas.isLocal⟩,
    recomputeLocked_tables (nonempty_nodes h.localID h.members)⟩

theorem RoutesOK.of_sameRecords (h : RoutesOK t) (hne : "" ∉ t.nodes) (hsa : t.SameRecords t')
    (hrou : t'.routes = t.routes) (hda : t'.dataRoutes = t.dataRoutes) : RoutesOK t' where
  routes o d := by
    rw [hrou, h.routes o d]
    exact (computeRoutesLocked_congr hsa hne d).symm
  dataRoutes o d := by
    rw [hda, h.dataRoutes o d]
    exact (computeRoutesLocked_congr hsa hne d).symm

theorem TableOK.store (hf : f.Lawful) (h : TableOK f t) (hacc : f.Acceptable t.localID record)
    (receivedAt now : Time) : TableOK f (f.store t record receivedAt now) where
  keyed id s hs := by
    rw [table_store hf] at hs
    split at hs
    · rename_i hid
      cases hs
      refine ⟨hid.symm, ?_⟩
      rintro rfl
      apply hacc.nodeID
      rw [← hid]
      decide
    · exact h.keyed id s hs
  isLocal id s hs := by
    have hlo : (f.store t record receivedAt now).localID = t.localID := hf.localID_setTable _ _
    rw [table_store hf] at hs
    split at hs
    · rename_i hid
      cases hs
      rw [hlo, hid]
      exact ⟨fun h => absurd h Bool.false_ne_true, fun h => absurd h hacc.remote⟩
    · rw [hlo]
      exact h.isLocal id s hs

theorem store_sameRecords (hf : f.Lawful) {s : Leased ρ}
    (hs : (f.table t).lookup (f.nodeID record) = some s) (heq : s.record = record)
    (receivedAt now : Time) :
    t.SameRecords (f.store t record receivedAt now) := by
  refine hf.sameRecords t _ ?_ ?_
  · intro id
    rw [mem_insert]
    constructor
    · rintro (rfl | h)
      · rw [← lookup_isSome, hs]
        rfl
      · exact h
    · exact .inr
  · intro id
    by_cases hid : id = f.nodeID record
    · rw [hid, lookup_insert, hs]
      simp [heq]
    · rw [lookup_insert_ne hid]

/-- **A received record** leaves the topology sound. -/
theorem TopologyOK.apply (hf : f.Lawful) (h : TopologyOK t) (record : ρ) (receivedAt now : Time) :
    TopologyOK (f.apply o t record receivedAt now).1 := by
  rcases apply_cases hf o t record receivedAt now with ⟨hsa, -⟩ | ⟨hacc, -, changed, hap, hequ⟩
  · rw [hsa]
    exact h
  have hrec := hf.recordsOK _ _ h.records ((hf.tableOK _ h.records).store hf hacc receivedAt now)
  rw [hap]
  cases changed with
  | true => exact hrec.recompute
  | false =>
    obtain ⟨s, hs, heq⟩ := hequ rfl
    obtain ⟨hrou, hda⟩ := hf.routes_setTable t _
    exact ⟨hrec.localID, hrec.members, hrec.lsas,
      h.tables.of_sameRecords (nonempty_nodes h.localID h.members)
        (store_sameRecords hf hs heq receivedAt now) hrou hda⟩

/-! ## Local records and expiry -/

theorem TableOK.setLocal (hf : f.Lawful) (h : TableOK f t) (hlo : t.localID ≠ "")
    (hid : f.nodeID record = t.localID) :
    TableOK f (f.setTable t ((f.table t).insert t.localID ⟨record, Time.zero, true⟩)) where
  keyed id s hs := by
    rw [hf.table_setTable] at hs
    by_cases heq : id = t.localID
    · rw [heq, lookup_insert] at hs
      cases hs
      exact ⟨hid.trans heq.symm, heq ▸ hlo⟩
    · rw [lookup_insert_ne heq] at hs
      exact h.keyed id s hs
  isLocal id s hs := by
    rw [hf.table_setTable] at hs
    rw [hf.localID_setTable]
    by_cases heq : id = t.localID
    · rw [heq, lookup_insert] at hs
      cases hs
      exact ⟨fun _ => heq, fun _ => rfl⟩
    · rw [lookup_insert_ne heq] at hs
      exact h.isLocal id s hs

theorem setLocal_ok (h : f.setLocal o t record = .ok t') :
    f.nodeID record = t.localID ∧
      t' = (f.setTable t ((f.table t).insert t.localID ⟨record, Time.zero, true⟩)).recomputeLocked
        o := by
  simp only [Family.setLocal, bind_ok_iff, failIf_ok_iff, ne_eq, Decidable.not_not] at h
  obtain ⟨-, hid, -, -, hret⟩ := h
  cases hret
  exact ⟨hid, rfl⟩

theorem TopologyOK.setLocal (hf : f.Lawful) (h : TopologyOK t)
    (hset : f.setLocal o t record = .ok t') :
    TopologyOK t' := by
  obtain ⟨hid, rfl⟩ := setLocal_ok hset
  exact (hf.recordsOK _ _ h.records ((hf.tableOK _ h.records).setLocal hf h.localID hid)).recompute

/-- Some records were removed, and not the local one. -/
structure Restricts (t t' : Topology) : Prop where
  localID : t'.localID = t.localID
  members : ∀ id s, t'.members.lookup id = some s → t.members.lookup id = some s
  lsas : ∀ id s, t'.lsas.lookup id = some s → t.lsas.lookup id = some s
  localRecord : RecordsOK t → t'.lsas.lookup t.localID = t.lsas.lookup t.localID

theorem Restricts.recordsOK (h : Restricts t t') (hok : RecordsOK t) : RecordsOK t' where
  localID := h.localID ▸ hok.localID
  members := ⟨fun id s hs => hok.members.keyed id s (h.members id s hs),
    fun id s hs => h.localID ▸ hok.members.isLocal id s (h.members id s hs)⟩
  lsas := ⟨fun id s hs => hok.lsas.keyed id s (h.lsas id s hs),
    fun id s hs => h.localID ▸ hok.lsas.isLocal id s (h.lsas id s hs)⟩

theorem Restricts.trans {t'' : Topology} (h : Restricts t t') (h' : Restricts t' t'') :
    Restricts t t'' where
  localID := h'.localID.trans h.localID
  members id s hs := h.members id s (h'.members id s hs)
  lsas id s hs := h.lsas id s (h'.lsas id s hs)
  localRecord hok := by rw [← h.localRecord hok, ← h.localID, h'.localRecord (h.recordsOK hok)]

theorem TableOK.ne_local {now : Time} (hok : TableOK f t)
    (hov : ((f.table t).lookup id).any (Topology.leaseOver now) = true) : id ≠ t.localID := by
  obtain ⟨s, hs, hs'⟩ := (Option.any_eq_true _ _).1 hov
  intro heq
  rw [Topology.leaseOver, (hok.isLocal id s hs).2 heq] at hs'
  exact Bool.false_ne_true hs'

theorem lookup_erase_some {β : Type} {m : GoMap β} {key : String} {s : β}
    (h : (m.erase key).lookup id = some s) :
    m.lookup id = some s := by
  by_cases heq : id = key
  · rw [heq, lookup_erase] at h
    cases h
  · rwa [lookup_erase_ne heq] at h

/-- Members are only dropped. -/
theorem expireMembers_restricts (now : Time) (ids : List String) :
    ∀ t, Restricts t (expireMembers now ids t) := by
  induction ids with
  | nil => exact fun t => ⟨rfl, fun _ _ h => h, fun _ _ h => h, fun _ => rfl⟩
  | cons id ids ih =>
    intro t
    rw [expireMembers]
    split
    · rename_i hov
      have hone : Restricts t { t with members := t.members.erase id, lsas := t.lsas.erase id } :=
        ⟨rfl, fun _ _ => lookup_erase_some, fun _ _ => lookup_erase_some,
          fun hok => lookup_erase_ne (hok.members.ne_local hov).symm⟩
      exact hone.trans (ih _)
    · exact ih t

theorem expireLinkStates_restricts (now : Time) (ids : List String) :
    ∀ t, Restricts t (expireLinkStates now ids t) := by
  induction ids with
  | nil => exact fun t => ⟨rfl, fun _ _ h => h, fun _ _ h => h, fun _ => rfl⟩
  | cons id ids ih =>
    intro t
    rw [expireLinkStates]
    split
    · rename_i hov
      have hone : Restricts t { t with lsas := t.lsas.erase id } :=
        ⟨rfl, fun _ _ h => h, fun _ _ => lookup_erase_some,
          fun hok => lookup_erase_ne (hok.lsas.ne_local hov).symm⟩
      exact hone.trans (ih _)
    · exact ih t

theorem expireMembers_self (now : Time) (ids : List String) (t : Topology)
    (h : ∀ id ∈ ids, (t.members.lookup id).any (leaseOver now) = false) :
    expireMembers now ids t = t := by
  induction ids with
  | nil => rfl
  | cons id ids ih =>
    rw [expireMembers, h id mem_cons_self]
    exact ih fun x hx => h x (mem_cons_of_mem _ hx)

theorem expireLinkStates_self (now : Time) (ids : List String) (t : Topology)
    (h : ∀ id ∈ ids, (t.lsas.lookup id).any (leaseOver now) = false) :
    expireLinkStates now ids t = t := by
  induction ids with
  | nil => rfl
  | cons id ids ih =>
    rw [expireLinkStates, h id mem_cons_self]
    exact ih fun x hx => h x (mem_cons_of_mem _ hx)

/-- **What expiry can do**: remove records and compute the routes again, or nothing. -/
theorem expire_cases (o : RangeOrder) (t : Topology) (now clock : Time) :
    (∃ t', Restricts t t' ∧ t.expire o now clock = (t'.recomputeLocked o, true)) ∨
      t.expire o now clock = (t, false) := by
  unfold Topology.expire
  dsimp only
  set at' := if now.isZero = true then clock else now
  set kept := expireMembers at' (o.keys 0 t.members.keys) t
  split
  · rename_i hso
    have hfi := expireMembers_restricts at' (o.keys 0 t.members.keys) t
    have hsec := expireLinkStates_restricts at' (o.keys 1 kept.lsas.keys) kept
    exact .inl ⟨_, hfi.trans hsec, by rw [hso]⟩
  · rename_i hno
    refine .inr (Prod.ext ?_ (Bool.not_eq_true _ ▸ hno))
    simp only [Bool.or_eq_true, not_or, any_eq_true, not_exists, not_and, Bool.not_eq_true] at hno
    have hse : kept = t := expireMembers_self _ _ _ fun id hid =>
      hno.1 id ((o.keys_perm 0 _).mem_iff.1 hid)
    dsimp only
    rw [expireLinkStates_self _ _ _ fun id hid => hno.2 id ((o.keys_perm 1 _).mem_iff.1 hid), hse]

theorem TopologyOK.expire (h : TopologyOK t) (now clock : Time) :
    TopologyOK (t.expire o now clock).1 := by
  rcases expire_cases o t now clock with ⟨t', hres, heq⟩ | heq
  · rw [heq]
    exact (hres.recordsOK h.records).recompute
  · rw [heq]
    exact h

/-- **Every operation keeps the invariant.** -/
theorem TopologyOK.act (h : TopologyOK t) (a : TopologyAction) : TopologyOK (t.act o a) := by
  cases a with
  | setLocalMember record =>
    cases hset : t.setLocalMember o record with
    | error e => simpa [Topology.act, hset, Except.toOption] using h
    | ok t' => simpa [Topology.act, hset, Except.toOption] using h.setLocal memberFamily_lawful hset
  | setLocalLinkState record =>
    cases hset : t.setLocalLinkState o record with
    | error e => simpa [Topology.act, hset, Except.toOption] using h
    | ok t' => simpa [Topology.act, hset, Except.toOption] using h.setLocal linkStateFamily_lawful hset
  | applyMember record receivedAt now => exact h.apply memberFamily_lawful record receivedAt now
  | applyLinkState record receivedAt now => exact h.apply linkStateFamily_lawful record receivedAt now
  | expire now clock => exact h.expire now clock

theorem newTopology_ok (h : newTopology id = .ok t) : TopologyOK t := by
  simp only [newTopology, bind_ok_iff, failIf_ok_iff] at h
  obtain ⟨-, hid, hret⟩ := h
  cases hret
  have hno : ∀ (β : Type) (x : String) (s : β), ¬ (∅ : GoMap β).lookup x = some s := by
    intro β x s hs
    rw [lookup_empty] at hs
    cases hs
  -- without records there is no link, so no path and no route
  have hrou : ∀ (o : RangeOrder) (dataOnly : Bool) (d : String),
      (∅ : GoMap Route).lookup d = (Topology.computeRoutesLocked o ⟨trimSpace id, ∅, ∅, ∅,
      ∅⟩ [] dataOnly).lookup d := by
    intro o dataOnly d
    have hne : "" ∉ Topology.nodes ⟨trimSpace id, ∅, ∅, ∅, ∅⟩ := by
      intro hmem
      rcases mem_cons.1 hmem with h | h
      · exact hid h.symm
      · simp at h
    have hwf : Topology.WellFormed ⟨trimSpace id, ∅, ∅, ∅, ∅⟩ :=
      ⟨hne, fun x s hs => absurd hs (hno _ x s)⟩
    obtain ⟨hso, -⟩ := computeRoutesLocked_spec (o := o) hwf (hopOrder_agrees _ [] dataOnly) d
    rw [lookup_empty]
    symm
    rw [← Option.not_isSome_iff_eq_none, hso]
    rintro ⟨p, hp⟩
    have hmem := hp.member
    rw [← lookup_isSome] at hmem
    simp at hmem
  exact ⟨hid, ⟨fun x s hs => absurd hs (hno _ x s), fun x s hs => absurd hs (hno _ x s)⟩,
    ⟨fun x s hs => absurd hs (hno _ x s), fun x s hs => absurd hs (hno _ x s)⟩,
    ⟨fun o d => hrou o false d, fun o d => hrou o true d⟩⟩

theorem Topology.Reachable.ok (h : t.Reachable) : TopologyOK t := by
  refine Transition.Reachable.invariant (P := TopologyOK) ?_ ?_ h
  · rintro s ⟨id, hid⟩
    exact newTopology_ok hid
  · rintro s a s' - hs - hst
    cases hst
    exact hs.act a.2

/-! ## The record that is kept -/

/-- The newest of the candidates, or none when there is none. -/
def Newest (revision : ρ → ℕ) (candidate : ρ → Prop) : Option ρ → Prop
  | none => ∀ r, ¬ candidate r
  | some r => candidate r ∧ ∀ r', candidate r' → revision r' ≤ revision r

theorem Newest.unique {revision : ρ → ℕ} {candidate : ρ → Prop} {a b : Option ρ}
    (hone : ∀ r r', candidate r → candidate r' → revision r = revision r' → r = r')
    (ha : Newest revision candidate a) (hb : Newest revision candidate b) : a = b := by
  cases a with
  | none =>
    cases b with
    | none => rfl
    | some r => exact absurd hb.1 (ha r)
  | some r =>
    cases b with
    | none => exact absurd ha.1 (hb r)
    | some r' => rw [hone r r' ha.1 hb.1 (le_antisymm (hb.2 r ha.1) (ha.2 r' hb.1))]

/-- The record that a table holds for a node. -/
def Family.held (f : Family ρ) (t : Topology) (id : String) : Option ρ :=
  ((f.table t).lookup id).map Leased.record

/-- The records that can be held for a node: the one that was, and the acceptable ones that
arrived. -/
def Family.Candidate (f : Family ρ) (t : Topology) (arrived : List ρ) (id : String) (record : ρ) :
    Prop :=
  f.held t id = some record ∨ record ∈ arrived ∧ f.Acceptable t.localID record ∧ f.nodeID record = id

theorem held_recompute (hf : f.Lawful) (id : String) :
    f.held (t.recomputeLocked o) id = f.held t id := by
  rw [Family.held, hf.table_recompute]
  rfl

theorem held_store (hf : f.Lawful) (record : ρ) (receivedAt now : Time) (id : String) :
    f.held (f.store t record receivedAt now) id = if id = f.nodeID record then some record
      else f.held t id := by
  rw [Family.held, table_store hf, apply_ite (Option.map Leased.record)]
  rfl

theorem apply_localID (hf : f.Lawful) (record : ρ) (receivedAt now : Time) :
    (f.apply o t record receivedAt now).1.localID = t.localID :=
  apply_keeps hf (P := fun t' => t'.localID = t.localID) rfl (fun _ =>
    hf.localID_setTable _ _) fun _ h => h

theorem Newest.congr {revision : ρ → ℕ} {c c' : ρ → Prop} {r : Option ρ} (h : Newest revision c r)
    (hiff : ∀ r, c r ↔ c' r) : Newest revision c' r := by
  have heq : c = c' := funext fun r => propext (hiff r)
  exact heq ▸ h

/-- **One arrival keeps the newest record.** -/
theorem newest_apply (hf : f.Lawful) (hok : TableOK f t) (record : ρ) (receivedAt now : Time)
    (id : String) {candidate : ρ → Prop} (h : Newest f.revision candidate (f.held t id)) :
    Newest f.revision (fun r => candidate r ∨ r = record ∧ f.Acceptable t.localID record ∧
      f.nodeID record = id)
      (f.held (f.apply o t record receivedAt now).1 id) := by
  rcases apply_cases hf o t record receivedAt now with ⟨hsa, hst⟩ | ⟨hacc, hbe, changed, hap, -⟩
  · -- the record is not stored: it is not acceptable, or not newer
    rw [hsa]
    by_cases hnew : f.Acceptable t.localID record ∧ f.nodeID record = id
    · obtain ⟨s, hs, hle⟩ := hst hnew.1
      have hrem : ¬ s.isLocal = true := fun hl => hnew.1.remote ((hok.isLocal _ s hs).1 hl)
      have hhe : f.held t id = some s.record := by rw [Family.held, ← hnew.2, hs]; rfl
      rw [hhe] at h ⊢
      refine ⟨.inl h.1, ?_⟩
      rintro r (hr | ⟨rfl, -, -⟩)
      · exact h.2 r hr
      · exact hle.resolve_left hrem
    · exact Newest.congr h fun r => (or_iff_left fun hr => hnew hr.2).symm
  · have hhe : f.held (f.apply o t record receivedAt now).1 id =
        if id = f.nodeID record then some record else f.held t id := by
      rw [hap]
      cases changed with
      | true => exact (held_recompute hf id).trans (held_store hf record receivedAt now id)
      | false => exact held_store hf record receivedAt now id
    rw [hhe]
    split
    · rename_i hid
      refine ⟨.inr ⟨rfl, hacc, hid.symm⟩, ?_⟩
      rintro r (hr | ⟨rfl, -, -⟩)
      · -- the record that was held before is not newer
        cases hcur : f.held t id with
        | none =>
          rw [hcur] at h
          exact absurd hr (h r)
        | some r0 =>
          obtain ⟨s, hs, rfl⟩ := Option.map_eq_some_iff.1 hcur
          rw [hcur] at h
          exact (h.2 r hr).trans (hbe s (hid ▸ hs)).2
      · exact le_rfl
    · rename_i hid
      exact Newest.congr h fun r => (or_iff_left fun hr => hid hr.2.2.symm).symm

/-! ## Any order of arrivals -/

/-- A record that arrives, with its time and the clock. -/
inductive Arrival
  | member (record : MemberRecord) (receivedAt now : Time)
  | linkState (record : LinkStateAdvertisement) (receivedAt now : Time)

def Arrival.action : Arrival → TopologyAction
  | .member record receivedAt now => .applyMember record receivedAt now
  | .linkState record receivedAt now => .applyLinkState record receivedAt now

def Arrival.memberRecord : Arrival → Option MemberRecord
  | .member record _ _ => some record
  | .linkState _ _ _ => none

def Arrival.linkStateRecord : Arrival → Option LinkStateAdvertisement
  | .member _ _ _ => none
  | .linkState record _ _ => some record

/-- The topology after records have arrived, each with the orders that Go leaves open. -/
def Topology.receive (t : Topology) (arrivals : List (RangeOrder × Arrival)) : Topology :=
  arrivals.foldl (fun t a => t.act a.1 a.2.action) t

/-- The records of a family among the arrivals. -/
def arrived (select : Arrival → Option ρ) (arrivals : List (RangeOrder × Arrival)) : List ρ :=
  arrivals.filterMap fun a => select a.2

theorem TopologyOK.receive (arrivals : List (RangeOrder × Arrival)) :
    ∀ t, TopologyOK t → TopologyOK (t.receive arrivals) := by
  induction arrivals with
  | nil => exact fun t h => h
  | cons a arrivals ih => exact fun t h => ih _ (h.act a.2.action)

theorem receive_localID (arrivals : List (RangeOrder × Arrival)) :
    ∀ t, (Topology.receive t arrivals).localID = t.localID := by
  induction arrivals with
  | nil => exact fun t => rfl
  | cons a arrivals ih =>
    intro t
    refine (ih _).trans ?_
    obtain ⟨o, a⟩ := a
    cases a with
    | member record receivedAt now => exact apply_localID memberFamily_lawful record receivedAt now
    | linkState record receivedAt now =>
      exact apply_localID linkStateFamily_lawful record receivedAt now

/-- A family whose arrivals are told apart, and left alone by the arrivals of the other one. -/
structure Selects (f : Family ρ) (select : Arrival → Option ρ) : Prop where
  mine : ∀ o t a record, select a = some record →
    ∃ receivedAt now, Topology.act o t a.action = (f.apply o t record receivedAt now).1
  other : ∀ o t a id, select a = none → f.held (Topology.act o t a.action) id = f.held t id

theorem memberFamily_selects : Selects memberFamily Arrival.memberRecord where
  mine o t a record h := by
    cases a with
    | member r receivedAt now =>
      cases h
      exact ⟨receivedAt, now, rfl⟩
    | linkState r receivedAt now => cases h
  other o t a id h := by
    cases a with
    | member r receivedAt now => cases h
    | linkState r receivedAt now =>
      exact apply_keeps linkStateFamily_lawful (P := fun t' => memberFamily.held t' id =
        memberFamily.held t id) rfl
        (fun _ => rfl) fun _ h => h

theorem linkStateFamily_selects : Selects linkStateFamily Arrival.linkStateRecord where
  mine o t a record h := by
    cases a with
    | member r receivedAt now => cases h
    | linkState r receivedAt now =>
      cases h
      exact ⟨receivedAt, now, rfl⟩
  other o t a id h := by
    cases a with
    | member r receivedAt now =>
      exact apply_keeps memberFamily_lawful (P := fun t' => linkStateFamily.held t' id =
        linkStateFamily.held t id) rfl
        (fun _ => rfl) fun _ h => h
    | linkState r receivedAt now => cases h

/-- **Arrivals keep the newest record**, in whatever order they come. -/
theorem newest_receive (hf : f.Lawful) (hsel : Selects f select)
    (id : String) (arrivals : List (RangeOrder × Arrival)) :
    ∀ (t : Topology) (candidate : ρ → Prop), TopologyOK t → Newest f.revision candidate (f.held t id) →
      Newest f.revision (fun r => candidate r ∨ r ∈ arrived select arrivals ∧
        f.Acceptable t.localID r ∧ f.nodeID r = id)
        (f.held (t.receive arrivals) id) := by
  induction arrivals with
  | nil => exact fun t candidate _ h => h.congr fun r => by simp [arrived]
  | cons a arrivals ih =>
    intro t candidate hok h
    have hne := hok.act (o := a.1) a.2.action
    have hlo : (t.act a.1 a.2.action).localID = t.localID := receive_localID [a] t
    cases hmi : select a.2 with
    | none =>
      rw [← hsel.other a.1 t a.2 id hmi] at h
      refine (ih _ candidate hne h).congr fun r => ?_
      simp [arrived, hmi, hlo]
    | some record =>
      obtain ⟨receivedAt, now, hact⟩ := hsel.mine a.1 t a.2 record hmi
      have hone := newest_apply (o := a.1) hf (hf.tableOK t hok.records) record receivedAt now id h
      rw [← hact] at hone
      refine (ih _ _ hne hone).congr fun r => ?_
      simp only [arrived, filterMap_cons, hmi, mem_cons, hlo]
      constructor
      · rintro ((h | ⟨rfl, h⟩) | h)
        · exact .inl h
        · exact .inr ⟨.inl rfl, h⟩
        · exact .inr ⟨.inr h.1, h.2⟩
      · rintro (h | ⟨rfl | hin, h⟩)
        · exact .inl (.inl h)
        · exact .inl (.inr ⟨rfl, h⟩)
        · exact .inr ⟨hin, h⟩

theorem newest_held (t : Topology) (id : String) :
    Newest f.revision (fun r => f.held t id = some r) (f.held t id) := by
  cases h : f.held t id with
  | none => exact fun r hr => by cases hr
  | some r => exact ⟨rfl, fun r' hr => by cases hr; exact le_rfl⟩

/-- The candidates of one node and revision have equal content. -/
def Family.Consistent (f : Family ρ) (t : Topology) (records : List ρ) : Prop :=
  ∀ id r r', f.Candidate t records id r → f.Candidate t records id r' →
    f.revision r = f.revision r' → r = r'

theorem newest_candidate (hf : f.Lawful) (hsel : Selects f select)
    (hok : TopologyOK t) (arrivals : List (RangeOrder × Arrival)) (id : String) :
    Newest f.revision (f.Candidate t (arrived select arrivals) id) (f.held (t.receive arrivals) id) :=
  newest_receive hf hsel id arrivals t _ hok (newest_held t id)

theorem held_receive_eq (hf : f.Lawful) (hsel : Selects f select)
    (hok : TopologyOK t) {arrivals arrivals' : List (RangeOrder × Arrival)}
    (hco : f.Consistent t (arrived select arrivals))
    (hsa : ∀ r, r ∈ arrived select arrivals ↔ r ∈ arrived select arrivals') (id : String) :
    f.held (t.receive arrivals) id = f.held (t.receive arrivals') id := by
  refine (newest_candidate hf hsel hok arrivals id).unique (hco id) ?_
  refine (newest_candidate hf hsel hok arrivals' id).congr fun r => ?_
  simp only [Family.Candidate, hsa]

theorem sameRecords_of_held (hlo : t'.localID = t.localID)
    (hmem : ∀ id, memberFamily.held t' id = memberFamily.held t id)
    (hls : ∀ id, linkStateFamily.held t' id = linkStateFamily.held t id) : t.SameRecords t' where
  localID := hlo
  members id := by
    have h := congrArg Option.isSome (hmem id)
    simp only [Family.held, Option.isSome_map, memberFamily] at h
    rw [← lookup_isSome, ← lookup_isSome, h]
  lsas := hls

/-! ## Convergence -/

/-- A record that is in conflict with the stored one, or older, leaves everything as it is. -/
theorem apply_refused (hf : f.Lawful) (record : ρ) (receivedAt now : Time) :
    (∀ e, (f.apply o t record receivedAt now).2 = .error e → (f.apply o t record receivedAt now).1 =
      t) ∧
      ((∃ held, f.held t (f.nodeID record) = some held ∧ f.revision record < f.revision held) →
        (f.apply o t record receivedAt now).1 = t) := by
  rcases apply_cases hf o t record receivedAt now with ⟨hsa, -⟩ | ⟨-, hbe, changed, hap, -⟩
  · exact ⟨fun _ _ => hsa, fun _ => hsa⟩
  · rw [hap]
    refine ⟨nofun, ?_⟩
    rintro ⟨held, hhe, hlt⟩
    obtain ⟨s, hs, rfl⟩ := Option.map_eq_some_iff.1 hhe
    exact absurd (hbe s hs).2 (not_le.2 hlt)

/-- **Topologies converge.** From any topology that operations have reached, arrivals with the same
records, in any order and any number of times, lead to the same records, routes and data routes,
when the records of one node and revision have equal content. For every node the newest record is
kept, the stored tables are those computed from the stored records, and a conflicting or older
record changes nothing. -/
theorem topology_converges (t : Topology) (hreach : t.Reachable)
    (arrivals arrivals' : List (RangeOrder × Arrival))
    (hmembers : memberFamily.Consistent t (arrived Arrival.memberRecord arrivals))
    (hlsas : linkStateFamily.Consistent t (arrived Arrival.linkStateRecord arrivals))
    (hsame : ∀ r, r ∈ arrived Arrival.memberRecord arrivals ↔
      r ∈ arrived Arrival.memberRecord arrivals')
    (hsame' : ∀ r, r ∈ arrived Arrival.linkStateRecord arrivals ↔
      r ∈ arrived Arrival.linkStateRecord arrivals') :
    (∀ id, memberFamily.held (t.receive arrivals) id = memberFamily.held (t.receive arrivals') id ∧
      linkStateFamily.held (t.receive arrivals) id = linkStateFamily.held (t.receive arrivals') id) ∧
    (∀ d, (t.receive arrivals).route d = (t.receive arrivals').route d ∧
      (t.receive arrivals).dataRoute d = (t.receive arrivals').dataRoute d) ∧
    (∀ id, Newest MemberRecord.revision (memberFamily.Candidate t
      (arrived Arrival.memberRecord arrivals) id)
        (memberFamily.held (t.receive arrivals) id) ∧
      Newest LinkStateAdvertisement.revision
        (linkStateFamily.Candidate t (arrived Arrival.linkStateRecord arrivals) id)
        (linkStateFamily.held (t.receive arrivals) id)) ∧
    (∀ s : Topology, s.Reachable → ∀ o d, s.route d = (s.computeRoutesLocked o [] false).lookup d ∧
      s.dataRoute d = (s.computeRoutesLocked o [] true).lookup d) ∧
    (∀ (s : Topology) o (record : MemberRecord) receivedAt now,
      (∀ e, (s.applyMember o record receivedAt now).2 = .error e →
        (s.applyMember o record receivedAt now).1 = s) ∧
      ((∃ held, memberFamily.held s record.nodeID = some held ∧ record.revision < held.revision) →
        (s.applyMember o record receivedAt now).1 = s)) ∧
    ∀ (s : Topology) o (record : LinkStateAdvertisement) receivedAt now,
      (∀ e, (s.applyLinkState o record receivedAt now).2 = .error e →
        (s.applyLinkState o record receivedAt now).1 = s) ∧
      ((∃ held, linkStateFamily.held s record.nodeID = some held ∧ record.revision < held.revision) →
        (s.applyLinkState o record receivedAt now).1 = s) := by
  have hok := hreach.ok
  have hm := held_receive_eq memberFamily_lawful memberFamily_selects hok hmembers hsame
  have hl := held_receive_eq linkStateFamily_lawful linkStateFamily_selects hok hlsas hsame'
  have ha := TopologyOK.receive arrivals t hok
  have ha' := TopologyOK.receive arrivals' t hok
  have hrecords : (t.receive arrivals').SameRecords (t.receive arrivals) :=
    sameRecords_of_held ((receive_localID arrivals t).trans (receive_localID arrivals' t).symm) hm hl
  have hne := nonempty_nodes ha'.localID ha'.members
  refine ⟨fun id => ⟨hm id, hl id⟩, ?_, ?_, ?_, ?_, ?_⟩
  · intro d
    constructor
    · rw [route, route, ha.tables.routes insertionOrder, ha'.tables.routes insertionOrder]
      exact computeRoutesLocked_congr hrecords hne d
    · rw [dataRoute, dataRoute, ha.tables.dataRoutes insertionOrder,
        ha'.tables.dataRoutes insertionOrder]
      exact computeRoutesLocked_congr hrecords hne d
  · intro id
    exact ⟨newest_candidate memberFamily_lawful memberFamily_selects hok arrivals id,
      newest_candidate linkStateFamily_lawful linkStateFamily_selects hok arrivals id⟩
  · intro s hs o d
    exact ⟨hs.ok.tables.routes o d, hs.ok.tables.dataRoutes o d⟩
  · exact fun s o record receivedAt now => apply_refused memberFamily_lawful record receivedAt now
  · exact fun s o record receivedAt now => apply_refused linkStateFamily_lawful record receivedAt now

/-! ## A sample run -/

section Sample

def startTopology : Topology := ⟨"a", ∅, ∅, ∅, ∅⟩

theorem consistent_of_new {records : List ρ} (hem : ∀ id, f.held t id = none)
    (h : ∀ r ∈ records, ∀ r' ∈ records, f.nodeID r = f.nodeID r' → f.revision r = f.revision r' →
      r = r') :
    f.Consistent t records := by
  rintro id r r' (hr | ⟨hr, -, hid⟩) (hr' | ⟨hr', -, hid'⟩) hrev
  · rw [hem] at hr
    cases hr
  · rw [hem] at hr
    cases hr
  · rw [hem] at hr'
    cases hr'
  · exact h r hr r' hr' (hid.trans hid'.symm) hrev

/-- Two revisions of a member, and its link state, as they arrive at one node. -/
def sampleArrivals : List (RangeOrder × Arrival) :=
  [(insertionOrder, .member ⟨"b", 1, 1000, "", [], [], ""⟩ ⟨1, true⟩ ⟨1, true⟩),
    (insertionOrder, .member ⟨"b", 2, 1000, "10.0.0.2", [], [], ""⟩ ⟨2, true⟩ ⟨2, true⟩),
    (insertionOrder, .linkState ⟨"b", 1, 1000, true, [⟨"a", 1, false⟩]⟩ ⟨3, true⟩ ⟨3, true⟩)]

/-- In the other order, and one of them twice, the newer revision is kept as well. -/
theorem topology_converges_sample :
    memberFamily.held (startTopology.receive (sampleArrivals.reverse ++ sampleArrivals)) "b" =
        some ⟨"b", 2, 1000, "10.0.0.2", [], [], ""⟩ ∧
      memberFamily.held (startTopology.receive sampleArrivals) "b" =
        memberFamily.held (startTopology.receive (sampleArrivals.reverse ++ sampleArrivals)) "b" :=
  ⟨by decide +kernel, ((topology_converges startTopology (.start ⟨"a", by rfl⟩) sampleArrivals
      (sampleArrivals.reverse ++ sampleArrivals)
      (consistent_of_new (fun _ => rfl) (by decide +kernel)) (consistent_of_new (fun _ =>
        rfl) (by decide +kernel))
      (by simp [arrived, sampleArrivals, Arrival.memberRecord])
      (by simp [arrived, sampleArrivals, Arrival.linkStateRecord])).1 "b").1⟩

end Sample

end Winkyou.Mesh
