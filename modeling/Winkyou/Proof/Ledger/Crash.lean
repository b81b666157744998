import Winkyou.Proof.Ledger.Decoder
import Winkyou.Proof.Ledger.Run

/-!
# The journal file under crashes and short writes

Every append adds some beginning of one frame to the file. A file of whole frames decodes
to the records of its frames (`decodeFrames_frames`); after a frame that was cut anywhere,
inside the length or inside the body, it does not decode (`decodeFrames_torn`), and
then no call changes it any more (`Blocked.act`).

Up to that point the file world refines the world of whole records (`Whole.act`), so that
what holds of every journal of records holds of the file.

* `crash_safe_burn_once`
-/

namespace Winkyou

open List
open LateSuccess (at_ base ownerA start)
open Except (bind_ok_iff failIf_ok_iff)

variable {sha : Sha256} {json : FrameDecoder} {x r : Record} {frame : Bytes} {R : List Record}
  {file : JournalFile} {j : Journal} {write : Write} {data : Bytes}

/-! ## Frames -/

/-- The bytes are the frames of the records. -/
inductive Frames (sha : Sha256) : List Record → Bytes → Prop
  | nil : Frames sha [] []
  | snoc {R : List Record} {data frame : Bytes} {x : Record} : Frames sha R data →
      encodePairingJournalFrame sha x = .ok frame → x.expiresAt.isUTC = true → x.sequence < 2 ^ 64 →
      Frames sha (R ++ [x]) (data ++ frame)

theorem encode_split (h : encodePairingJournalFrame sha x = .ok frame) :
    ∃ a b c d body, frame = a :: b :: c :: d :: body ∧ uint32 a b c d = body.length ∧
      0 < body.length ∧ body.length ≤ maxPairingLedgerFrameBytes ∧
      ∃ record text, x.marshal = .ok record ∧ marshalFrame x (sha.checksum record) = .ok text ∧
        body = utf8 text := by
  simp only [encodePairingJournalFrame, bind_ok_iff, failIf_ok_iff, Except.ok.injEq] at h
  obtain ⟨-, -, record, hrec, text, hte, -, hlen, rfl⟩ := h
  have hmax : maxPairingLedgerFrameBytes = 16384 := rfl
  obtain ⟨a, b, c, d, hput, hval⟩ := uint32_putUint32 (n := (utf8 text).length) (by omega)
  refine ⟨a, b, c, d, utf8 text, by rw [hput]; rfl, hval, by omega, by omega, record, text, hrec,
    hte, rfl⟩

/-- **The decoder gives back the record of a frame.** -/
theorem decodeFrame_encode (json : FrameDecoder) (h : encodePairingJournalFrame sha x = .ok frame)
    (hutc : x.expiresAt.isUTC = true) (hseq : x.sequence < 2 ^ 64) (hrec : x.marshal = .ok record)
    (hte : marshalFrame x (sha.checksum record) = .ok text) :
    decodePairingJournalFrame sha json (utf8 text) = .ok x := by
  have hrt := json.round_trip (encode_valid h) hutc hseq (hexEncode_isHex _) hte
  have hsum : hexDecode (sha.checksum record) = some (sha (utf8 record)).bytes := hexDecode_encode _
  simp only [decodePairingJournalFrame, bind_ok_iff, failIf_ok_iff]
  exact ⟨_, hrt, (), encode_valid h, record, hrec, (), not_not.2 hsum, rfl⟩

theorem decodeFrames_cons (h : encodePairingJournalFrame sha x = .ok frame)
    (hutc : x.expiresAt.isUTC = true) (hseq : x.sequence < 2 ^ 64) {rest : Bytes}
    {acc : List Record} (hlen : acc.length + 1 ≤ maxPairingLedgerRecords) :
    decodeFrames sha json (frame ++ rest) acc = decodeFrames sha json rest (acc ++ [x]) := by
  obtain ⟨a, b, c, d, _, rfl, hval, hpos, hle, record, text, hrec, hte, rfl⟩ := encode_split h
  have hdec := decodeFrame_encode json h hutc hseq hrec hte
  rw [cons_append, cons_append, cons_append, cons_append, decodeFrames]
  simp only [hval]
  rw [if_neg (by omega), if_neg (by simp), take_left', hdec]
  · simp only
    rw [if_neg (by simp; omega), drop_left' rfl]
  · rfl

/-- **A file of whole frames decodes to its records**, whatever follows them. -/
theorem decodeFrames_frames (json : FrameDecoder) (h : Frames sha R data)
    (hlen : R.length ≤ maxPairingLedgerRecords) (rest : Bytes) :
    decodeFrames sha json (data ++ rest) [] = decodeFrames sha json rest R := by
  induction h generalizing rest with
  | nil => rfl
  | @snoc R data frame x _ henc hutc hseq ih =>
    rw [length_append, length_singleton] at hlen
    rw [append_assoc, ih (by omega), decodeFrames_cons henc hutc hseq hlen]

/-- **A torn frame does not decode**: it ends inside its length or inside its body. -/
theorem decodeFrames_torn (json : FrameDecoder) (h : encodePairingJournalFrame sha x = .ok frame)
    {k : ℕ} (h0 : 0 < k) (hk : k < frame.length) (acc : List Record) :
    ∃ e, decodeFrames sha json (frame.take k) acc = .error e := by
  obtain ⟨a, b, c, d, body, rfl, hval, -, hle, -⟩ := encode_split h
  match k, h0 with
  | 1, _ => exact ⟨_, by rw [take_succ_cons, take_zero, decodeFrames] <;> simp⟩
  | 2, _ => exact ⟨_, by
      rw [take_succ_cons, take_succ_cons, take_zero, decodeFrames] <;> simp⟩
  | 3, _ => exact ⟨_, by
      rw [take_succ_cons, take_succ_cons, take_succ_cons, take_zero, decodeFrames] <;> simp⟩
  | k + 4, _ =>
    simp only [length_cons] at hk
    rw [take_succ_cons, take_succ_cons, take_succ_cons, take_succ_cons, decodeFrames]
    simp only [hval]
    rw [if_neg (by omega), if_pos (by rw [length_take]; omega)]
    exact ⟨_, rfl⟩

/-! ## A file that no reader gets past -/

/-- **A blocked file**: every reading of it is indeterminate. -/
def Blocked (sha : Sha256) (json : FrameDecoder) (file : JournalFile) : Prop :=
  ∀ o now, ∃ status, status.state = .indeterminate ∧
    (fileStorage sha json).read file o now = .blocked status .indeterminate

theorem blocked_of_decode (hd : file.data = some data)
    (he : ∃ e, decodePairingJournal sha json data = .error e) : Blocked sha json file := by
  obtain ⟨e, he⟩ := he
  intro o now
  simp only [fileStorage, JournalFile.read, hd, he]
  split
  · exact ⟨_, rfl, rfl⟩
  · exact ⟨_, rfl, rfl⟩

theorem toOption_eq_none {ε α : Type} {e : Except ε α} (h : ∀ v, e ≠ .ok v) :
    e.toOption = none := by
  cases e with
  | error e => rfl
  | ok v => exact absurd rfl (h v)

theorem planAdmit_unusable {read : Time → Reading} {o : String}
    (h : ∀ now s, (read now).usable ≠ .ok s) {now : Time} {request : AdmissionRequest}
    (p : Record × Bytes) : planAdmit sha read o now request ≠ .ok p := by
  intro hp
  simp only [planAdmit, bind_ok_iff] at hp
  obtain ⟨-, -, s, hs, -⟩ := hp
  exact h _ _ hs

theorem plan_of_unusable {ω : Type} {read : Time → Reading} {o : String}
    (h : ∀ now s, (read now).usable ≠ .ok s) (a : Action ω) : a.plan sha read o = none := by
  cases a with
  | takeOver => rfl
  | admitRequest => exact toOption_eq_none (planAdmit_unusable h)
  | finish now receipt reason _ =>
    refine congrArg Option.join (toOption_eq_none fun p hp => ?_)
    simp only [planFinish, bind_ok_iff] at hp
    obtain ⟨-, -, -, -, s, hs, -⟩ := hp
    exact h _ _ hs
  | resetCircuit now n note _ =>
    refine toOption_eq_none fun p hp => ?_
    simp only [planReset, bind_ok_iff] at hp
    obtain ⟨-, -, s, hs, -⟩ := hp
    exact h _ _ hs
  | resetHardNATCampaignCircuit now n note _ =>
    refine toOption_eq_none fun p hp => ?_
    simp only [planCampaignReset, bind_ok_iff] at hp
    obtain ⟨-, -, s, hs, -⟩ := hp
    exact h _ _ hs

variable {w : World JournalFile} {v : World Journal} {a : Action Write}

theorem Blocked.unusable (h : Blocked sha json file) (o : String) (now : Time) (s : Snapshot) :
    ((fileStorage sha json).read file o now).usable ≠ .ok s := by
  obtain ⟨status, hs, hr⟩ := h o now
  simp [hr, Reading.usable, Reading.blocked, hs]

/-- **No call changes a blocked file**, and none hands out a receipt. -/
theorem Blocked.act (h : Blocked sha json w.journal) (a : Action Write) :
    (w.act (fileStorage sha json) sha a).journal = w.journal ∧
      (w.act (fileStorage sha json) sha a).receipts = w.receipts := by
  cases ho : a.outcome with
  | none =>
    obtain ⟨o, rfl⟩ := Action.takeOver_of_outcome ho
    exact ⟨rfl, rfl⟩
  | some o =>
    rw [act_eq _ sha w ho, plan_of_unusable (h.unusable w.owner)]
    exact ⟨rfl, rfl⟩

/-- The world after a list of actions over the file. -/
def World.fileRun (sha : Sha256) (json : FrameDecoder) (w : World JournalFile)
    (as : List (Action Write)) : World JournalFile :=
  as.foldl (fun w a => w.act (fileStorage sha json) sha a) w

/-- **A blocked file stays as it is**, whatever is called. -/
theorem Blocked.run (h : Blocked sha json w.journal) (as : List (Action Write)) :
    (w.fileRun sha json as).journal = w.journal := by
  induction as generalizing w with
  | nil => rfl
  | cons a as ih =>
    obtain ⟨h1, -⟩ := h.act a
    exact (ih (w := w.act (fileStorage sha json) sha a) (by rw [h1]; exact h)).trans h1

theorem Blocked.admit_fails (h : Blocked sha json file) (o : String) (now : Time)
    (request : AdmissionRequest) (write : Write) :
    ∃ e, (fileStorage sha json).admitRequest sha file o now request write = (file, .error e) := by
  cases hp : planAdmit sha ((fileStorage sha json).read file o) o now request with
  | error e => exact ⟨e, by simp [Storage.admitRequest, hp]⟩
  | ok p => exact absurd hp (planAdmit_unusable (h.unusable o) p)

/-! ## A file of whole frames -/

/-- **The file holds a journal**: it is the frames of its records. -/
structure Holds (sha : Sha256) (file : JournalFile) (j : Journal) : Prop where
  data : ∃ data, file.data = some data ∧ Frames sha j.records data ∧ data.length = j.bytes
  appended : file.appended = j.records

theorem Frames.length_ne_zero (h : Frames sha R data) (hne : R ≠ []) : data.length ≠ 0 := by
  cases h with
  | nil => exact absurd rfl hne
  | snoc _ henc _ _ =>
    have := (encode_length henc).1
    rw [length_append]
    omega

theorem Holds.read_eq (h : Holds sha file j) (hne : j.records ≠ [])
    (hr : j.records.length ≤ maxPairingLedgerRecords) :
    (fileStorage sha json).read file = journalStorage.read j := by
  obtain ⟨data, hd, hf, hlen⟩ := h.data
  have hdec : decodePairingJournal sha json data = .ok j.records := by
    have := decodeFrames_frames json hf hr []
    rw [append_nil, decodeFrames] at this
    rw [decodePairingJournal, if_neg (hf.length_ne_zero hne), this]
  funext o now
  simp only [fileStorage, journalStorage, JournalFile.read, Journal.read, hd, hdec, hlen]
  rw [if_neg (not_lt.2 hr)]

theorem Holds.append (h : Holds sha file j) (hw : frame.length ≤ write.written)
    (henc : encodePairingJournalFrame sha x = .ok frame) (hutc : x.expiresAt.isUTC = true)
    (hseq : x.sequence < 2 ^ 64) :
    Holds sha (file.append write x frame).1 (j.append x frame) ∧
      (file.append write x frame).2 = write.reported := by
  obtain ⟨data, hd, hf, hlen⟩ := h.data
  simp only [JournalFile.append, hd, hw, if_true]
  refine ⟨⟨⟨_, rfl, .snoc hf henc hutc hseq, ?_⟩, ?_⟩, trivial⟩
  · rw [length_append, hlen]
    rfl
  · simp [h.appended, Journal.append]

theorem Holds.append_nothing (h : Holds sha file j) (hw : write.written = 0)
    (hpos : 0 < frame.length) : file.append write x frame = (file, false) := by
  obtain ⟨data, hd, -, -⟩ := h.data
  simp only [JournalFile.append, hd, hw]
  rw [if_neg (by omega)]
  simp [← hd]

/-- **A torn append blocks the file.** -/
theorem Holds.append_torn (h : Holds sha file j) (json : FrameDecoder) (h0 : 0 < write.written)
    (hw : write.written < frame.length) (hr : j.records.length ≤ maxPairingLedgerRecords)
    (henc : encodePairingJournalFrame sha x = .ok frame) :
    Blocked sha json (file.append write x frame).1 ∧
      (file.append write x frame).1.appended = file.appended ∧
        (file.append write x frame).2 = false := by
  obtain ⟨data, hd, hf, -⟩ := h.data
  simp only [JournalFile.append, hd]
  rw [if_neg (by omega)]
  refine ⟨blocked_of_decode rfl ?_, rfl, rfl⟩
  obtain ⟨e, he⟩ := decodeFrames_torn json henc h0 hw j.records
  refine ⟨e, ?_⟩
  rw [decodePairingJournal, if_neg, decodeFrames_frames json hf hr, he]
  rw [length_append, length_take]
  omega

/-! ## Runs -/

/-- **The world over a file refines the world over records**, while its file is whole. -/
structure Whole (sha : Sha256) (w : World JournalFile) (v : World Journal) : Prop where
  reachable : World.Reachable sha v
  holds : Holds sha w.journal v.journal
  owner : w.owner = v.owner
  owners : w.owners = v.owners
  receipts : w.receipts = v.receipts

/-- **A torn world**: the file is blocked, and what was written before stays written. -/
structure Torn (sha : Sha256) (json : FrameDecoder) (w : World JournalFile) : Prop where
  blocked : Blocked sha json w.journal
  chain : Chain w.journal.appended
  receipts : ∀ q ∈ w.receipts, ∃ b ∈ burns w.journal.appended, b.credentialID = q.credentialID

/-- A call on the file as a call on the records, which are reported the same way. -/
def Action.reported : Action Write → Action Bool
  | .takeOver o => .takeOver o
  | .admitRequest now request write => .admitRequest now request write.reported
  | .finish now receipt reason write => .finish now receipt reason write.reported
  | .resetCircuit now n note write => .resetCircuit now n note write.reported
  | .resetHardNATCampaignCircuit now n note write =>
    .resetHardNATCampaignCircuit now n note write.reported

theorem reported_plan (read : Time → Reading) (o : String) :
    a.reported.plan sha read o = a.plan sha read o := by
  cases a <;> rfl

theorem reported_issues (read : Time → Reading) (o : String) :
    a.reported.issues read o x = a.issues read o x := by
  cases a <;> rfl

theorem reported_outcome : a.reported.outcome = a.outcome.map Write.reported := by
  cases a <;> rfl

section

variable (h : Whole sha w v)

include h

theorem Whole.legal (hl : a.legal w) : a.reported.legal v := by
  cases a with
  | takeOver o => exact ⟨h.owners ▸ hl.1, hl.2⟩
  | finish now receipt reason write =>
    have hq : receipt ∈ w.receipts := hl
    rw [h.receipts] at hq
    exact hq
  | admitRequest | resetCircuit | resetHardNATCampaignCircuit => trivial

/-- Both storages read the same. -/
theorem Whole.read_eq : (fileStorage sha json).read w.journal = journalStorage.read v.journal :=
  h.holds.read_eq (reachable_ok h.reachable).ne (reachable_ok h.reachable).records_le

theorem Whole.history : Chain w.journal.appended ∧
    ∀ q ∈ w.receipts, ∃ b ∈ burns w.journal.appended, b.credentialID = q.credentialID := by
  have hok := reachable_ok h.reachable
  rw [h.holds.appended, h.receipts]
  refine ⟨hok.chain, fun q hq => ?_⟩
  obtain ⟨b, hb, hc, -⟩ := hok.receipts q hq
  exact ⟨b, hb, hc⟩

theorem Whole.written
    (hp : a.plan sha (journalStorage.read v.journal v.owner) v.owner = some (x, frame)) :
    Written sha v.journal v.owner x frame ∧ x.sequence < 2 ^ 64 := by
  have hx : v.appends sha a.reported = some (x, frame) := (reported_plan ..).trans hp
  have hwr := appends_written (reachable_ok h.reachable).readable_owner hx
  have hle := hwr.records_le
  refine ⟨hwr, ?_⟩
  rw [hwr.follows.seq]
  simp only [maxPairingLedgerRecords] at hle
  omega

/-- **A call whose frame is written in full** is the same call over the records. -/
theorem Whole.act_complete (hl : a.legal w) (ho : a.outcome = some write)
    (hfu : ∀ x frame, a.plan sha (journalStorage.read v.journal v.owner) v.owner = some (x, frame) →
      frame.length ≤ write.written) :
    Whole sha (w.act (fileStorage sha json) sha a) (v.act journalStorage sha a.reported) := by
  have hre : World.Reachable sha (v.act journalStorage sha a.reported) :=
    .act _ h.reachable (h.legal hl)
  have ho' : a.reported.outcome = some write.reported :=
    reported_outcome.trans (congrArg (Option.map Write.reported) ho)
  rw [act_eq journalStorage sha v ho', reported_plan] at hre ⊢
  rw [act_eq _ sha w ho, h.read_eq, h.owner]
  rcases hp : a.plan sha (journalStorage.read v.journal v.owner) v.owner with _ | p
  · exact h
  obtain ⟨x, frame⟩ := p
  obtain ⟨hwr, hseq⟩ := h.written hp
  obtain ⟨hho, hrep⟩ := h.holds.append (hfu x frame hp) hwr.encoded hwr.utc hseq
  have hok := (reachable_ok h.reachable).append hwr
  have hread : (fileStorage sha json).read (w.journal.append write x frame).1 =
      journalStorage.read (v.journal.append x frame) := hho.read_eq hok.ne hok.records_le
  have happ : (fileStorage sha json).append w.journal write x frame =
    w.journal.append write x frame := rfl
  have happ' : journalStorage.append v.journal write.reported x frame =
    (v.journal.append x frame, write.reported) := rfl
  rw [hp] at hre
  simp only [happ, happ'] at hre ⊢
  refine ⟨hre, hho, h.owner, h.owners, ?_⟩
  simp only [World.after, hrep, hread, reported_issues, h.receipts, h.owner]

end

/-- **A short write tears the file.** -/
theorem Whole.act_torn (h : Whole sha w v) {write : Write} (ho : a.outcome = some write)
    {x : Record} {frame : Bytes}
    (hp : a.plan sha (journalStorage.read v.journal v.owner) v.owner = some (x, frame))
    (h0 : 0 < write.written) (hshort : write.written < frame.length) :
    Torn sha json (w.act (fileStorage sha json) sha a) := by
  have happ : (fileStorage sha json).append w.journal write x frame =
    w.journal.append write x frame := rfl
  rw [act_eq _ sha w ho, h.read_eq, h.owner, hp]
  simp only [happ]
  obtain ⟨hb, happe, hrep⟩ := h.holds.append_torn json h0 hshort (reachable_ok h.reachable).records_le
    (h.written hp).1.encoded
  obtain ⟨hc, hq⟩ := h.history
  refine ⟨hb, ?_, ?_⟩
  · rw [World.after, happe]
    exact hc
  · simp only [World.after, hrep, happe]
    exact hq

/-- **One action over the file**: it is the same action over the records, or it leaves the world
as it was, or it tears the file. -/
theorem Whole.act (h : Whole sha w v) (hl : a.legal w) :
    (∃ v', Whole sha (w.act (fileStorage sha json) sha a) v') ∨
      Torn sha json (w.act (fileStorage sha json) sha a) := by
  cases ho : a.outcome with
  | none =>
    obtain ⟨o, rfl⟩ := Action.takeOver_of_outcome ho
    refine .inl ⟨v.act journalStorage sha (.takeOver o), .act _ h.reachable (h.legal hl), h.holds,
      rfl, ?_, h.receipts⟩
    simp [World.act, h.owners]
  | some write =>
    by_cases hfu : ∀ x frame, a.plan sha (journalStorage.read v.journal v.owner) v.owner = some (x,
      frame) →
        frame.length ≤ write.written
    · exact .inl ⟨_, h.act_complete hl ho hfu⟩
    · simp only [not_forall, not_le] at hfu
      obtain ⟨x, frame, hp, hsh⟩ := hfu
      by_cases hno : write.written = 0
      · -- nothing of it reaches the file
        left
        have hpos := (encode_length (h.written hp).1.encoded).1
        have happ : (fileStorage sha json).append w.journal write x frame =
          w.journal.append write x frame := rfl
        rw [act_eq _ sha w ho, h.read_eq, h.owner, hp]
        simp only [happ]
        rw [h.holds.append_nothing hno (by omega)]
        exact ⟨v, h⟩
      · exact .inr (h.act_torn ho hp (Nat.pos_of_ne_zero hno) hsh)

theorem initial_whole_or_torn (h : w.FileInitial sha) : (∃ v, Whole sha w v) ∨ Torn sha json w := by
  obtain ⟨now, rebuild, frame, owner, write, henc, hown, rfl⟩ := h
  have hpos := (encode_length henc).1
  have hem : Holds sha ⟨some [], []⟩ ⟨[], 0⟩ := ⟨⟨[], rfl, .nil, rfl⟩, rfl⟩
  by_cases hfu : frame.length ≤ write.written
  · left
    have hseq : (firstRecord now rebuild).sequence < 2 ^ 64 := by simp [firstRecord]
    obtain ⟨hho, -⟩ := hem.append hfu henc rfl hseq
    refine ⟨⟨⟨[firstRecord now rebuild], frame.length⟩, owner, [owner], []⟩, ?_, ?_, rfl, rfl, rfl⟩
    · exact .init ⟨now, rebuild, frame, owner, henc, hown, rfl⟩
    · simpa [Journal.append] using hho
  · right
    by_cases hno : write.written = 0
    · rw [hem.append_nothing hno (by omega)]
      exact ⟨blocked_of_decode rfl ⟨_, rfl⟩, .nil, by simp⟩
    · obtain ⟨hb, happ, -⟩ :=
        hem.append_torn json (Nat.pos_of_ne_zero hno) (not_le.1 hfu) (by simp) henc
      exact ⟨hb, by rw [happ]; exact .nil, by simp⟩

/-- **A file is whole or torn**, at any time of any run. -/
theorem fileReachable_whole_or_torn (h : World.FileReachable sha json w) :
    (∃ v, Whole sha w v) ∨ Torn sha json w := by
  induction h with
  | init h => exact initial_whole_or_torn h
  | @act w a _ hl ih =>
    rcases ih with ⟨v, hv⟩ | ht
    · exact hv.act hl
    · right
      obtain ⟨h1, h2⟩ := ht.blocked.act a
      exact ⟨by rw [h1]; exact ht.blocked, by rw [h1]; exact ht.chain,
        by rw [h1, h2]; exact ht.receipts⟩

theorem Whole.admit_again (h : Whole sha w v) {b : Record} (hb : b ∈ burns w.journal.appended)
    {now : Time} {request : AdmissionRequest} (hc : request.credentialID = b.credentialID)
    (write : Write) :
    ∃ e, (fileStorage sha json).admitRequest sha w.journal w.owner now request write = (w.journal,
      .error e) := by
  rcases hp : planAdmit sha ((fileStorage sha json).read w.journal w.owner) w.owner now request with
    e | p
  · exact ⟨e, by simp [Storage.admitRequest, hp]⟩
  obtain ⟨x, frame⟩ := p
  rw [h.read_eq, h.owner] at hp
  obtain ⟨hwr, hty, hcr, -⟩ := planAdmit_written (reachable_ok h.reachable).readable_owner hp
  have hfi := hwr.follows.fits
  rw [FitsType, hty] at hfi
  rw [h.holds.appended] at hb
  exact absurd (hc.symm.trans hcr.symm) (hfi.2.1 b hb)

/-- **The crash-safe burn-once journal.** In every world reached by calls, crashes and short
writes, reading the file either gives every later owner exactly the records whose frames were
written in full, or it is indeterminate, and then no later call changes the file and every later
admission fails. Over the whole run each credential and each attempt id is burned at most
once, and a credential with a receipt is never admitted again. -/
theorem crash_safe_burn_once (hw : World.FileReachable sha json w) :
    ((∀ o, (o = "" ∨ o = w.owner ∨ ∀ b ∈ burns w.journal.appended, b.ownerInstanceID ≠ o) → ∀ now,
        ∃ s, ((fileStorage sha json).read w.journal o now).usable = .ok s ∧
          s.records = w.journal.appended) ∨
      (Blocked sha json w.journal ∧ ∀ as, (w.fileRun sha json as).journal = w.journal ∧
        ∀ now request write, ∃ e, (fileStorage sha json).admitRequest sha
          (w.fileRun sha json as).journal
          (w.fileRun sha json as).owner now request write = (w.journal, .error e))) ∧
    ((burns w.journal.appended).map (·.credentialID)).Nodup ∧
    ((burns w.journal.appended).map (·.attemptID)).Nodup ∧
    ∀ q ∈ w.receipts, ∀ now request write, request.credentialID = q.credentialID →
      ∃ e, (fileStorage sha json).admitRequest sha w.journal w.owner now request write = (w.journal,
        .error e) := by
  rcases fileReachable_whole_or_torn hw with ⟨v, h⟩ | h
  · obtain ⟨hchain, hq⟩ := h.history
    refine ⟨.inl fun o ho now => ?_, hchain.burn_creds_nodup, hchain.burn_attempts_nodup, ?_⟩
    · rw [h.holds.appended, h.owner] at ho
      have hr := (reachable_ok h.reachable).readable ho
      refine ⟨readSnap v.journal o now, ?_, h.holds.appended.symm⟩
      rw [h.read_eq]
      exact hr.read_usable
    · intro q hqw now request write hc
      obtain ⟨b, hb, hbc⟩ := hq q hqw
      exact h.admit_again hb (hc.trans hbc.symm) write
  · refine ⟨.inr ⟨h.blocked, fun as => ⟨h.blocked.run as, fun now request write => ?_⟩⟩,
      h.chain.burn_creds_nodup, h.chain.burn_attempts_nodup, ?_⟩
    · rw [h.blocked.run as]
      exact h.blocked.admit_fails _ now request write
    · intro q _ now request write _
      exact h.blocked.admit_fails _ now request write

/-- The first two admissions of the sample run, with the outcome of the write. -/
def firstAdmission {ω : Type} (o : ω) : Action ω :=
  .admitRequest (at_ 60) (LateSuccess.request 'A' 'B' 60) o

def secondAdmission {ω : Type} (o : ω) : Action ω :=
  .admitRequest (at_ 120) (LateSuccess.request 'C' 'D' 120) o

/-- The sample run after its first admission, over a file. -/
theorem sample_file : ∃ w, World.FileReachable zeroSha frameDecoder w ∧
    Whole zeroSha w (start.act journalStorage zeroSha (firstAdmission true)) := by
  let write : Write := ⟨4 + maxPairingLedgerFrameBytes, true⟩
  have hok : (encodePairingJournalFrame zeroSha (firstRecord base false)).isOk = true := by
    decide +kernel
  obtain ⟨frame, hframe⟩ := Except.exists_ok_of_isOk hok
  have hlen : frame.length ≤ write.written := (encode_length hframe).2
  have hown : validatePairingOwnerInstanceID ownerA = .ok () := by decide +kernel
  let w : World JournalFile :=
    { journal := ((⟨some [], []⟩ : JournalFile).append write (firstRecord base false) frame).1
      owner := ownerA, owners := [ownerA] }
  have hw : World.FileReachable zeroSha frameDecoder w :=
    .init ⟨base, false, frame, ownerA, write, hframe, hown, rfl⟩
  have hempty : Holds zeroSha ⟨some [], []⟩ ⟨[], 0⟩ := ⟨⟨[], rfl, .nil, rfl⟩, rfl⟩
  have hwhole : Whole zeroSha w start := by
    obtain ⟨hholds, -⟩ := hempty.append hlen hframe rfl (show 1 < 2 ^ 64 by decide)
    refine ⟨LateSuccess.start_reachable, ?_, rfl, rfl, rfl⟩
    have : start.journal = (⟨[], 0⟩ : Journal).append (firstRecord base false) frame := by
      simp [start, hframe, Except.toOption, Journal.append]
    rw [this]
    exact hholds
  refine ⟨_, .act (firstAdmission write) hw trivial, hwhole.act_complete trivial rfl fun x f hp => ?_⟩
  exact (encode_length (hwhole.written hp).1.encoded).2

/-- The second admission of the sample run is torn after ten bytes: the file is blocked, and the
credential of the first one is still not admitted again. -/
theorem sample_crash_safe : ∃ w q, World.FileReachable zeroSha frameDecoder w ∧
    Blocked zeroSha frameDecoder w.journal ∧ q ∈ w.receipts ∧
    ∀ now request write, request.credentialID = q.credentialID →
      ∃ e, (fileStorage zeroSha frameDecoder).admitRequest zeroSha w.journal w.owner now request write =
        (w.journal, .error e) := by
  obtain ⟨w, hw, hwhole⟩ := sample_file
  let torn : Write := ⟨10, false⟩
  have hplan : ((secondAdmission torn).plan zeroSha
      (journalStorage.read (start.act journalStorage zeroSha (firstAdmission true)).journal
        (start.act journalStorage zeroSha (firstAdmission true)).owner)
      (start.act journalStorage zeroSha (firstAdmission true)).owner).isSome = true := by decide +kernel
  obtain ⟨⟨x, frame⟩, hplan⟩ := Option.isSome_iff_exists.1 hplan
  have hlen := encode_length_ge (hwhole.written hplan).1.encoded
  have htorn : Torn zeroSha frameDecoder (w.act (fileStorage zeroSha frameDecoder) zeroSha
    (secondAdmission torn)) :=
    hwhole.act_torn rfl hplan (by decide) (show 10 < frame.length by omega)
  have hreach : World.FileReachable zeroSha frameDecoder
      (w.act (fileStorage zeroSha frameDecoder) zeroSha (secondAdmission torn)) := .act _ hw trivial
  have hq : 0 < (start.act journalStorage zeroSha (firstAdmission true)).receipts.length := by
    decide +kernel
  obtain ⟨q, hq⟩ := exists_mem_of_length_pos hq
  rw [← hwhole.receipts] at hq
  have hkept : q ∈ (w.act (fileStorage zeroSha frameDecoder) zeroSha
    (secondAdmission torn)).receipts := by
    simp only [secondAdmission, World.act]
    split
    · exact mem_cons_of_mem _ hq
    · exact hq
  exact ⟨_, q, hreach, htorn.blocked, hkept, (crash_safe_burn_once hreach).2.2.2 q hkept⟩

/-! ## The history of a journal -/

theorem Chain.follows (h : Chain R) : ∀ P r S, R = P ++ r :: S → Follows P r := by
  induction h with
  | nil => exact fun P r S hR => absurd hR (by simp)
  | @snoc R x _ hx ih =>
    intro P r S hR
    rcases eq_nil_or_concat S with rfl | ⟨S, y, rfl⟩
    · obtain ⟨rfl, hr⟩ := append_inj' hR rfl
      cases hr
      exact hx
    · rw [concat_eq_append, ← cons_append, ← append_assoc] at hR
      exact ih P r S (append_inj' hR rfl).1

theorem fileReachable_chain (h : World.FileReachable sha json w) : Chain w.journal.appended := by
  rcases fileReachable_whole_or_torn h with ⟨v, hv⟩ | ht
  · exact hv.history.1
  · exact ht.chain

/-- **The history of a journal.** In every world reached by calls, crashes and short writes, whoever
owns the journal and whatever the clock shows: the records written in full are numbered in their
order, their times never decrease, and only the first is a baseline. A burn repeats no credential
and no attempt, and a finish comes after the burn of its credential, attempt and class, once for
each credential. -/
theorem journal_history (sha : Sha256) (json : FrameDecoder) :
    (∀ w, World.FileReachable sha json w → ∀ P r S, w.journal.appended = P ++ r :: S →
      r.sequence = P.length + 1 ∧ (∀ a ∈ P, a.recordedAt.nanos ≤ r.recordedAt.nanos) ∧
        (r.type = .init ∨ r.type = .rebuildBaseline ↔ P = [])) ∧
    ∀ w, World.FileReachable sha json w → ∀ P r S, w.journal.appended = P ++ r :: S →
      (r.type = .burnAndAdmit → ∀ b ∈ burns P, b.credentialID ≠ r.credentialID ∧
        b.attemptID ≠ r.attemptID) ∧
      (r.type = .finish → (∃ b ∈ burns P, b.credentialID = r.credentialID ∧ b.attemptID = r.attemptID ∧
        b.recordClass = r.recordClass) ∧ ∀ f ∈ finishes P, f.credentialID ≠ r.credentialID) := by
  constructor
  · intro w hw P r S hP
    have hf := (fileReachable_chain hw).follows P r S hP
    refine ⟨hf.seq, fun a ha => (recordedAt_le_highWater ha).trans (hf.clock (ne_nil_of_mem ha)), ?_⟩
    have hfits := hf.fits
    unfold FitsType at hfits
    split at hfits <;> simp_all
    -- left is a finish, which has its burn before it
    obtain ⟨b, ⟨hb, -⟩, -⟩ := hfits.1
    exact ne_nil_of_mem hb
  · intro w hw P r S hP
    have hfits := ((fileReachable_chain hw).follows P r S hP).fits
    refine ⟨fun ht b hb => ?_, fun ht => ?_⟩
    · rw [FitsType, ht] at hfits
      exact ⟨hfits.2.1 b hb, hfits.2.2 b hb⟩
    · rw [FitsType, ht] at hfits
      refine ⟨hfits.1, fun f hf hc => hfits.2 (finished_iff.2 ⟨f, ?_⟩)⟩
      obtain ⟨hm, hft⟩ := mem_finishes.1 hf
      exact ⟨hm, hft, hc⟩

/-- The journal of the sample run has a baseline and a burn. -/
theorem journal_history_sample : ∃ w, World.FileReachable zeroSha frameDecoder w ∧
    w.journal.appended.map (·.type) = [.init, .burnAndAdmit] ∧ ∀ P r S, w.journal.appended = P ++
      r :: S → r.sequence = P.length + 1 ∧ (r.type = .burnAndAdmit →
        ∀ b ∈ burns P, b.credentialID ≠ r.credentialID) := by
  obtain ⟨w, hw, hwhole⟩ := sample_file
  have htypes : (start.act journalStorage zeroSha (firstAdmission true)).journal.records.map (·.type) =
      [.init, .burnAndAdmit] := by decide +kernel
  refine ⟨w, hw, hwhole.holds.appended ▸ htypes, fun P r S hP => ?_⟩
  exact ⟨((journal_history zeroSha frameDecoder).1 w hw P r S hP).1,
    fun ht b hb => (((journal_history zeroSha frameDecoder).2 w hw P r S hP).1 ht b hb).1⟩

end Winkyou
