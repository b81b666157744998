import Winkyou.Lib.Framing
import Winkyou.Lib.Transition
import Winkyou.Proof.Codec
import Winkyou.Spec.Framed.Adapter

/-!
# Frame alignment

A call that stops inside a frame leaves the rest of the frame on the stream, or never writes it, and
the next call of that side takes what follows for a header (`packet_invented`).

* `Stream.intact`: no call follows a call of the same side that stopped inside a frame.
* `frames_aligned`: then `ReadPacket` returns exactly the packets that were written, in order,
  whatever else fails.
-/

namespace Winkyou.Framed

open Framing List
open Option (bind_eq_bind bind_eq_some_iff map_none map_some toList_none toList_some)

def lenHeader : Header UInt8 where
  width := 4
  bound := 4294967296
  encode n := putUint32 (n % 4294967296)
  decode := Stream.frameLen
  width_pos := by decide
  length_encode _ := rfl
  decode_encode n hn := by
    rw [Nat.mod_eq_of_lt hn]
    obtain ⟨a, b, c, d, hput, hval⟩ := uint32_putUint32 hn
    rw [hput]
    exact hval

def Writing.pkt : Writing → Bytes
  | .header pkt _ | .payload pkt _ => pkt

/-- What is missing of the frame. -/
def Writing.remaining : Writing → Bytes
  | .header pkt rest => rest ++ pkt
  | .payload _ rest => rest

/-- A packet that a frame can carry. -/
def Fits (pkt : Bytes) : Prop := 0 < pkt.length ∧ pkt.length < 4294967296

/-- The condition on a call: the calls of the same side before it have not stopped inside a frame,
the length of a packet is a `uint32`, and a destination has room for a byte. -/
def Stream.intact (s : Stream) : Action → Bool
  | .writePacket pkt _ => s.history.torn = [] && pkt.length < 4294967296
  | .readPacket dst _ => !s.history.readTorn && 0 < dst
  | _ => true

/-! ## The writer -/

variable {s s' : Stream} {n : ℕ} {w : Writing} {r : Reading} {part written consumed : Bytes}
  {action : Action}
  {completed torn returned begun : List Bytes} {writing : Option Writing} {reading : Option Reading}
  {readTorn : Bool}

/-- What was written: whole frames, and a part of one more if a call is in progress or stopped
inside its frame. -/
inductive WriteOK (completed torn : List Bytes) (written : Bytes) (writing : Option Writing) : Prop
  | idle (hw : writing = none) (ht : torn = []) (h : written = frames lenHeader completed)
  | writing {w : Writing} (hw : writing = some w) (ht : torn = []) (hfits : Fits w.pkt)
      (hrest : w.rest ≠ []) (h : written ++ w.remaining = frames lenHeader (completed ++ [w.pkt]))
  | torn {pkt rest : Bytes} (hw : writing = none) (ht : torn = [pkt]) (hfits : Fits pkt)
      (hrest : rest ≠ []) (h : written ++ rest = frames lenHeader (completed ++ [pkt]))

/-- The packets whose frames were begun. -/
def begunBy (completed torn : List Bytes) (writing : Option Writing) : List Bytes :=
  completed ++ torn ++ (writing.map Writing.pkt).toList

theorem WriteOK.prefix_begun (h : WriteOK completed torn written writing) :
    written <+: frames lenHeader (begunBy completed torn writing) := by
  unfold begunBy
  cases h with
  | idle hw ht h => simp [hw, ht, h]
  | writing hw ht hfi hre h =>
    simp only [hw, ht, map_some, toList_some, append_nil, ← h]
    exact prefix_append _ _
  | torn hw ht hfi hre h =>
    simp only [hw, ht, map_none, toList_none, append_nil, ← h]
    exact prefix_append _ _

theorem WriteOK.begun_fits (h : WriteOK completed torn written writing)
    (hfi : ∀ pkt ∈ completed, Fits pkt) : ∀ pkt ∈ begunBy completed torn writing, Fits pkt := by
  intro pkt hmem
  simp only [begunBy, mem_append] at hmem
  cases h with
  | idle hw ht h =>
    simp only [ht, hw, map_none, toList_none, not_mem_nil, or_false] at hmem
    exact hfi pkt hmem
  | writing hw ht hpkt hre h =>
    simp only [ht, hw, map_some, toList_some, not_mem_nil, or_false, mem_singleton] at hmem
    rcases hmem with hmem | rfl
    · exact hfi pkt hmem
    · exact hpkt
  | torn hw ht hpkt hre h =>
    simp only [ht, hw, map_none, toList_none, not_mem_nil, or_false, mem_singleton] at hmem
    rcases hmem with hmem | rfl
    · exact hfi pkt hmem
    · exact hpkt

/-! ## The reader -/

/-- What was taken of the current frame. -/
inductive Part : Option Reading → Bytes → Prop
  | idle : Part none []
  | header {dst : ℕ} {got : Bytes} (h : got.length < 4) : Part (some (.header dst got)) got
  | payload {frameLen : ℕ} {lenBuf got : Bytes} (hlen : lenBuf.length = 4)
      (hframe : Stream.frameLen lenBuf = frameLen)
      (h : got.length < frameLen) : Part (some (.payload frameLen got)) (lenBuf ++ got)

/-- Whole frames were taken, and then a part of one. -/
inductive ReadOK (returned : List Bytes) (consumed : Bytes) (readTorn : Bool)
    (reading : Option Reading) : Prop
  | aligned {part : Bytes} (ht : readTorn = false) (hpart : Part reading part)
      (h : consumed = frames lenHeader returned ++ part)
  | torn (ht : readTorn = true) (hr : reading = none) (h : frames lenHeader returned <+: consumed)

theorem ReadOK.whole (h : ReadOK returned consumed readTorn reading) :
    frames lenHeader returned <+: consumed := by
  cases h with
  | aligned ht hpa h => exact h ▸ prefix_append _ _
  | torn ht hr h => exact h

structure StreamOK (s : Stream) : Prop where
  write : WriteOK s.history.completed s.history.torn s.history.written s.writing
  read : ReadOK s.history.returned s.history.consumed s.history.readTorn s.reading
  fits : ∀ pkt ∈ s.history.completed, Fits pkt
  flow : s.history.consumed ++ s.stream = s.history.written
  returned : s.history.returned <+: begunBy s.history.completed s.history.torn s.writing

/-- Without the last packet that was begun, if its frame is not complete. -/
theorem StreamOK.returned_of_short (h : StreamOK s) {pkt rest : Bytes} (hre : rest ≠ [])
    (hret : s.history.returned <+: completed ++ [pkt])
    (hwri : s.history.written ++ rest = frames lenHeader (completed ++ [pkt])) :
    s.history.returned <+: completed := by
  refine @prefix_of_short _ lenHeader _ _ _ hret ?_
  have hwh := h.read.whole.length_le
  have hfl := congrArg List.length h.flow
  have hpos := length_pos_iff.mpr hre
  rw [← hwri, length_append]
  rw [length_append] at hfl
  omega

/-! ## Steps -/

theorem StreamOK.writePacket (h : StreamOK s) {pkt : Bytes} {deadlineSet : Bool}
    (hw : s.writing = none) (ht : s.history.torn = []) (hlen : pkt.length < 4294967296) :
    StreamOK (s.writePacket pkt deadlineSet) := by
  have hsa : ∀ e, StreamOK (s.writeError e) := fun e =>
    ⟨by simpa only [Stream.writeError, hw] using h.write, h.read, h.fits, h.flow,
      by simpa only [Stream.writeError, hw] using h.returned⟩
  unfold Stream.writePacket
  split
  · exact h
  rename_i hpos
  split
  · exact hsa _
  split
  · exact hsa _
  have hwri : s.history.written = frames lenHeader s.history.completed := by
    cases h.write with
    | idle _ _ h => exact h
    | writing hw' => simp [hw] at hw'
    | torn _ ht' => simp [ht] at ht'
  refine ⟨.writing rfl ht ⟨Nat.pos_of_ne_zero hpos, hlen⟩ (cons_ne_nil _ _) ?_, h.read, h.fits,
    h.flow, ?_⟩
  · simp [hwri, Writing.remaining, Writing.pkt, frame, lenHeader, Stream.lenBuf]
  · refine h.returned.trans ?_
    simp [begunBy, hw]

theorem WriteOK.writing_of (h : WriteOK completed torn written writing) (hw : writing = some w) :
    torn = [] ∧ Fits w.pkt ∧ w.rest ≠ [] ∧
      written ++ w.remaining = frames lenHeader (completed ++ [w.pkt]) := by
  cases h with
  | idle hw' => simp [hw] at hw'
  | writing hw' ht hfi hre h =>
    obtain rfl := Option.some.inj (hw.symm.trans hw')
    exact ⟨ht, hfi, hre, h⟩
  | torn hw' => simp [hw] at hw'

/-- Bytes leave the writer in their order. -/
theorem StreamOK.transfer (h : StreamOK s) (hw : s.writing = some w) :
    StreamOK (s.transfer n w) := by
  obtain ⟨ht, hfi, hre, hwri⟩ := h.write.writing_of hw
  have hret := h.returned
  simp only [begunBy, hw, ht, map_some, toList_some, append_nil] at hret
  have hfl : ∀ bytes, s.history.consumed ++ (s.stream ++ bytes) = s.history.written ++ bytes := by
    intro bytes
    rw [← append_assoc, h.flow]
  cases w with
  | header pkt rest =>
    refine ⟨?_, h.read, h.fits, hfl _, by simpa [Stream.transfer, Stream.put, begunBy, ht,
      Writing.pkt, apply_ite] using hret⟩
    simp only [Stream.transfer, Stream.put]
    split
    · rename_i hdr
      have hta : rest.take n = rest := by simpa [hdr] using take_append_drop n rest
      refine .writing rfl ht hfi (length_pos_iff.mp hfi.1) ?_
      simpa [Writing.remaining, Writing.pkt, hta] using hwri
    · rename_i hdr
      refine .writing rfl ht hfi hdr ?_
      simpa [Writing.remaining, Writing.pkt, ← append_assoc (rest.take n)] using hwri
  | payload pkt rest =>
    unfold Stream.transfer
    simp only
    split
    · rename_i hdr
      have hta : rest.take n = rest := by simpa [hdr] using take_append_drop n rest
      refine ⟨.idle rfl ht ?_, h.read, ?_, hfl _, ?_⟩
      · simpa [Stream.put, hta, Writing.remaining, Writing.pkt] using hwri
      · exact forall_mem_append.2 ⟨h.fits, forall_mem_singleton.2 hfi⟩
      · simpa [Stream.put, begunBy, ht, Writing.pkt] using hret
    · rename_i hdr
      refine ⟨.writing rfl ht hfi hdr ?_, h.read, h.fits, hfl _, ?_⟩
      · simpa [Stream.put, Writing.remaining, Writing.pkt] using hwri
      · simpa [Stream.put, begunBy, ht, Writing.pkt] using hret

theorem StreamOK.writeFails (h : StreamOK s) (hw : s.writing = some w) :
    StreamOK (s.writeFails w) := by
  obtain ⟨ht, hfi, hre, hwri⟩ := h.write.writing_of hw
  have hret := h.returned
  simp only [begunBy, hw, ht, map_some, toList_some, append_nil] at hret
  -- inside the frame the packet stays begun; before it, it was never begun
  have hto : StreamOK { s.writeError .stream with
      history := { (s.writeError .stream).history with torn := s.history.torn ++ [w.pkt] } } := by
    refine ⟨.torn rfl (by simp [ht]) hfi ?_ hwri, h.read, h.fits, h.flow, ?_⟩
    · cases w with
      | header pkt rest => exact append_ne_nil_of_left_ne_nil hre _
      | payload pkt rest => exact hre
    · simpa [begunBy, ht, Stream.writeError] using hret
  cases w with
  | header pkt rest =>
    unfold Stream.writeFails
    simp only
    split
    · rename_i heq
      subst heq
      have hfr : frames lenHeader (s.history.completed ++ [pkt]) =
          frames lenHeader s.history.completed ++ (Stream.lenBuf pkt ++ pkt) := by
        simp [frame, lenHeader, Stream.lenBuf]
      refine ⟨.idle rfl ht (append_cancel_right (hwri.trans hfr)), h.read, h.fits, h.flow, ?_⟩
      have hsh := h.returned_of_short (append_ne_nil_of_left_ne_nil hre _) hret hwri
      simpa [begunBy, ht, Stream.writeError] using hsh
    · exact hto
  | payload pkt rest => exact hto

theorem StreamOK.readPacket (h : StreamOK s) {dst : ℕ} {deadlineSet : Bool} (hr : s.reading = none)
    (ht : s.history.readTorn = false) (hdst : 0 < dst) :
    StreamOK (s.readPacket dst deadlineSet) := by
  have hcon : s.history.consumed = frames lenHeader s.history.returned := by
    cases h.read with
    | aligned _ hpa h =>
      rw [hr] at hpa
      cases hpa
      simpa using h
    | torn ht' => simp [ht] at ht'
  unfold Stream.readPacket
  rw [if_neg (by omega)]
  split
  · exact ⟨h.write, .aligned (by simpa [Stream.readError] using ht) .idle
      (by simpa [Stream.readError] using hcon),
      h.fits, h.flow, h.returned⟩
  · exact ⟨h.write, .aligned ht (.header (by simp)) (by simpa using hcon), h.fits, h.flow, h.returned⟩

theorem ReadOK.part_of (h : ReadOK returned consumed readTorn (some r)) :
    readTorn = false ∧ ∃ part, Part (some r) part ∧ consumed = frames lenHeader returned ++ part := by
  cases h with
  | aligned ht hpa h => exact ⟨ht, _, hpa, h⟩
  | torn ht hr h => cases hr

theorem StreamOK.take (h : StreamOK s)
    (hre : ReadOK returned (s.history.consumed ++ s.stream.take n) readTorn reading)
    (hret : returned <+: begunBy s.history.completed s.history.torn s.writing)
    {readErrors : List ReadError} : StreamOK { s.take n with
      reading := reading
      history := { (s.take n).history with returned := returned, readTorn := readTorn, readErrors := readErrors } } :=
  ⟨h.write, hre, h.fits, by simp [Stream.take, h.flow], hret⟩

/-- **The reader takes bytes** off the front of the stream. -/
theorem StreamOK.receive (h : StreamOK s) (hr : s.reading = some r) (hle : n ≤ s.stream.length)
    (hn : n ≤ r.wants) : StreamOK (s.receive n r) := by
  have hre := h.read
  rw [hr] at hre
  obtain ⟨ht, part, hpa, hcon⟩ := hre.part_of
  have hlen : (s.stream.take n).length = n := by simpa using hle
  -- what was taken is a part of the frames that were begun
  have hst : frames lenHeader s.history.returned ++ (part ++ s.stream.take n) <+:
      frames lenHeader (begunBy s.history.completed s.history.torn s.writing) := by
    rw [← append_assoc, ← hcon]
    refine List.IsPrefix.trans ?_ h.write.prefix_begun
    rw [← h.flow]
    exact (prefix_append_right_inj _).mpr (List.take_prefix n s.stream)
  have hfi := h.write.begun_fits h.fits
  have hne := fun (lenBuf got : Bytes) => @next_of_framed _ lenHeader _ _ lenBuf got (fun p hp =>
    (hfi p hp).2) h.returned
  have hcon' : s.history.consumed ++ s.stream.take n =
      frames lenHeader s.history.returned ++ (part ++ s.stream.take n) := by rw [hcon, append_assoc]
  have hwh : frames lenHeader s.history.returned <+: s.history.consumed ++ s.stream.take n :=
    hcon' ▸ prefix_append _ _
  cases hpa with
  | @header dst got hgot =>
    simp only [Reading.wants] at hn
    unfold Stream.receive
    simp only
    split
    · rename_i hfo
      unfold Stream.readHeader
      split
      · exact h.take (.torn (by simp) rfl hwh) h.returned
      split
      · exact h.take (.torn (by simp) rfl hwh) h.returned
      split
      · -- no frame is empty
        rename_i hze
        obtain ⟨hmem, -⟩ := hne _ [] (by simpa using hst) hfo hze.symm
        have hem := hfi [] (hmem.subset (by simp))
        exact absurd hem.1 (by simp)
      · rename_i hpos
        have hpa := @Part.payload _ _ [] hfo rfl (Nat.pos_of_ne_zero hpos)
        refine h.take (.aligned ht hpa ?_) h.returned
        simpa using hcon'
    · rename_i hfo
      rw [length_append, hlen] at hfo
      refine h.take (.aligned ht (.header ?_) hcon') h.returned
      rw [length_append, hlen]
      omega
  | @payload frameLen lenBuf got hfo hfr hgot =>
    simp only [Reading.wants] at hn
    rw [append_assoc] at hst hcon'
    unfold Stream.receive
    simp only
    split
    · rename_i hfu
      obtain ⟨hmem, hfr'⟩ := hne lenBuf _ hst hfo (hfu.trans hfr.symm)
      refine h.take (.aligned ht .idle ?_) hmem
      rw [frames_append, frames_singleton, hfr', append_nil]
      exact hcon'
    · rename_i hmo
      rw [length_append, hlen] at hmo
      refine h.take (.aligned ht (.payload hfo hfr ?_) ?_) h.returned
      · rw [length_append, hlen]
        omega
      · exact hcon'

theorem StreamOK.readFails (h : StreamOK s) (hr : s.reading = some r) :
    StreamOK (s.readFails r) := by
  have hre := h.read
  rw [hr] at hre
  obtain ⟨ht, part, hpa, hcon⟩ := hre.part_of
  have hto : ReadOK s.history.returned s.history.consumed (s.history.readTorn || true) none :=
    .torn (by simp) rfl h.read.whole
  cases hpa with
  | @header dst _ hgot =>
    cases hem : decide (part ≠ []) with
    | true =>
      have heq : s.readFails (.header dst part) =
        s.readError .stream true := by simp only [Stream.readFails, hem]
      rw [heq]
      exact ⟨h.write, hto, h.fits, h.flow, h.returned⟩
    | false =>
      -- nothing was taken
      have hnil : part = [] := by simpa using hem
      have heq : s.readFails (.header dst part) =
        s.readError .stream false := by simp only [Stream.readFails, hem]
      rw [heq]
      refine ⟨h.write, .aligned (by simpa [Stream.readError] using ht) .idle ?_, h.fits, h.flow,
        h.returned⟩
      simpa [Stream.readError, hnil] using hcon
  | payload hfo hfr hgot => exact ⟨h.write, hto, h.fits, h.flow, h.returned⟩

theorem StreamOK.step (h : StreamOK s) (hok : s.intact action = true)
    (hst : s.step action = some s') : StreamOK s' := by
  unfold Stream.step at hst
  cases action with
  | writePacket pkt deadlineSet =>
    simp only [Stream.intact, Bool.and_eq_true, decide_eq_true_eq] at hok
    simp only at hst
    split_ifs at hst with hw
    cases hst
    exact h.writePacket (by simpa using hw) hok.1 hok.2
  | transfer n =>
    simp only [bind_eq_bind, bind_eq_some_iff] at hst
    obtain ⟨w, hw, hst⟩ := hst
    split_ifs at hst
    cases hst
    exact h.transfer hw
  | writeFails =>
    simp only [bind_eq_bind, bind_eq_some_iff] at hst
    obtain ⟨w, hw, hst⟩ := hst
    cases hst
    exact h.writeFails hw
  | readPacket dst deadlineSet =>
    simp only [Stream.intact, Bool.and_eq_true, Bool.not_eq_true', decide_eq_true_eq] at hok
    simp only at hst
    split_ifs at hst with hr
    cases hst
    exact h.readPacket (by simpa using hr) hok.1 hok.2
  | receive n =>
    simp only [bind_eq_bind, bind_eq_some_iff] at hst
    obtain ⟨r, hr, hst⟩ := hst
    split_ifs at hst with hn
    simp only [Bool.and_eq_true, decide_eq_true_eq] at hn
    cases hst
    exact h.receive hr hn.1.2 hn.2
  | readFails =>
    simp only [bind_eq_bind, bind_eq_some_iff] at hst
    obtain ⟨r, hr, hst⟩ := hst
    cases hst
    exact h.readFails hr

theorem Stream.Initial.ok (h : s.Initial) : StreamOK s where
  write := .idle h.writing (by simp [h.history]) (by simp [h.history])
  read := by
    rw [h.reading]
    exact .aligned (by simp [h.history]) .idle (by simp [h.history])
  fits := by simp [h.history]
  flow := by simp [h.history, h.stream]
  returned := by simp [h.history]

theorem inProgress_eq : s.inProgress = (s.writing.map Writing.pkt).toList := by
  unfold Stream.inProgress
  split <;> simp_all [Writing.pkt]

/-- **Frame alignment.** In every run in which no call follows a call of its own side that stopped
inside a frame, the packets that `ReadPacket` has returned are the first ones of those whose
`WritePacket` returned nil or is in progress. -/
theorem frames_aligned
    (h : Transition.Reachable Stream.step Stream.Initial (fun s action => s.intact action = true) s) :
    s.history.returned <+: s.history.completed ++ s.inProgress := by
  have hok : StreamOK s := h.invariant (fun s hs => hs.ok) fun _ _ _ _ hs hok hstep => hs.step hok hstep
  have hreturned := hok.returned
  unfold begunBy at hreturned
  rw [inProgress_eq]
  cases hok.write with
  | idle hw ht hwritten => simpa [ht] using hreturned
  | writing hw ht hfits hrest hwritten => simpa [ht] using hreturned
  | torn hw ht hfits hrest hwritten =>
    -- a packet that stopped inside its frame is not returned
    simp only [hw, ht, map_none, toList_none, append_nil] at hreturned ⊢
    exact hok.returned_of_short hrest hreturned hwritten

/-! ### Runs -/

def sampleStream : Stream := { writeMax := defaultMaxFrameSize, readMax := defaultMaxFrameSize }

theorem sampleStream_run (ok : Stream → Action → Bool) (acts : List Action) (p : Stream → Bool)
    (h : (Transition.runFrom Stream.step (fun s a => ok s a = true) sampleStream acts).any p = true) :
    ∃ s, Transition.Reachable Stream.step Stream.Initial (fun s a => ok s a = true) s ∧ p s = true :=
  Transition.Reachable.exists_of_run ⟨rfl, rfl, rfl, rfl⟩ acts p h

/-- A packet of five bytes that look like a frame. -/
def nestedPacket : Bytes := [0, 0, 0, 1, 66]

/-- A packet is written, its reading interrupted by a deadline before the first byte, and read in
pieces. -/
def pieceRun : List Action :=
  [.readPacket 100 true, .readFails, .writePacket nestedPacket true, .transfer 3,
    .readPacket 100 true, .receive 2,
    .transfer 1, .receive 2, .transfer 2, .receive 1, .transfer 3, .receive 4]

theorem piece_sample : ∃ s : Stream,
    Transition.Reachable Stream.step Stream.Initial (fun s action => s.intact action = true) s ∧
    s.history.returned = [nestedPacket] ∧ s.history.returned <+: s.history.completed ++
      s.inProgress := by
  obtain ⟨s, hs, hp⟩ := sampleStream_run Stream.intact pieceRun (fun s => s.history.returned =
    [nestedPacket]) (by decide)
  exact ⟨s, hs, of_decide_eq_true hp, frames_aligned hs⟩

/-- The destination of the first `ReadPacket` is too short for the packet. -/
def shortRun : List Action :=
  [.writePacket nestedPacket true, .transfer 4, .transfer 5, .readPacket 1 true, .receive 4,
    .readPacket 100 true, .receive 4, .receive 1]

/-- A packet is returned that was never written. -/
theorem packet_invented :
    ∃ s : Stream, Transition.Reachable Stream.step Stream.Initial (fun _ _ => True) s ∧
    s.history.returned = [[66]] ∧ s.history.completed = [nestedPacket] ∧ s.inProgress = [] := by
  obtain ⟨s, hs, hp⟩ := sampleStream_run (fun _ _ => true) shortRun
    (fun s => s.history.returned = [[66]] ∧ s.history.completed = [nestedPacket] ∧
      s.inProgress = []) (by decide)
  exact ⟨s, hs.mono fun _ _ _ => trivial, of_decide_eq_true hp⟩

end Winkyou.Framed
