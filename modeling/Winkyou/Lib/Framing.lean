import Mathlib.Tactic
import Mathlib.Data.List.Infix

/-!
# Length-prefixed frames on a byte stream

* `Header`: a header of a fixed width that encodes a length.
* `frames`: what a sequence of packets looks like on the stream.
* `next_of_framed`: a reader that has consumed whole frames and then reads one more header and as
  many symbols as it says has read the next packet.
-/

namespace Framing

open List

/-- A header of `width` symbols for the lengths below `bound`. -/
structure Header (β : Type*) where
  width : ℕ
  bound : ℕ
  encode : ℕ → List β
  decode : List β → ℕ
  width_pos : 0 < width
  length_encode : ∀ n, (encode n).length = width
  decode_encode : ∀ n, n < bound → decode (encode n) = n

variable {β : Type*} (H : Header β)

def frame (packet : List β) : List β := H.encode packet.length ++ packet

def frames (packets : List (List β)) : List β := packets.flatMap (frame H)

variable {H} {packets begun returned : List (List β)} {packet header payload rest : List β}

@[simp] theorem frames_nil : frames H [] = [] := rfl

@[simp] theorem frames_append :
    frames H (packets ++ begun) = frames H packets ++ frames H begun := by
  simp [frames]

@[simp] theorem frames_singleton : frames H [packet] = frame H packet := by simp [frames]

/-- A stream that starts with whole frames and goes on has a next packet. -/
theorem exists_next (hst : returned <+: begun) (h : frames H returned ++ rest <+: frames H begun)
    (hre : rest ≠ []) :
    ∃ packet more, begun = returned ++ packet :: more ∧ rest <+: frame H packet ++ frames H more := by
  obtain ⟨more, rfl⟩ := hst
  rw [frames_append, prefix_append_right_inj] at h
  cases more with
  | nil => exact absurd (prefix_nil.mp h) hre
  | cons packet more =>
    refine ⟨packet, more, rfl, ?_⟩
    rwa [← singleton_append, frames_append, frames_singleton] at h

/-- **The next packet.** -/
theorem next_of_framed (hbo : ∀ p ∈ begun, p.length < H.bound) (hst : returned <+: begun)
    (h : frames H returned ++ (header ++ payload) <+: frames H begun)
    (hhea : header.length = H.width) (hpay : payload.length = H.decode header) :
    returned ++ [payload] <+: begun ∧ frame H payload = header ++ payload := by
  have hne : header ++ payload ≠ [] := by
    have := H.width_pos
    intro heq
    simp [(append_eq_nil_iff.mp heq).1] at hhea
    omega
  obtain ⟨packet, more, rfl, hnext⟩ := exists_next hst h hne
  rw [frame, append_assoc] at hnext
  obtain ⟨tail, hta⟩ := hnext
  rw [append_assoc] at hta
  obtain ⟨rfl, hre⟩ := append_inj hta (hhea.trans (H.length_encode _).symm)
  rw [H.decode_encode _ (hbo packet (by simp))] at hpay
  obtain ⟨rfl, -⟩ := append_inj hre hpay
  exact ⟨⟨more, by simp⟩, rfl⟩

/-- Whole frames inside a part of a stream of frames leave the last packet out, if the part does. -/
theorem prefix_of_short {last : List β} (hst : returned <+: packets ++ [last])
    (h : (frames H returned).length < (frames H (packets ++ [last])).length) :
    returned <+: packets := by
  rcases prefix_concat_iff.mp hst with rfl | hst
  · simp at h
  · exact hst

end Framing
