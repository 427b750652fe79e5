import Maixii.Lib.Numbered
import Maixii.Xop.RtpConnection

/-!
# `Xop/H264Source.lean`: a frame is cut into packets

`xop/H264Source.cpp`. A NAL unit that fits goes into one packet as it is; a longer one loses its
first byte, and what remains is cut into FU-A fragments that carry this byte in their two header
bytes, with a mark on the first and on the last. `reassemble` is what a receiver does with the
fragments of a unit, and **it gives back the unit** (`reassemble_handleFrame`).

To a receiver the packets of a unit are a block in the sense of `Lib/Numbered.lean`, as long as no
short unit looks like a fragment itself (`handleFrame_block`).
-/

set_option autoImplicit false

namespace Maixii.Xop

open Maixii.Lib

/-- `MAX_RTP_PAYLOAD_SIZE`. -/
def maxRtpPayloadSize : Nat := 1420

/-- `AVFrame`; the constructor allocates `size + 1` bytes. -/
structure AVFrame where
  buffer : Bytes
  type : UInt8
  timestamp : UInt32
  size_lt : buffer.length + 1 < 2 ^ 32

/-- An `RtpPacket` as a source makes it, with the bytes behind the headers. -/
structure SourcePacket where
  pkt : RtpPacket
  payload : Bytes
  size_eq : pkt.size = payload.length + rtpTcpHeadSize + rtpHeaderSize

/-- The packet's array as the source leaves it. -/
def SourcePacket.data (p : SourcePacket) : PacketData where
  bytes := List.replicate (rtpTcpHeadSize + rtpHeaderSize) 0 ++ p.payload ++
    List.replicate (packetCapacity - p.pkt.size) 0
  length_eq := by
    have hle := p.pkt.size_le
    have heq := p.size_eq
    simp only [List.length_append, List.length_replicate]
    omega

namespace H264Source

/-- A packet of the frame. -/
def packet (timestamp : UInt32) (type : UInt8) (last : Fin 2) (payload : Bytes)
    (h : payload.length ≤ maxRtpPayloadSize) : SourcePacket where
  pkt :=
    { size := payload.length + rtpTcpHeadSize + rtpHeaderSize
      timestamp := timestamp
      type := type
      last := last
      size_ge := by unfold rtpTcpHeadSize rtpHeaderSize; omega
      size_le := by unfold maxRtpPayloadSize at h; unfold rtpTcpHeadSize rtpHeaderSize packetCapacity
                    omega }
  payload := payload
  size_eq := rfl

/-- The loop, with what is left of the frame and the two bytes `FU_A`, and the last fragment. -/
def fragments (timestamp : UInt32) (type : UInt8) (fu0 : UInt8) : Nat → UInt8 → Bytes →
    List SourcePacket
  | 0, _, _ => []
  | n + 1, fu1, buf =>
      if h : buf.length + 2 > maxRtpPayloadSize then
        packet timestamp type 0 (fu0 :: fu1 :: buf.take (maxRtpPayloadSize - 2))
            (by unfold maxRtpPayloadSize; simp only [List.length_cons, List.length_take]; omega) ::
          fragments timestamp type fu0 n (fu1 &&& ~~~0x80) (buf.drop (maxRtpPayloadSize - 2))
      else
        [packet timestamp type 1 (fu0 :: (fu1 ||| 0x40) :: buf)
          (by simp only [List.length_cons]; omega)]

/-- `HandleFrame`: the packets given to the callback, which never refuses one; `now` is
`GetTimestamp()`. -/
def handleFrame (now : UInt32) (frame : AVFrame) : List SourcePacket :=
  let timestamp := if frame.timestamp = 0 then now else frame.timestamp
  if h : frame.buffer.length ≤ maxRtpPayloadSize then
    [packet timestamp frame.type 1 frame.buffer h]
  else match frame.buffer with
    | [] => []
    | b :: buf =>
        fragments timestamp frame.type ((b &&& 0xE0) ||| 28) (buf.length + 1)
          (0x80 ||| (b &&& 0x1f)) buf

end H264Source

/-! ## The receiver -/

/-- The packet is a fragment, with this bit of its second byte set. -/
def isFuA (bit : UInt8) : Bytes → Bool
  | b :: f :: _ => decide (b &&& 0x1f = 28) && decide (f &&& bit ≠ 0)
  | _ => false

/-- The S and the E bit. -/
def isFuStart : Bytes → Bool := isFuA 0x80

def isFuEnd : Bytes → Bool := isFuA 0x40

/-- The unit that fragments are put together to. -/
def reassemble (payloads : List Bytes) : Bytes :=
  match payloads with
  | (b :: f :: _) :: _ =>
      ((b &&& 0xE0) ||| (f &&& 0x1f)) :: payloads.flatMap fun p => p.drop 2
  | _ => []

namespace H264Source

/-! ## The fragments -/

/-- A statement about a byte that holds of all 256. -/
theorem forall_byte {p : UInt8 → Prop} (h : ∀ n : Fin 256, p (UInt8.ofFin n)) (b : UInt8) : p b :=
  h b.toFin

theorem fu_indicator (b : UInt8) : ((b &&& 0xE0) ||| 28) &&& 0x1f = 28 := by
  refine forall_byte (p := fun b => ((b &&& 0xE0) ||| 28) &&& 0x1f = 28) ?_ b
  decide +kernel

/-- The header byte of the first fragment, of the others, and of the last. -/
theorem fu_header (b : UInt8) :
    (0x80 ||| (b &&& 0x1f)) &&& 0x80 ≠ 0 ∧ (0x80 ||| (b &&& 0x1f)) &&& 0x40 = 0 ∧
      (0x80 ||| (b &&& 0x1f)) &&& ~~~0x80 = b &&& 0x1f ∧ (b &&& 0x1f) &&& 0x80 = 0 ∧
      (b &&& 0x1f) &&& 0x40 = 0 ∧ (b &&& 0x1f) &&& ~~~0x80 = b &&& 0x1f ∧
      ((b &&& 0x1f) ||| 0x40) &&& 0x80 = 0 ∧ ((b &&& 0x1f) ||| 0x40) &&& 0x40 ≠ 0 := by
  refine forall_byte (p := fun b : UInt8 =>
    (0x80 ||| (b &&& 0x1f)) &&& 0x80 ≠ 0 ∧ (0x80 ||| (b &&& 0x1f)) &&& 0x40 = 0 ∧
      (0x80 ||| (b &&& 0x1f)) &&& ~~~0x80 = b &&& 0x1f ∧ (b &&& 0x1f) &&& 0x80 = 0 ∧
      (b &&& 0x1f) &&& 0x40 = 0 ∧ (b &&& 0x1f) &&& ~~~0x80 = b &&& 0x1f ∧
      ((b &&& 0x1f) ||| 0x40) &&& 0x80 = 0 ∧ ((b &&& 0x1f) ||| 0x40) &&& 0x40 ≠ 0) ?_ b
  decide +kernel

/-- The byte the two header bytes were made from. -/
theorem fu_byte (b : UInt8) :
    (((b &&& 0xE0) ||| 28) &&& 0xE0) ||| ((0x80 ||| (b &&& 0x1f)) &&& 0x1f) = b := by
  refine forall_byte (p := fun b : UInt8 =>
    (((b &&& 0xE0) ||| 28) &&& 0xE0) ||| ((0x80 ||| (b &&& 0x1f)) &&& 0x1f) = b) ?_ b
  decide +kernel

/-- The fragments behind the first: none is marked but the last. -/
theorem fragments_rest (timestamp : UInt32) (type : UInt8) (b : UInt8) (n : Nat) (buf : Bytes)
    (hn : buf.length < n) :
    ∃ mid y, (fragments timestamp type ((b &&& 0xE0) ||| 28) n (b &&& 0x1f) buf).map
        SourcePacket.payload = mid ++ [y] ∧
      (∀ p ∈ mid, isFuStart p = false ∧ isFuEnd p = false) ∧
      (isFuStart y = false ∧ isFuEnd y = true) ∧
      (mid ++ [y]).flatMap (fun p => p.drop 2) = buf := by
  obtain ⟨-, -, -, hs, he, hkeep, hs', he'⟩ := fu_header b
  induction n generalizing buf with
  | zero => omega
  | succ n ih =>
    rw [fragments]
    split
    · rename_i hlong
      have hshort : (buf.drop (maxRtpPayloadSize - 2)).length < n := by
        rw [List.length_drop]
        unfold maxRtpPayloadSize at hlong ⊢
        omega
      obtain ⟨mid, y, heq, hmid, hy, hflat⟩ := ih _ hshort
      refine ⟨(((b &&& 0xE0) ||| 28) :: (b &&& 0x1f) :: buf.take (maxRtpPayloadSize - 2)) :: mid, y,
        ?_, ?_, hy, ?_⟩
      · rw [List.map_cons, hkeep, heq]
        rfl
      · intro p hp
        rcases List.mem_cons.mp hp with rfl | hp
        · simp [isFuStart, isFuEnd, isFuA, hs, he]
        · exact hmid p hp
      · rw [List.cons_append, List.flatMap_cons, hflat]
        exact List.take_append_drop _ buf
    · refine ⟨[], ((b &&& 0xE0) ||| 28) :: ((b &&& 0x1f) ||| 0x40) :: buf, rfl,
        List.forall_mem_nil _, ?_, ?_⟩
      · simp [isFuStart, isFuEnd, isFuA, fu_indicator, hs', he']
      · simp

/-- **A long unit**: the first fragment is marked as such, the last is, and no other. -/
theorem handleFrame_long (now : UInt32) (frame : AVFrame)
    (h : maxRtpPayloadSize < frame.buffer.length) :
    ∃ x mid y, (handleFrame now frame).map SourcePacket.payload = x :: mid ++ [y] ∧
      (isFuStart x = true ∧ isFuEnd x = false) ∧
      (∀ p ∈ mid, isFuStart p = false ∧ isFuEnd p = false) ∧
      (isFuStart y = false ∧ isFuEnd y = true) ∧ reassemble (x :: mid ++ [y]) = frame.buffer := by
  unfold handleFrame
  rw [dif_neg (by omega)]
  cases hb : frame.buffer with
  | nil =>
    rw [hb] at h
    exact absurd h (Nat.not_lt_zero _)
  | cons b buf =>
    obtain ⟨hs, he, hnext, -⟩ := fu_header b
    rw [hb, List.length_cons] at h
    dsimp only
    rw [fragments, dif_pos (by omega), hnext]
    have hshort : (buf.drop (maxRtpPayloadSize - 2)).length < buf.length := by
      rw [List.length_drop]
      unfold maxRtpPayloadSize at h ⊢
      omega
    obtain ⟨mid, y, heq, hmid, hy, hflat⟩ := fragments_rest
      (if frame.timestamp = 0 then now else frame.timestamp) frame.type b buf.length _ hshort
    refine ⟨((b &&& 0xE0) ||| 28) :: (0x80 ||| (b &&& 0x1f)) :: buf.take (maxRtpPayloadSize - 2),
      mid, y, ?_, ?_, hmid, hy, ?_⟩
    · rw [List.map_cons, heq]
      rfl
    · simp [isFuStart, isFuEnd, isFuA, fu_indicator, hs, he]
    · show _ :: List.flatMap _ (_ :: (mid ++ [y])) = _
      rw [List.flatMap_cons, hflat, fu_byte]
      congr 1
      exact List.take_append_drop _ buf

/-- **The fragments of a unit give it back.** -/
theorem reassemble_handleFrame (now : UInt32) (frame : AVFrame)
    (h : maxRtpPayloadSize < frame.buffer.length) :
    reassemble ((handleFrame now frame).map SourcePacket.payload) = frame.buffer := by
  obtain ⟨x, mid, y, heq, -, -, -, hre⟩ := handleFrame_long now frame h
  rw [heq, hre]

/-- A short unit is sent as it is. -/
theorem handleFrame_short (now : UInt32) (frame : AVFrame)
    (h : frame.buffer.length ≤ maxRtpPayloadSize) :
    (handleFrame now frame).map SourcePacket.payload = [frame.buffer] := by
  unfold handleFrame
  rw [dif_pos h]
  rfl

/-- A NAL unit of a type that a packet can have, too. -/
def LooksLikeFuA (buffer : Bytes) : Prop := ∃ b ∈ buffer.head?, b &&& 0x1f = 28

instance (buffer : Bytes) : Decidable (LooksLikeFuA buffer) :=
  inferInstanceAs (Decidable (∃ b ∈ buffer.head?, _))

theorem isFuA_short {bit : UInt8} {buffer : Bytes} (h : ¬ LooksLikeFuA buffer) :
    isFuA bit buffer = false := by
  match buffer, h with
  | [], _ => rfl
  | [b], _ => rfl
  | b :: f :: _, h =>
    have hb : ¬ b &&& 0x1f = 28 := fun hb => h ⟨b, rfl, hb⟩
    simp [isFuA, hb]

/-- To a receiver, the packets of a unit are a block. -/
theorem handleFrame_block (now : UInt32) (frame : AVFrame) (h : ¬ LooksLikeFuA frame.buffer) :
    Block (isFuStart · = true) (isFuEnd · = true)
      ((handleFrame now frame).map SourcePacket.payload) := by
  by_cases hlong : maxRtpPayloadSize < frame.buffer.length
  · obtain ⟨x, mid, y, heq, hx, hmid, hy, -⟩ := handleFrame_long now frame hlong
    rw [heq]
    refine .whole ⟨hx.1, by simp [hx.2]⟩ ?_ ⟨by simp [hy.1], hy.2⟩
    intro p hp
    simp [hmid p hp]
  · rw [handleFrame_short now frame (by omega)]
    refine .headless ?_
    intro p hp
    obtain rfl := List.mem_singleton.mp hp
    simp [isFuStart, isFuA_short h]

end H264Source

end Maixii.Xop
