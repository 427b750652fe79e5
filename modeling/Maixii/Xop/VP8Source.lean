import Maixii.Lib.Pieces
import Maixii.Xop.H264Source

/-!
# `Xop/VP8Source.lean`: a frame of VP8 is cut into packets

`xop/VP8Source.cpp`. A packet is a byte of its own, the payload descriptor, and as much of the frame
as fits. The loop goes on while something is left, and takes for the last packet one that is not
full; so **a frame that ends with a full packet has no last one** (`packetized_iff`).
-/

set_option autoImplicit false

namespace Maixii.Xop.VP8Source

open Maixii.Lib

/-- `RTP_VPX_HEAD_SIZE`. -/
def rtpVpxHeadSize : Nat := 1

theorem packet_size_ge (payload : Bytes) :
    rtpTcpHeadSize + rtpHeaderSize ≤ payload.length + rtpTcpHeadSize + rtpHeaderSize := by
  omega

/-- A packet of the frame. -/
def packet (timestamp : UInt32) (type : UInt8) (last : Fin 2) (payload : Bytes)
    (h : payload.length ≤ rtpVpxHeadSize + maxRtpPayloadSize) : SourcePacket where
  pkt :=
    { size := payload.length + rtpTcpHeadSize + rtpHeaderSize
      timestamp := timestamp
      type := type
      last := last
      size_ge := packet_size_ge payload
      size_le := by unfold rtpVpxHeadSize maxRtpPayloadSize at h
                    unfold rtpTcpHeadSize rtpHeaderSize packetCapacity; omega }
  payload := payload
  size_eq := rfl

theorem fits_all (descriptor : UInt8) {buf : Bytes} (h : buf.length < maxRtpPayloadSize) :
    (descriptor :: buf).length ≤ rtpVpxHeadSize + maxRtpPayloadSize := by
  unfold rtpVpxHeadSize
  simp only [List.length_cons]
  omega

theorem fits_take (descriptor : UInt8) (buf : Bytes) :
    (descriptor :: buf.take maxRtpPayloadSize).length ≤ rtpVpxHeadSize + maxRtpPayloadSize := by
  unfold rtpVpxHeadSize
  simp only [List.length_cons, List.length_take]
  omega

/-- The loop, with `vp8_payload_descriptor` and what is left of the frame. -/
def fragments (timestamp : UInt32) (type : UInt8) : Nat → UInt8 → Bytes → List SourcePacket
  | 0, _, _ => []
  | n + 1, descriptor, buf =>
      if buf.length > 0 then
        if h : buf.length < maxRtpPayloadSize then
          packet timestamp type 1 (descriptor :: buf)
              (fits_all descriptor h) ::
            fragments timestamp type n 0x00 (buf.drop buf.length)
        else
          packet timestamp type 0 (descriptor :: buf.take maxRtpPayloadSize)
              (fits_take descriptor buf) ::
            fragments timestamp type n 0x00 (buf.drop maxRtpPayloadSize)
      else []

/-- `HandleFrame`: the packets given to the callback, which never refuses one; `now` is
`GetTimestamp()`. -/
def handleFrame (now : UInt32) (frame : AVFrame) : List SourcePacket :=
  let timestamp := if frame.timestamp = 0 then now else frame.timestamp
  fragments timestamp frame.type (frame.buffer.length + 1) 0x10 frame.buffer

/-! ## The packets -/

/-- The S bit of the payload descriptor. -/
def IsStart (payload : Bytes) : Prop := ∃ b ∈ payload.head?, b &&& 0x10 ≠ 0

/-- What a receiver needs of the packets of a frame. -/
structure Packetized (frame : Bytes) (packets : List SourcePacket) : Prop where
  content : packets.flatMap (fun p => p.payload.drop rtpVpxHeadSize) = frame
  start : OnlyFirst (fun p : SourcePacket => IsStart p.payload) packets
  last : OnlyFinal (fun p : SourcePacket => p.pkt.last = 1) packets

/-- The payload of a piece, and the flag: only a piece that is not full is taken for the last. -/
def payloadOf (q : Piece UInt8) : Bytes := (if q.first then 0x10 else 0x00) :: q.body

def lastOf (q : Piece UInt8) : Fin 2 :=
  if q.last = true ∧ q.body.length < maxRtpPayloadSize then 1 else 0

theorem fragments_nil (timestamp : UInt32) (type : UInt8) (n : Nat) (descriptor : UInt8) :
    fragments timestamp type n descriptor [] = [] := by
  cases n with
  | zero => rfl
  | succ n => rfl

/-- The loop cuts the frame into pieces of 1420 bytes. -/
theorem fragments_pieces (timestamp : UInt32) (type : UInt8) (n : Nat) (first : Bool) {buf : Bytes}
    (hne : buf ≠ []) :
    (fragments timestamp type n (if first then 0x10 else 0x00) buf).map
        (fun p => (p.payload, p.pkt.last)) =
      (pieces maxRtpPayloadSize n first buf).map fun q => (payloadOf q, lastOf q) := by
  induction n generalizing first buf with
  | zero => rfl
  | succ n ih =>
    have hpos : 0 < buf.length := List.length_pos_iff.mpr hne
    rw [fragments, if_pos hpos]
    by_cases hlong : maxRtpPayloadSize < buf.length
    · have hdrop : buf.drop maxRtpPayloadSize ≠ [] := by
        apply List.ne_nil_of_length_pos
        rw [List.length_drop]
        omega
      rw [dif_neg (by omega), pieces_long first hlong]
      exact congrArg₂ List.cons rfl (ih false hdrop)
    · rw [pieces_short first (by omega)]
      split
      · -- the last packet is not full
        rename_i hless
        have hflag : lastOf ⟨first, true, buf⟩ = 1 := if_pos ⟨rfl, hless⟩
        rw [List.drop_length, fragments_nil, List.map_singleton, List.map_singleton, hflag]
        rfl
      · -- the last packet is full, and nothing is left for another
        rename_i hfull
        have hlen : buf.length = maxRtpPayloadSize := by omega
        have hflag : lastOf ⟨first, true, buf⟩ = 0 := if_neg fun h => hfull h.2
        simp only [← hlen, List.drop_length, List.take_length]
        rw [fragments_nil, List.map_singleton, List.map_singleton, hflag]
        rfl

theorem isStart_payloadOf (q : Piece UInt8) : IsStart (payloadOf q) ↔ q.first = true := by
  cases hq : q.first with
  | true => exact ⟨fun _ => rfl, fun _ => ⟨0x10, by simp [payloadOf, hq], by decide⟩⟩
  | false =>
    refine ⟨?_, fun h => absurd h Bool.false_ne_true⟩
    rintro ⟨b, hb, hne⟩
    rw [payloadOf, hq] at hb
    obtain rfl := Option.some.inj hb
    exact absurd (by decide) hne

theorem lastOf_eq_one_iff (q : Piece UInt8) :
    lastOf q = 1 ↔ q.last = true ∧ q.body.length < maxRtpPayloadSize := by
  unfold lastOf
  split
  · rename_i h
    exact ⟨fun _ => h, fun _ => rfl⟩
  · rename_i h
    exact ⟨fun h' => absurd h' (by decide), fun h' => absurd h' h⟩

section

variable (now : UInt32) {frame : AVFrame}

theorem handleFrame_pieces (hne : frame.buffer ≠ []) :
    (handleFrame now frame).map (fun p => (p.payload, p.pkt.last)) =
      (pieces maxRtpPayloadSize (frame.buffer.length + 1) true frame.buffer).map
        fun q => (payloadOf q, lastOf q) :=
  fragments_pieces _ frame.type _ true hne

theorem payloads_handleFrame (hne : frame.buffer ≠ []) :
    (handleFrame now frame).map SourcePacket.payload =
      (pieces maxRtpPayloadSize (frame.buffer.length + 1) true frame.buffer).map payloadOf := by
  have hfst := congrArg (List.map Prod.fst) (handleFrame_pieces now hne)
  rwa [List.map_map, List.map_map] at hfst

theorem lasts_handleFrame (hne : frame.buffer ≠ []) :
    (handleFrame now frame).map (fun p => p.pkt.last) =
      (pieces maxRtpPayloadSize (frame.buffer.length + 1) true frame.buffer).map lastOf := by
  have hsnd := congrArg (List.map Prod.snd) (handleFrame_pieces now hne)
  rwa [List.map_map, List.map_map] at hsnd

/-- The packets hold the frame, whatever its size. -/
theorem content_handleFrame (hne : frame.buffer ≠ []) :
    (handleFrame now frame).flatMap (fun p => p.payload.drop rtpVpxHeadSize) = frame.buffer := by
  rw [← List.flatMap_map, payloads_handleFrame now hne, List.flatMap_map]
  exact flatMap_pieces true (by decide) (Nat.lt_succ_self _)

theorem start_handleFrame (hne : frame.buffer ≠ []) :
    OnlyFirst (fun p : SourcePacket => IsStart p.payload) (handleFrame now frame) := by
  apply onlyFirst_map.mp
  rw [payloads_handleFrame now hne, onlyFirst_map]
  simp only [isStart_payloadOf]
  exact onlyFirst_pieces (Nat.succ_pos _)

/-- There is a last packet, and it is the final one, unless the final one is full. -/
theorem last_handleFrame_iff (hne : frame.buffer ≠ []) :
    OnlyFinal (fun p : SourcePacket => p.pkt.last = 1) (handleFrame now frame) ↔
      ¬ maxRtpPayloadSize ∣ frame.buffer.length := by
  rw [← onlyFinal_map (q := fun last : Fin 2 => last = 1), lasts_handleFrame now hne,
    onlyFinal_map]
  have hlimit : 0 < maxRtpPayloadSize := by decide
  have hn : frame.buffer.length < frame.buffer.length + 1 := Nat.lt_succ_self _
  constructor
  · rintro ⟨rest, q, heq, hq, -⟩ hdvd
    obtain ⟨hlast, hless⟩ := (lastOf_eq_one_iff q).mp hq
    have hmem : q ∈ pieces maxRtpPayloadSize (frame.buffer.length + 1) true frame.buffer := by
      rw [heq]
      exact List.mem_append_right _ (List.mem_singleton_self q)
    have hfull := (full_final_iff hlimit hn hne hmem hlast).mpr hdvd
    omega
  · intro hdvd
    refine (onlyFinal_pieces true hlimit hn).congr ?_
    intro q hq
    rw [lastOf_eq_one_iff]
    refine ⟨fun hlast => ⟨hlast, ?_⟩, And.left⟩
    have hle := (length_of_mem_pieces hlimit hn hne hq).2
    have hfull := mt (full_final_iff hlimit hn hne hq hlast).mp hdvd
    omega

end

/-- **The packets of a frame are what a receiver needs, just when the final one is not full.** Only
a piece that does not fill its packet is taken for the last one, so a frame of full packets ends
without a mark. The bytes and the first mark are right for every frame; that it is an equivalence
says that nothing else can go wrong. -/
theorem packetized_iff (now : UInt32) (frame : AVFrame) (hne : frame.buffer ≠ []) :
    Packetized frame.buffer (handleFrame now frame) ↔ ¬ maxRtpPayloadSize ∣ frame.buffer.length := by
  rw [← last_handleFrame_iff now hne]
  exact ⟨fun h => h.last,
    fun h => ⟨content_handleFrame now hne, start_handleFrame now hne, h⟩⟩

/-- A frame of `n + 1` zero bytes. -/
def zeroFrame (n : Nat) (h : n + 2 < 2 ^ 32) : AVFrame where
  buffer := List.replicate (n + 1) 0
  type := 1
  timestamp := 0
  size_lt := by rwa [List.length_replicate]

/-- A frame with a short second packet. -/
theorem packetized_iff_two :
    Packetized (zeroFrame 1420 (by decide)).buffer (handleFrame 0 (zeroFrame 1420 (by decide))) ↔
      ¬ maxRtpPayloadSize ∣ (zeroFrame 1420 (by decide)).buffer.length :=
  packetized_iff 0 (zeroFrame 1420 (by decide)) (List.cons_ne_nil _ _)

/-- A frame of 1420 bytes has no last packet. -/
theorem not_packetized_full :
    ¬ ∀ (now : UInt32) (frame : AVFrame), frame.buffer ≠ [] →
      Packetized frame.buffer (handleFrame now frame) := by
  intro h
  have hne : (zeroFrame 1419 (by decide)).buffer ≠ [] := List.cons_ne_nil _ _
  have hlast := (h 0 (zeroFrame 1419 (by decide)) hne).last
  refine (last_handleFrame_iff 0 hne).mp hlast ?_
  rw [zeroFrame, List.length_replicate]
  exact Nat.dvd_refl _

end Maixii.Xop.VP8Source
