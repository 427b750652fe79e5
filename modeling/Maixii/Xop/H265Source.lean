import Maixii.Xop.H264Source

/-!
# `Xop/H265Source.lean`: a frame of H.265 is cut into packets

`xop/H265Source.cpp`. A NAL unit that fits goes into one packet as it is; a longer one loses its two
header bytes, and what remains is cut into fragments with three header bytes, which carry the type of
the unit and the marks.
-/

set_option autoImplicit false

namespace Maixii.Xop.H265Source

open Maixii.Lib H264Source

theorem fits_take (fu0 fu1 fu2 : UInt8) (buf : Bytes) :
    (fu0 :: fu1 :: fu2 :: buf.take (maxRtpPayloadSize - 3)).length ≤ maxRtpPayloadSize := by
  unfold maxRtpPayloadSize
  simp only [List.length_cons, List.length_take]
  omega

theorem fits_rest (fu0 fu1 fu2 : UInt8) {buf : Bytes} (h : ¬ buf.length + 3 > maxRtpPayloadSize) :
    (fu0 :: fu1 :: (fu2 ||| 0x40) :: buf).length ≤ maxRtpPayloadSize := by
  simp only [List.length_cons]
  omega

/-- The loop, with what is left of the frame and the three bytes `FU`, and the last fragment. -/
def fragments (timestamp : UInt32) (type : UInt8) (fu0 fu1 : UInt8) : Nat → UInt8 → Bytes →
    List SourcePacket
  | 0, _, _ => []
  | n + 1, fu2, buf =>
      if h : buf.length + 3 > maxRtpPayloadSize then
        packet timestamp type 0 (fu0 :: fu1 :: fu2 :: buf.take (maxRtpPayloadSize - 3))
            (fits_take fu0 fu1 fu2 buf) ::
          fragments timestamp type fu0 fu1 n (fu2 &&& ~~~0x80) (buf.drop (maxRtpPayloadSize - 3))
      else
        [packet timestamp type 1 (fu0 :: fu1 :: (fu2 ||| 0x40) :: buf)
          (fits_rest fu0 fu1 fu2 h)]

/-- `HandleFrame`: the packets given to the callback, which never refuses one; `now` is
`GetTimestamp()`. The array `FU` is of `char`, whose sign is no matter to its bits. -/
def handleFrame (now : UInt32) (frame : AVFrame) : List SourcePacket :=
  let timestamp := if frame.timestamp = 0 then now else frame.timestamp
  if h : frame.buffer.length ≤ maxRtpPayloadSize then
    [packet timestamp frame.type 1 frame.buffer h]
  else match frame.buffer with
    | b0 :: b1 :: buf =>
        let nalUnitType := (b0 &&& 0x7E) >>> (1 : UInt8)
        fragments timestamp frame.type ((b0 &&& 0x81) ||| ((49 : UInt8) <<< (1 : UInt8))) b1
          (buf.length + 1) (0x80 ||| nalUnitType) buf
    | _ => []

end Maixii.Xop.H265Source
