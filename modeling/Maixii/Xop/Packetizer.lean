import Maixii.Xop.H264Source

/-!
# `Xop/Packetizer.lean`: the bounds of the packets

`HandleFrame` of every source (`xop/H264Source.cpp`, `H265Source.cpp`, `VP8Source.cpp`,
`G711ASource.cpp`, `AACSource.cpp`) with the arithmetic it is written in: sizes are 32-bit words,
and a packet is what is written into its array, some bytes one by one and then one `memcpy` from
the frame. `Handled` keeps every size the code computes beside what it would be without wrapping.

`packets_bounded` says when all is in bounds. Two slips are left: the size of the fragment loops,
which wraps for the largest frame, and an AAC frame shorter than the ADTS header that is cut off.
-/

set_option autoImplicit false

namespace Maixii.Xop

open Maixii.Lib

/-- An `AVFrame` as `HandleFrame` sees it: a size, and bytes at every index it may look at. -/
structure RawFrame where
  buffer : Nat → UInt8
  size : UInt32
  type : UInt8
  timestamp : UInt32

/-- An `RtpPacket` as it is handed to the callback: `head` is what is written byte by byte behind
the 4+12 header bytes, followed by a `memcpy` of `count` bytes of the frame from `source` on. -/
structure Emitted where
  size : UInt32
  timestamp : UInt32
  type : UInt8
  last : UInt8
  head : Bytes
  source : Nat
  count : UInt32
  deriving DecidableEq

/-- What `HandleFrame` does with a frame. -/
structure Handled where
  emitted : List Emitted
  /-- Every size computed, and what it is without wrapping. -/
  computed : List (UInt32 × Int)
  ok : Bool
  deriving DecidableEq

/-- The sources, with the members `HandleFrame` reads. -/
inductive Packetizer
  | h264
  | h265
  | vp8
  | g711a
  | aac (hasAdts : Bool)
  deriving DecidableEq, Repr

/-- A packet and some sizes come before this. -/
def Handled.after (r : Handled) (ps : List Emitted) (xs : List (UInt32 × Int)) : Handled :=
  { r with emitted := ps ++ r.emitted, computed := xs ++ r.computed }

namespace Packetizer

def rtpPayloadMax : UInt32 := 1420

def auSize : UInt32 := 4

def adtsSize : UInt32 := 7

section

/-! The callback answers the packets one after the other; `now` is `GetTimestamp()`. -/

variable (now : UInt32) (answer : Nat → Bool) (frame : RawFrame)

/-- The timestamp of a video frame. -/
def stamp : UInt32 := if frame.timestamp = 0 then now else frame.timestamp

/-- The packet of a frame that fits. -/
def whole (timestamp : UInt32) : Emitted where
  size := frame.size + 4 + 12
  timestamp := timestamp
  type := frame.type
  last := 1
  head := []
  source := 0
  count := frame.size

/-- The size computed for it. -/
def wholeSize : UInt32 × Int := (frame.size + 4 + 12, frame.size.toNat + 4 + 12)

/-- The header bytes of a fragment but the last of them, which changes. -/
structure FuHeader where
  init : Bytes
  short : init.length ≤ 2

def FuHeader.length (fu : FuHeader) : UInt32 := UInt32.ofNat (fu.init.length + 1)

theorem FuHeader.toNat_length (fu : FuHeader) : fu.length.toNat = fu.init.length + 1 := by
  have hs := fu.short
  rw [FuHeader.length, UInt32.toNat_ofNat_of_lt']
  exact Nat.lt_of_le_of_lt (Nat.succ_le_succ hs) (by decide)

/-- What is left gets smaller, as long as the loop's own sum does not wrap; if it does, the loop
ends. -/
theorem lt_of_fragment {size n : UInt32} (hn : n.toNat ≤ 3) (h : rtpPayloadMax < size + n) :
    (size - (rtpPayloadMax - n)).toNat = size.toNat - (1420 - n.toNat) ∧
      1420 < size.toNat + n.toNat ∧ size.toNat + n.toNat < 2 ^ 32 := by
  have hs := size.toNat_lt
  have hmax : rtpPayloadMax.toNat = 1420 := rfl
  rw [UInt32.lt_iff_toNat_lt, UInt32.toNat_add, hmax] at h
  have hcount : (rtpPayloadMax - n).toNat = 1420 - n.toNat := by
    rw [UInt32.toNat_sub, hmax]
    omega
  rw [UInt32.toNat_sub, hcount]
  omega

/-- A fragment that is not the last: it is filled up. -/
def fragment (fu : FuHeader) (b : UInt8) (source : Nat) : Emitted where
  size := 4 + 12 + rtpPayloadMax
  timestamp := stamp now frame
  type := frame.type
  last := 0
  head := fu.init ++ [b]
  source := source
  count := rtpPayloadMax - fu.length

/-- The last fragment, with what is left. -/
def lastFragment (fu : FuHeader) (b : UInt8) (source : Nat) (size : UInt32) : Emitted where
  size := 4 + 12 + fu.length + size
  timestamp := stamp now frame
  type := frame.type
  last := 1
  head := fu.init ++ [b ||| 0x40]
  source := source
  count := size

/-- The fragment loop of `H264Source` and `H265Source`, and the last fragment: `size` bytes are
left from `source` on, `b` is the last header byte. -/
def fragments (fu : FuHeader) (b : UInt8) (source : Nat) (size : UInt32) (sent : Nat) : Handled :=
  if _h : rtpPayloadMax < size + fu.length then
    if answer sent then
      (fragments fu (b &&& ~~~0x80) (source + (1420 - (fu.init.length + 1)))
        (size - (rtpPayloadMax - fu.length)) (sent + 1)).after [fragment now frame fu b source]
        [(size + fu.length, size.toNat + (fu.init.length + 1)),
          (size - (rtpPayloadMax - fu.length), size.toNat - (1420 - (fu.init.length + 1)))]
    else
      { emitted := [fragment now frame fu b source]
        computed := [(size + fu.length, size.toNat + (fu.init.length + 1))]
        ok := false }
  else
    { emitted := [lastFragment now frame fu b source size]
      computed :=
        [(size + fu.length, size.toNat + (fu.init.length + 1)),
          (4 + 12 + fu.length + size, 4 + 12 + (fu.init.length + 1) + size.toNat)]
      ok := answer sent }
termination_by size.toNat
decreasing_by
  have hs := fu.short
  have hn : fu.length.toNat ≤ 3 := by rw [fu.toNat_length]; omega
  obtain ⟨heq, hlow, -⟩ := lt_of_fragment hn _h
  rw [heq]
  omega

/-- `H264Source::HandleFrame`. -/
def handleFrameH264 : Handled :=
  if frame.size ≤ rtpPayloadMax then
    ⟨[whole frame (stamp now frame)], [wholeSize frame], answer 0⟩
  else
    (fragments now answer frame ⟨[(frame.buffer 0 &&& 0xE0) ||| 28], by simp⟩
      (0x80 ||| (frame.buffer 0 &&& 0x1f)) 1 (frame.size - 1) 0).after []
      [(frame.size - 1, frame.size.toNat - 1)]

/-- `H265Source::HandleFrame`. -/
def handleFrameH265 : Handled :=
  if frame.size ≤ rtpPayloadMax then
    ⟨[whole frame (stamp now frame)], [wholeSize frame], answer 0⟩
  else
    (fragments now answer frame
      ⟨[(frame.buffer 0 &&& 0x81) ||| ((49 : UInt8) <<< (1 : UInt8)), frame.buffer 1], by simp⟩
      (0x80 ||| ((frame.buffer 0 &&& 0x7E) >>> (1 : UInt8))) 2 (frame.size - 2) 0).after []
      [(frame.size - 2, frame.size.toNat - 2)]

/-- How much of the frame goes into a packet of `VP8Source`. -/
def payloadSize (size : UInt32) : UInt32 := if size < rtpPayloadMax then size else rtpPayloadMax

/-- A packet of `VP8Source`. -/
def payload (descriptor : UInt8) (source : Nat) (size : UInt32) : Emitted where
  size := 4 + 12 + 1 + payloadSize size
  timestamp := stamp now frame
  type := frame.type
  last := if size < rtpPayloadMax then 1 else 0
  head := [descriptor]
  source := source
  count := payloadSize size

theorem payloadSize_le (size : UInt32) :
    (payloadSize size).toNat ≤ 1420 ∧ (payloadSize size).toNat ≤ size.toNat ∧
      (0 < size.toNat → 0 < (payloadSize size).toNat) := by
  have hmax : rtpPayloadMax.toNat = 1420 := rfl
  unfold payloadSize
  split
  · rename_i h
    rw [UInt32.lt_iff_toNat_lt, hmax] at h
    omega
  · rename_i h
    rw [UInt32.lt_iff_toNat_lt, hmax] at h
    omega

theorem payloadSize_sub (size : UInt32) :
    (size - payloadSize size).toNat = size.toNat - (payloadSize size).toNat := by
  obtain ⟨-, hle, -⟩ := payloadSize_le size
  exact UInt32.toNat_sub_of_le _ _ (UInt32.le_iff_toNat_le.mpr hle)

/-- The loop of `VP8Source::HandleFrame`. -/
def payloads (descriptor : UInt8) (source : Nat) (size : UInt32) (sent : Nat) : Handled :=
  if _h : 0 < size then
    if answer sent then
      (payloads 0 (source + (payloadSize size).toNat) (size - payloadSize size) (sent + 1)).after
        [payload now frame descriptor source size]
        [(4 + 12 + 1 + payloadSize size, 4 + 12 + 1 + (payloadSize size).toNat),
          (size - payloadSize size, size.toNat - (payloadSize size).toNat)]
    else
      { emitted := [payload now frame descriptor source size]
        computed := [(4 + 12 + 1 + payloadSize size, 4 + 12 + 1 + (payloadSize size).toNat)]
        ok := false }
  else ⟨[], [], true⟩
termination_by size.toNat
decreasing_by
  obtain ⟨-, hle, hpos⟩ := payloadSize_le size
  rw [UInt32.lt_iff_toNat_lt] at _h
  have := hpos _h
  rw [payloadSize_sub]
  omega

/-- `VP8Source::HandleFrame`. -/
def handleFrameVP8 : Handled := payloads now answer frame 0x10 0 frame.size 0

/-- `G711ASource::HandleFrame`, which does not look at the callback's answer. -/
def handleFrameG711A : Handled :=
  if rtpPayloadMax < frame.size then ⟨[], [], false⟩
  else ⟨[whole frame frame.timestamp], [wholeSize frame], true⟩

/-- `AACSource::HandleFrame`, which does not either. -/
def handleFrameAAC (hasAdts : Bool) : Handled :=
  if rtpPayloadMax - auSize < frame.size then ⟨[], [], false⟩
  else
    let adts := if hasAdts then adtsSize else 0
    let size := frame.size - adts
    { emitted :=
        [{ size := size + 4 + 12 + auSize
           timestamp := frame.timestamp
           type := frame.type
           last := 1
           head := [0x00, 0x10, ((size &&& 0x1fe0) >>> 5).toUInt8, ((size &&& 0x1f) <<< 3).toUInt8]
           source := adts.toNat
           count := size }]
      computed :=
        [(size, frame.size.toNat - adts.toNat),
          (size + 4 + 12 + auSize, frame.size.toNat - adts.toNat + 4 + 12 + 4)]
      ok := true }

/-- `HandleFrame`. -/
def handleFrame : Packetizer → Handled
  | .h264 => handleFrameH264 now answer frame
  | .h265 => handleFrameH265 now answer frame
  | .vp8 => handleFrameVP8 now answer frame
  | .g711a => handleFrameG711A frame
  | .aac hasAdts => handleFrameAAC frame hasAdts

end

/-! ## The bounds -/

/-- The 13-bit size field of an AU header. -/
def auField (head : Bytes) : Nat := (head.getD 2 0).toNat * 32 + (head.getD 3 0).toNat / 8

/-- **A packet in bounds.** -/
structure Bounded (source : Packetizer) (frame : RawFrame) (p : Emitted) : Prop where
  inside : ∀ k < p.count.toNat, p.source + k < frame.size.toNat
  room : rtpTcpHeadSize + rtpHeaderSize + p.head.length + p.count.toNat ≤ packetCapacity
  size : p.size.toNat = p.head.length + p.count.toNat + (rtpTcpHeadSize + rtpHeaderSize)
  au : ∀ hasAdts, source = .aac hasAdts → auField p.head = p.count.toNat

/-- All the packets are in bounds, and no size has wrapped. -/
structure InBounds (source : Packetizer) (frame : RawFrame) (r : Handled) : Prop where
  packets : ∀ p ∈ r.emitted, Bounded source frame p
  exact : ∀ x ∈ r.computed, (x.1.toNat : Int) = x.2

/-- The condition: the frame is not the largest one if it is to be cut into fragments, and not
shorter than the header that is cut off. -/
def Fits (frame : RawFrame) : Packetizer → Prop
  | .h264 | .h265 => frame.size.toNat ≠ 2 ^ 32 - 1
  | .vp8 | .g711a => True
  | .aac hasAdts => hasAdts = true → 7 ≤ frame.size.toNat

section

variable {now : UInt32} {answer : Nat → Bool} {frame : RawFrame} {source : Packetizer}

theorem rtpPayloadMax_toNat : rtpPayloadMax.toNat = 1420 := rfl

theorem InBounds.after {r : Handled} {ps : List Emitted} {xs : List (UInt32 × Int)}
    (h : InBounds source frame r) (hps : ∀ p ∈ ps, Bounded source frame p)
    (hxs : ∀ x ∈ xs, (x.1.toNat : Int) = x.2) : InBounds source frame (r.after ps xs) where
  packets p hp := (List.mem_append.mp hp).elim (hps p) (h.packets p)
  exact x hx := (List.mem_append.mp hx).elim (hxs x) (h.exact x)

theorem inBounds_one {p : Emitted} {xs : List (UInt32 × Int)} {ok : Bool}
    (hp : Bounded source frame p) (hxs : ∀ x ∈ xs, (x.1.toNat : Int) = x.2) :
    InBounds source frame ⟨[p], xs, ok⟩ where
  packets q hq := by
    rw [List.mem_singleton.mp hq]
    exact hp
  exact := hxs

theorem inBounds_nil {ok : Bool} : InBounds source frame ⟨[], [], ok⟩ where
  packets p hp := by simp at hp
  exact x hx := by simp at hx

/-- Outside AAC there is no AU field. -/
theorem Bounded.of_parts {p : Emitted} (hsource : ∀ hasAdts, source ≠ .aac hasAdts)
    (hin : p.source + p.count.toNat ≤ frame.size.toNat)
    (hroom : 16 + p.head.length + p.count.toNat ≤ 1600)
    (hsize : p.size.toNat = p.head.length + p.count.toNat + 16) : Bounded source frame p where
  inside _ hk := Nat.lt_of_lt_of_le (Nat.add_lt_add_left hk _) hin
  room := hroom
  size := hsize
  au hasAdts h := absurd h (hsource hasAdts)

/-- A frame that fits is sent whole, in bounds. -/
theorem bounded_whole (source : Packetizer) (hsource : ∀ hasAdts, source ≠ .aac hasAdts)
    (timestamp : UInt32) (h : frame.size.toNat ≤ 1420) :
    Bounded source frame (whole frame timestamp) ∧
      ∀ x ∈ [wholeSize frame], (x.1.toNat : Int) = x.2 := by
  have hsize : (frame.size + 4 + 12).toNat = frame.size.toNat + 16 := by
    rw [UInt32.toNat_add, UInt32.toNat_add]
    show ((frame.size.toNat + 4) % 2 ^ 32 + 12) % 2 ^ 32 = _
    omega
  constructor
  · refine Bounded.of_parts hsource ?_ ?_ ?_
    · exact Nat.le_of_eq (Nat.zero_add _)
    · show 16 + 0 + frame.size.toNat ≤ 1600
      omega
    · show (frame.size + 4 + 12).toNat = 0 + frame.size.toNat + 16
      omega
  · intro x hx
    rw [List.mem_singleton.mp hx]
    show ((frame.size + 4 + 12).toNat : Int) = frame.size.toNat + 4 + 12
    rw [hsize]
    omega

theorem FuHeader.toNat_count (fu : FuHeader) :
    (rtpPayloadMax - fu.length).toNat = 1420 - (fu.init.length + 1) := by
  have hshort := fu.short
  rw [UInt32.toNat_sub, rtpPayloadMax_toNat, fu.toNat_length]
  omega

theorem FuHeader.toNat_total (fu : FuHeader) {size : UInt32}
    (hfit : size.toNat + (fu.init.length + 1) ≤ 1420) :
    (4 + 12 + fu.length + size).toNat = 16 + (fu.init.length + 1) + size.toNat := by
  rw [UInt32.toNat_add, UInt32.toNat_add, fu.toNat_length]
  show ((16 + (fu.init.length + 1)) % 2 ^ 32 + size.toNat) % 2 ^ 32 = _
  omega

/-- A full fragment fits, where there is enough of the frame left. -/
theorem bounded_fragment (hsource : ∀ hasAdts, source ≠ .aac hasAdts) (fu : FuHeader) (b : UInt8)
    {src : Nat} (hin : src + (1420 - (fu.init.length + 1)) ≤ frame.size.toNat) :
    Bounded source frame (fragment now frame fu b src) := by
  have hshort := fu.short
  have hhead : (fragment now frame fu b src).head.length = fu.init.length + 1 := by
    rw [fragment, List.length_append, List.length_singleton]
  have hcount : (fragment now frame fu b src).count.toNat = 1420 - (fu.init.length + 1) :=
    fu.toNat_count
  refine Bounded.of_parts hsource ?_ ?_ ?_
  · rw [hcount]
    exact hin
  · rw [hhead, hcount]
    omega
  · rw [hhead, hcount]
    show 1436 = _
    omega

/-- The last fragment fits, if not more is left than the loop leaves. -/
theorem bounded_lastFragment (hsource : ∀ hasAdts, source ≠ .aac hasAdts) (fu : FuHeader)
    (b : UInt8) {src : Nat} {size : UInt32} (hin : src + size.toNat ≤ frame.size.toNat)
    (hfit : size.toNat + (fu.init.length + 1) ≤ 1420) :
    Bounded source frame (lastFragment now frame fu b src size) := by
  have htotal := fu.toNat_total hfit
  have hhead : (lastFragment now frame fu b src size).head.length = fu.init.length + 1 := by
    rw [lastFragment, List.length_append, List.length_singleton]
  have hcount : (lastFragment now frame fu b src size).count = size := rfl
  refine Bounded.of_parts hsource hin ?_ ?_
  · rw [hhead, hcount]
    omega
  · rw [hhead, hcount]
    show (4 + 12 + fu.length + size).toNat = _
    omega

/-- **The fragments are in bounds**, as long as the first sum does not wrap. -/
theorem inBounds_fragments (hsource : ∀ hasAdts, source ≠ .aac hasAdts) (fu : FuHeader)
    (b : UInt8) (src : Nat) (size : UInt32) (sent : Nat)
    (hin : src + size.toNat ≤ frame.size.toNat) (hfit : size.toNat + (fu.init.length + 1) < 2 ^ 32) :
    InBounds source frame (fragments now answer frame fu b src size sent) := by
  have hshort := fu.short
  have hlen := fu.toNat_length
  have hsum : (size + fu.length).toNat = size.toNat + (fu.init.length + 1) := by
    rw [UInt32.toNat_add, hlen, Nat.mod_eq_of_lt hfit]
  fun_induction fragments now answer frame fu b src size sent with
  | case1 b src size sent h hyes ih =>
    obtain ⟨heq, hlow, -⟩ := lt_of_fragment (by omega) h
    rw [hlen] at heq hlow
    refine InBounds.after (ih ?_ ?_ ?_) ?_ ?_
    · omega
    · omega
    · rw [UInt32.toNat_add, hlen, Nat.mod_eq_of_lt (by omega)]
    · intro p hp
      rw [List.mem_singleton.mp hp]
      exact bounded_fragment hsource fu b (by omega)
    · intro x hx
      simp only [List.mem_cons, List.not_mem_nil, or_false] at hx
      rcases hx with rfl | rfl
      · show ((size + fu.length).toNat : Int) = _
        rw [hsum]
        omega
      · show ((size - (rtpPayloadMax - fu.length)).toNat : Int) = _
        rw [heq]
        omega
  | case2 b src size sent h hno =>
    obtain ⟨-, hlow, -⟩ := lt_of_fragment (by omega) h
    rw [hlen] at hlow
    refine inBounds_one (bounded_fragment hsource fu b (by omega)) ?_
    intro x hx
    rw [List.mem_singleton.mp hx]
    show ((size + fu.length).toNat : Int) = _
    rw [hsum]
    omega
  | case3 b src size sent h =>
    rw [UInt32.lt_iff_toNat_lt, rtpPayloadMax_toNat, hsum] at h
    have hleft : size.toNat + (fu.init.length + 1) ≤ 1420 := by omega
    refine inBounds_one (bounded_lastFragment hsource fu b hin hleft) ?_
    intro x hx
    simp only [List.mem_cons, List.not_mem_nil, or_false] at hx
    rcases hx with rfl | rfl
    · show ((size + fu.length).toNat : Int) = _
      rw [hsum]
      omega
    · show ((4 + 12 + fu.length + size).toNat : Int) = _
      rw [fu.toNat_total hleft]
      omega

/-- If it wraps, the loop is not entered and everything left goes into one packet. -/
theorem not_inBounds_fragments (fu : FuHeader) (b : UInt8) (src : Nat) {size : UInt32} (sent : Nat)
    (hwrap : 2 ^ 32 ≤ size.toNat + (fu.init.length + 1)) :
    ¬ InBounds source frame (fragments now answer frame fu b src size sent) := by
  have hshort := fu.short
  have hend : ¬ rtpPayloadMax < size + fu.length := by
    have hs := size.toNat_lt
    rw [UInt32.lt_iff_toNat_lt, rtpPayloadMax_toNat, UInt32.toNat_add, fu.toNat_length]
    omega
  rw [fragments, dif_neg hend]
  intro h
  have hroom := (h.packets _ List.mem_cons_self).room
  change 16 + _ + size.toNat ≤ 1600 at hroom
  omega

theorem size_le_iff : frame.size ≤ rtpPayloadMax ↔ frame.size.toNat ≤ 1420 := by
  rw [UInt32.le_iff_toNat_le, rtpPayloadMax_toNat]

/-- **The fragmenting sources**, which cut off as many bytes as the fragments repeat: `skip` is the
number of these. -/
theorem inBounds_cut (skip : UInt32) (hsource : ∀ hasAdts, source ≠ .aac hasAdts) (fu : FuHeader)
    (b : UInt8) (hskip : skip.toNat = fu.init.length) (hpos : 1 ≤ fu.init.length)
    (hlong : 1420 < frame.size.toNat) :
    InBounds source frame ((fragments now answer frame fu b skip.toNat (frame.size - skip) 0).after
      [] [(frame.size - skip, frame.size.toNat - skip.toNat)]) ↔
    frame.size.toNat ≠ 2 ^ 32 - 1 := by
  have hshort := fu.short
  have hs := frame.size.toNat_lt
  have hsub : (frame.size - skip).toNat = frame.size.toNat - skip.toNat := by
    rw [UInt32.toNat_sub]
    omega
  constructor
  · intro h hmax
    have hall : InBounds source frame
        (fragments now answer frame fu b skip.toNat (frame.size - skip) 0) := ⟨h.packets, fun x hx =>
      h.exact x (List.mem_append_right _ hx)⟩
    exact not_inBounds_fragments fu b _ 0 (by omega) hall
  · intro hmax
    refine (inBounds_fragments hsource fu b _ _ 0 (by omega) (by omega)).after (by simp) ?_
    intro x hx
    rw [List.mem_singleton.mp hx]
    show ((frame.size - skip).toNat : Int) = _
    rw [hsub]
    omega

theorem inBounds_h264 : InBounds .h264 frame (handleFrameH264 now answer frame) ↔
    frame.size.toNat ≠ 2 ^ 32 - 1 := by
  unfold handleFrameH264
  split
  · rename_i h
    have hle := size_le_iff.mp h
    obtain ⟨hp, hx⟩ := bounded_whole .h264 (by simp) (stamp now frame) hle
    exact ⟨fun _ => by omega, fun _ => inBounds_one hp hx⟩
  · rename_i h
    rw [size_le_iff] at h
    exact inBounds_cut 1 (by simp) _ _ rfl (Nat.le_refl 1) (by omega)

theorem inBounds_h265 : InBounds .h265 frame (handleFrameH265 now answer frame) ↔
    frame.size.toNat ≠ 2 ^ 32 - 1 := by
  unfold handleFrameH265
  split
  · rename_i h
    have hle := size_le_iff.mp h
    obtain ⟨hp, hx⟩ := bounded_whole .h265 (by simp) (stamp now frame) hle
    exact ⟨fun _ => by omega, fun _ => inBounds_one hp hx⟩
  · rename_i h
    rw [size_le_iff] at h
    exact inBounds_cut 2 (by simp) _ _ rfl (Nat.le_succ 1) (by omega)

/-- A VP8 packet fits, whatever is left of the frame. -/
theorem bounded_payload (descriptor : UInt8) {src : Nat} {size : UInt32}
    (hin : src + size.toNat ≤ frame.size.toNat) :
    Bounded .vp8 frame (payload now frame descriptor src size) ∧
      (4 + 12 + 1 + payloadSize size).toNat = 17 + (payloadSize size).toNat := by
  obtain ⟨hmax, hle, -⟩ := payloadSize_le size
  have htotal : (4 + 12 + 1 + payloadSize size).toNat = 17 + (payloadSize size).toNat := by
    rw [UInt32.toNat_add]
    show (17 + (payloadSize size).toNat) % 2 ^ 32 = _
    omega
  refine ⟨Bounded.of_parts (by simp) ?_ ?_ ?_, htotal⟩
  · show src + (payloadSize size).toNat ≤ _
    omega
  · show 16 + 1 + (payloadSize size).toNat ≤ 1600
    omega
  · show (4 + 12 + 1 + payloadSize size).toNat = 1 + (payloadSize size).toNat + 16
    omega

theorem inBounds_payloads (descriptor : UInt8) (src : Nat) (size : UInt32) (sent : Nat)
    (hin : src + size.toNat ≤ frame.size.toNat) :
    InBounds .vp8 frame (payloads now answer frame descriptor src size sent) := by
  fun_induction payloads now answer frame descriptor src size sent with
  | case1 descriptor src size sent h hyes ih =>
    obtain ⟨-, hle, -⟩ := payloadSize_le size
    obtain ⟨hp, htotal⟩ : Bounded .vp8 frame (payload now frame descriptor src size) ∧ _ :=
      bounded_payload descriptor hin
    refine (ih ?_).after ?_ ?_
    · rw [payloadSize_sub]
      omega
    · intro p hmem
      rw [List.mem_singleton.mp hmem]
      exact hp
    · intro x hx
      simp only [List.mem_cons, List.not_mem_nil, or_false] at hx
      rcases hx with rfl | rfl
      · show ((4 + 12 + 1 + payloadSize size).toNat : Int) = _
        rw [htotal]
        omega
      · show ((size - payloadSize size).toNat : Int) = _
        rw [payloadSize_sub]
        omega
  | case2 descriptor src size sent h hno =>
    obtain ⟨hp, htotal⟩ : Bounded .vp8 frame (payload now frame descriptor src size) ∧ _ :=
      bounded_payload descriptor hin
    refine inBounds_one hp ?_
    intro x hx
    rw [List.mem_singleton.mp hx]
    show ((4 + 12 + 1 + payloadSize size).toNat : Int) = _
    rw [htotal]
    omega
  | case3 descriptor src size sent h => exact inBounds_nil

theorem inBounds_g711a : InBounds .g711a frame (handleFrameG711A frame) := by
  unfold handleFrameG711A
  split
  · exact inBounds_nil
  · rename_i h
    rw [UInt32.lt_iff_toNat_lt, rtpPayloadMax_toNat] at h
    have hle : frame.size.toNat ≤ 1420 := by omega
    obtain ⟨hp, hx⟩ := bounded_whole .g711a (by simp) frame.timestamp hle
    exact inBounds_one hp hx

/-- The two bytes of the AU header hold 13 bits. -/
theorem auField_eq {size : UInt32} (h : size.toNat < 2 ^ 13) :
    auField [0x00, 0x10, ((size &&& 0x1fe0) >>> 5).toUInt8, ((size &&& 0x1f) <<< 3).toUInt8] =
      size.toNat := by
  have hhigh : ((size &&& 0x1fe0) >>> 5).toUInt8.toNat = size.toNat / 32 := by
    have hshift : (size.toNat &&& 0x1fe0) >>> 5 = (size.toNat >>> 5) &&& (2 ^ 8 - 1) := by
      rw [Nat.shiftRight_and_distrib]
      rfl
    rw [UInt32.toNat_toUInt8, UInt32.toNat_shiftRight, UInt32.toNat_and]
    show (size.toNat &&& 0x1fe0) >>> 5 % 2 ^ 8 = _
    rw [hshift, Nat.and_two_pow_sub_one_eq_mod, Nat.shiftRight_eq_div_pow]
    omega
  have hlow : ((size &&& 0x1f) <<< 3).toUInt8.toNat = size.toNat % 32 * 8 := by
    rw [UInt32.toNat_toUInt8, UInt32.toNat_shiftLeft, UInt32.toNat_and]
    show (size.toNat &&& (2 ^ 5 - 1)) <<< 3 % 2 ^ 32 % 2 ^ 8 = _
    rw [Nat.and_two_pow_sub_one_eq_mod, Nat.shiftLeft_eq]
    omega
  show ((size &&& 0x1fe0) >>> 5).toUInt8.toNat * 32 + ((size &&& 0x1f) <<< 3).toUInt8.toNat / 8 = _
  rw [hhigh, hlow]
  omega

/-- **AAC**: what is left behind the header that is cut off is sent whole. -/
theorem inBounds_aac (hasAdts : Bool) : InBounds (.aac hasAdts) frame (handleFrameAAC frame hasAdts) ↔
    (hasAdts = true → 7 ≤ frame.size.toNat) := by
  have hadts : (if hasAdts then adtsSize else 0).toNat = if hasAdts then 7 else 0 := by
    cases hasAdts <;> rfl
  have hmax : (rtpPayloadMax - auSize).toNat = 1416 := rfl
  unfold handleFrameAAC
  split
  · rename_i h
    rw [UInt32.lt_iff_toNat_lt, hmax] at h
    exact ⟨fun _ _ => by omega, fun _ => inBounds_nil⟩
  · rename_i h
    rw [UInt32.lt_iff_toNat_lt, hmax] at h
    dsimp only
    generalize hcut : (if hasAdts then adtsSize else 0) = cut at hadts
    have hsub : (frame.size - cut).toNat = (2 ^ 32 - cut.toNat + frame.size.toNat) % 2 ^ 32 :=
      UInt32.toNat_sub _ _
    constructor
    · intro hb hyes
      rw [hyes, if_pos rfl] at hadts
      have hroom := (hb.packets _ List.mem_cons_self).room
      change 16 + 4 + (frame.size - cut).toNat ≤ 1600 at hroom
      omega
    · intro hyes
      have hle : cut.toNat ≤ frame.size.toNat ∧ cut.toNat ≤ 7 := by
        cases hasAdts with
        | true => exact ⟨by rw [hadts]; exact hyes rfl, by rw [hadts]; exact Nat.le_refl 7⟩
        | false => exact ⟨by rw [hadts]; exact Nat.zero_le _, by rw [hadts]; exact Nat.zero_le 7⟩
      have hsize : (frame.size - cut).toNat = frame.size.toNat - cut.toNat := by omega
      have htotal : (frame.size - cut + 4 + 12 + auSize).toNat =
          frame.size.toNat - cut.toNat + 20 := by
        rw [UInt32.toNat_add, UInt32.toNat_add, UInt32.toNat_add, hsize]
        show (((frame.size.toNat - cut.toNat + 4) % 2 ^ 32 + 12) % 2 ^ 32 + 4) % 2 ^ 32 = _
        omega
      refine inBounds_one ⟨?_, ?_, ?_, ?_⟩ ?_
      · intro k hk
        show cut.toNat + k < _
        change k < (frame.size - cut).toNat at hk
        omega
      · show 16 + 4 + (frame.size - cut).toNat ≤ 1600
        omega
      · show (frame.size - cut + 4 + 12 + auSize).toNat = 4 + (frame.size - cut).toNat + 16
        omega
      · intro _ _
        exact auField_eq (by omega)
      · intro x hx
        simp only [List.mem_cons, List.not_mem_nil, or_false] at hx
        rcases hx with rfl | rfl
        · show ((frame.size - cut).toNat : Int) = _
          rw [hsize]
          omega
        · show ((frame.size - cut + 4 + 12 + auSize).toNat : Int) = _
          rw [htotal]
          omega

/-- **The packets of every source are in bounds**, and no size wraps, if and only if the frame is
not the largest one of a source that cuts it, and not shorter than the header that is cut off. -/
theorem packets_bounded (source : Packetizer) (now : UInt32) (answer : Nat → Bool)
    (frame : RawFrame) :
    InBounds source frame (handleFrame now answer frame source) ↔ Fits frame source := by
  cases source with
  | h264 => exact inBounds_h264
  | h265 => exact inBounds_h265
  | vp8 => exact iff_of_true (inBounds_payloads _ _ _ _ (Nat.zero_add _).le) trivial
  | g711a => exact iff_of_true inBounds_g711a trivial
  | aac hasAdts => exact inBounds_aac hasAdts

/-- Three bytes for an AAC source that cuts off seven. -/
theorem packets_bounded_short : ¬ ∀ source now answer frame,
    InBounds source frame (handleFrame now answer frame source) := by
  intro hall
  have h := (hall (.aac true) 0 (fun _ => true) ⟨fun _ => 0, 3, 0x11, 0⟩).packets _
    List.mem_cons_self
  have hroom : 16 + 4 + 4294967292 ≤ 1600 := h.room
  exact absurd hroom (by decide)

end

/-! ## The packets of `H264Source.handleFrame`

The model of `Xop/H264Source.lean` cuts lists; a frame of it is one that `HandleFrame` sees, and the
packets carry the same bytes. -/

/-- What `HandleFrame` sees of a frame. -/
def rawFrame (frame : AVFrame) : RawFrame where
  buffer i := frame.buffer.getD i 0
  size := UInt32.ofNat frame.buffer.length
  type := frame.type
  timestamp := frame.timestamp

/-- The bytes a packet carries. -/
def carried (frame : RawFrame) (p : Emitted) : Bytes :=
  p.head ++ (List.range p.count.toNat).map fun k => frame.buffer (p.source + k)

theorem map_range_getD {l : Bytes} {src n : Nat} (h : src + n ≤ l.length) :
    ((List.range n).map fun k => l.getD (src + k) 0) = (l.drop src).take n := by
  refine List.ext_getElem ?_ ?_
  · rw [List.length_map, List.length_range, List.length_take, List.length_drop]
    omega
  · intro k hk _
    rw [List.length_map, List.length_range] at hk
    rw [List.getElem_map, List.getElem_range, List.getElem_take, List.getElem_drop,
      List.getD_eq_getElem?_getD, List.getElem?_eq_getElem (by omega), Option.getD_some]

theorem rawFrame_size (frame : AVFrame) : (rawFrame frame).size.toNat = frame.buffer.length := by
  have := frame.size_lt
  exact UInt32.toNat_ofNat_of_lt' (by show _ < 2 ^ 32; omega)

theorem carried_rawFrame {frame : AVFrame} {p : Emitted}
    (h : p.source + p.count.toNat ≤ frame.buffer.length) :
    carried (rawFrame frame) p = p.head ++ (frame.buffer.drop p.source).take p.count.toNat := by
  unfold carried
  congr 1
  exact map_range_getD h

/-- The fragment loops agree, by induction on what is left. -/
theorem fragments_carried (now : UInt32) (frame : AVFrame) (b : UInt8) (n : Nat) (f : UInt8)
    (src : Nat) (size : UInt32) (sent : Nat) (hsize : src + size.toNat = frame.buffer.length)
    (hn : size.toNat < n) (hfit : size.toNat + 2 < 2 ^ 32) :
    (fragments now (fun _ => true) (rawFrame frame) ⟨[b], Nat.le_succ 1⟩ f src size sent).emitted.map
        (carried (rawFrame frame)) =
      (H264Source.fragments (stamp now (rawFrame frame)) frame.type b n f
        (frame.buffer.drop src)).map SourcePacket.payload := by
  induction n generalizing f src size sent with
  | zero => omega
  | succ n ih =>
    have hlen : (FuHeader.mk [b] (by simp)).length = 2 := rfl
    have hdrop : (frame.buffer.drop src).length = size.toNat := by
      rw [List.length_drop]
      omega
    have hsum : (size + 2).toNat = size.toNat + 2 := by
      rw [UInt32.toNat_add]
      exact Nat.mod_eq_of_lt hfit
    rw [fragments, H264Source.fragments, hlen]
    by_cases hlong : rtpPayloadMax < size + 2
    · have hlow : 1420 < size.toNat + 2 := by
        rw [UInt32.lt_iff_toNat_lt, rtpPayloadMax_toNat, hsum] at hlong
        exact hlong
      have hsub : (size - (rtpPayloadMax - 2)).toNat = size.toNat - 1418 := by
        rw [UInt32.toNat_sub]
        show (2 ^ 32 - 1418 + size.toNat) % 2 ^ 32 = _
        omega
      rw [dif_pos hlong, dif_pos (by unfold maxRtpPayloadSize; omega), if_pos rfl]
      have hrest := ih (f &&& ~~~0x80) (src + 1418) (size - (rtpPayloadMax - 2)) (sent + 1)
        (by omega) (by omega) (by omega)
      have hfirst : carried (rawFrame frame)
          (fragment now (rawFrame frame) ⟨[b], by simp⟩ f src) =
          [b, f] ++ (frame.buffer.drop src).take (maxRtpPayloadSize - 2) := by
        have hcount := (FuHeader.mk [b] (by simp)).toNat_count
        rw [carried_rawFrame]
        · show [b, f] ++ (frame.buffer.drop src).take (rtpPayloadMax - FuHeader.length _).toNat = _
          rw [hcount]
          rfl
        · show src + (rtpPayloadMax - FuHeader.length _).toNat ≤ frame.buffer.length
          rw [hcount]
          show src + (1420 - (1 + 1)) ≤ _
          omega
      have hrest' : (frame.buffer.drop src).drop (maxRtpPayloadSize - 2) =
          frame.buffer.drop (src + 1418) := List.drop_drop
      rw [List.map_cons, hrest', ← hrest]
      exact congrArg (· :: _) hfirst
    · have hlow : ¬ 1420 < size.toNat + 2 := by
        rw [UInt32.lt_iff_toNat_lt, rtpPayloadMax_toNat, hsum] at hlong
        exact hlong
      rw [dif_neg hlong, dif_neg (by unfold maxRtpPayloadSize; omega)]
      have hin : (lastFragment now (rawFrame frame) ⟨[b], by simp⟩ f src size).source +
          (lastFragment now (rawFrame frame) ⟨[b], by simp⟩ f src size).count.toNat ≤
            frame.buffer.length := Nat.le_of_eq hsize
      have hcarried := carried_rawFrame hin
      show [carried (rawFrame frame) _] = [b :: (f ||| 0x40) :: frame.buffer.drop src]
      rw [hcarried]
      show [[b, f ||| 0x40] ++ (frame.buffer.drop src).take size.toNat] = _
      rw [List.take_of_length_le (Nat.le_of_eq hdrop)]
      rfl

/-- **The packets carry what `H264Source.handleFrame` says.** -/
theorem handleFrameH264_carried (now : UInt32) (frame : AVFrame) :
    (handleFrameH264 now (fun _ => true) (rawFrame frame)).emitted.map (carried (rawFrame frame)) =
      (H264Source.handleFrame now frame).map SourcePacket.payload := by
  have hsize := rawFrame_size frame
  have hlt := frame.size_lt
  unfold handleFrameH264
  by_cases hshort : (rawFrame frame).size ≤ rtpPayloadMax
  · have hle := size_le_iff.mp hshort
    rw [if_pos hshort, H264Source.handleFrame_short now frame (by rw [← hsize]; exact hle)]
    show [carried (rawFrame frame) (whole (rawFrame frame) _)] = _
    rw [carried_rawFrame (by show 0 + (rawFrame frame).size.toNat ≤ _; omega)]
    show [[] ++ (frame.buffer.drop 0).take (rawFrame frame).size.toNat] = _
    rw [hsize]
    simp
  · rw [if_neg hshort]
    rw [size_le_iff, hsize] at hshort
    unfold H264Source.handleFrame
    rw [dif_neg (by unfold maxRtpPayloadSize; exact hshort)]
    cases hb : frame.buffer with
    | nil =>
      rw [hb] at hshort
      exact absurd (Nat.zero_le _) hshort
    | cons b buf =>
      have hsub : ((rawFrame frame).size - 1).toNat = frame.buffer.length - 1 := by
        rw [UInt32.toNat_sub, hsize]
        show (2 ^ 32 - 1 + frame.buffer.length) % 2 ^ 32 = _
        omega
      have hfirst : (rawFrame frame).buffer 0 = b := by
        show frame.buffer.getD 0 0 = b
        rw [hb]
        rfl
      have hbuf : buf.length + 1 = frame.buffer.length := by rw [hb, List.length_cons]
      have hall := fragments_carried now frame ((b &&& 0xE0) ||| 28) (buf.length + 1)
        (0x80 ||| (b &&& 0x1f)) 1 ((rawFrame frame).size - 1) 0 (by omega) (by omega) (by omega)
      rw [hfirst]
      show ((fragments now (fun _ => true) (rawFrame frame) _ _ 1 _ 0).emitted).map _ = _
      rw [hall, hb]
      rfl

end Packetizer

end Maixii.Xop
