import Maixii.Muxer.PesBuffer

/-!
# `Muxer/PesRoundTrip.lean`: what a demultiplexer gets out of the packets

The other end of `mpegts_write_pes`: a demultiplexer takes each packet apart on its own
(`tsPayload`), puts the payloads together and reads the result as one PES packet (`readPes`). For a
stream with times it **gets the payload and the time back** (`pes_round_trip`), from packets that
each are whole, and of which only the first begins a unit.
-/

set_option autoImplicit false

namespace Maixii.Muxer

open Maixii.Lib

/-! ## The demultiplexer -/

/-- The packet identifier. -/
def readPid (p : Bytes) : Nat := (p.getD 1 0).toNat % 32 * 256 + (p.getD 2 0).toNat

/-- `payload_unit_start_indicator`. -/
def unitStart (p : Bytes) : Bool := p.getD 1 0 &&& 0x40 != 0

/-- `adaptation_field_control`. -/
def adaptationControl (p : Bytes) : Nat := (p.getD 3 0).toNat / 16 % 4

/-- What follows the length of an adaptation field: nothing, or flags that announce nothing and
stuffing. -/
def stuffingField : Bytes → Bool
  | [] => true
  | flags :: stuffing => flags == 0 && stuffing.all (· == 0xff)

/-- The payload of a packet; `none` if there is none, or the adaptation field is malformed. -/
def tsPayload (p : Bytes) : Option Bytes :=
  if adaptationControl p = 1 then some (p.drop 4)
  else if adaptationControl p = 3 then
    let n := (p.getD 4 0).toNat
    if n ≤ 182 ∧ stuffingField ((p.drop 5).take n) = true then some (p.drop (5 + n)) else none
  else none

/-- The payloads of all packets. -/
def tsPayloads : List Bytes → Option Bytes
  | [] => some []
  | p :: ps =>
      match tsPayload p, tsPayloads ps with
      | some b, some bs => some (b ++ bs)
      | _, _ => none

/-- A PES packet with a time stamp, as it is read. -/
structure Pes where
  streamId : UInt8
  packetLength : Nat
  headerDataLength : Nat
  pts : Int
  stuffing : Bytes
  payload : Bytes
  deriving DecidableEq

/-- The five bytes of a time stamp, with their prefix and their marker bits. -/
def readPts : Bytes → Option Int
  | [a, b, c, d, e] =>
      if a.toNat / 16 = 2 ∧ a.toNat % 2 = 1 ∧ c.toNat % 2 = 1 ∧ e.toNat % 2 = 1 then
        some ((a.toNat / 2 % 8 * 2 ^ 30 + (b.toNat * 256 + c.toNat) / 2 * 2 ^ 15 +
          (d.toNat * 256 + e.toNat) / 2 : Nat))
      else none
  | _ => none

/-- A PES packet whose only optional field is the time stamp. -/
def readPes : Bytes → Option Pes
  | p₀ :: p₁ :: p₂ :: id :: l₁ :: l₂ :: marks :: flags :: n :: rest =>
      let data := rest.take n.toNat
      if [p₀, p₁, p₂] = [0x00, 0x00, 0x01] ∧ marks = 0x80 ∧ flags = 0x80 ∧
          n.toNat ≤ rest.length ∧ (data.drop 5).all (· == 0xff) = true then
        (readPts (data.take 5)).map fun pts =>
          ⟨id, l₁.toNat * 256 + l₂.toNat, n.toNat, pts, data.drop 5, rest.drop n.toNat⟩
      else none
  | _ => none

/-- **What is promised of the packets** of a payload. -/
structure Segmented (pid : Nat) (id : UInt8) (pts : Int) (payload : Bytes)
    (packets : List Bytes) : Prop where
  size : ∀ p ∈ packets, p.length = tsPacketSize
  sync : ∀ p ∈ packets, p[0]? = some 0x47
  pid : ∀ p ∈ packets, readPid p = pid
  start : ∀ i p, packets[i]? = some p → (unitStart p = true ↔ i = 0)
  /-- Every adaptation field is well formed. -/
  adaptation : ∀ p ∈ packets, (tsPayload p).isSome = true
  pes : ∃ bytes pes, tsPayloads packets = some bytes ∧ readPes bytes = some pes ∧
    pes.streamId = id ∧ (pes.packetLength = 0 ∨ pes.packetLength = bytes.length - 6) ∧
    pes.headerDataLength = 5 + pes.stuffing.length ∧ pes.pts = pts ∧ pes.payload = payload

/-! ## One packet -/

theorem header_unitStart (hi : Fin 32) (first : Bool) :
    ((UInt8.ofNat hi.val ||| (if first then 0x40 else 0)) &&& 0x40 != 0) = first := by
  revert hi first
  decide +kernel

theorem header_control (cc : Fin 16) (stuffed : Bool) :
    (0x10 ||| UInt8.ofNat cc.val ||| (if stuffed then 0x20 else 0)).toNat / 16 % 4 =
      if stuffed then 3 else 1 := by
  revert cc stuffed
  decide +kernel

/-- The field that was put in is the one that is read. -/
theorem tsPayload_adaptation {pid cc n : Nat} {first : Bool} {part : Bytes} (hcc : cc < 16)
    (hn : n ≤ 183) :
    tsPayload (header pid first cc (if 0 < n then 0x20 else 0) ++ adaptation n ++ part) =
      some part := by
  have hcontrol := header_control ⟨cc, hcc⟩ (decide (0 < n))
  simp only [decide_eq_true_eq] at hcontrol
  have hread : adaptationControl
      (header pid first cc (if 0 < n then 0x20 else 0) ++ adaptation n ++ part) =
      if 0 < n then 3 else 1 := hcontrol
  unfold tsPayload
  rw [hread]
  cases n with
  | zero =>
    rw [if_neg (Nat.lt_irrefl 0), if_pos rfl]
    rfl
  | succ n =>
    rw [if_pos (Nat.succ_pos n), if_neg (by decide), if_pos rfl]
    have hlength : (UInt8.ofNat n).toNat = n := by
      rw [UInt8.toNat_ofNat']
      omega
    cases n with
    | zero => rfl
    | succ n =>
      have hadaptation : adaptation (n + 1 + 1) =
          UInt8.ofNat (n + 1) :: 0x00 :: List.replicate n 0xff := rfl
      rw [hadaptation]
      have hfield : (0x00 :: List.replicate n (0xff : UInt8)).length = n + 1 := by
        rw [List.length_cons, List.length_replicate]
      have htake : (0x00 :: List.replicate n 0xff ++ part).take (n + 1) =
          0x00 :: List.replicate n 0xff := by
        rw [← hfield, List.take_left]
      have hdrop : (0x00 :: List.replicate n 0xff ++ part).drop (n + 1) = part := by
        rw [← hfield, List.drop_left]
      have hstuffing : stuffingField (0x00 :: List.replicate n 0xff) = true := by
        simp [stuffingField]
      have hget : (header pid first cc (if 0 < n + 1 + 1 then 0x20 else 0) ++
          UInt8.ofNat (n + 1) :: 0x00 :: List.replicate n 0xff ++ part).getD 4 0 =
          UInt8.ofNat (n + 1) := rfl
      have hbehind : (header pid first cc (if 0 < n + 1 + 1 then 0x20 else 0) ++
          UInt8.ofNat (n + 1) :: 0x00 :: List.replicate n 0xff ++ part).drop 5 =
          0x00 :: List.replicate n 0xff ++ part := rfl
      dsimp only
      rw [hget, hlength, ← List.drop_drop, hbehind, htake, hdrop, if_pos ⟨by omega, hstuffing⟩]

/-- What is read off one packet of a PES. -/
structure ReadsPes (pid : Nat) (first : Bool) (part p : Bytes) : Prop where
  size : p.length = tsPacketSize
  sync : p[0]? = some 0x47
  pid : readPid p = pid
  start : unitStart p = first
  payload : tsPayload p = some part

theorem readsPes_pesPacket {pid cc : Nat} (first : Bool) (head payload : Bytes)
    (hlen : head.length ≤ 16) (hpid : pid < 2 ^ 13) (hcc : cc < 16)
    (hsome : head ++ payload ≠ []) :
    ReadsPes pid first (head ++ payload.take (tsPacketSize - 4 - head.length))
      (pesPacket pid first cc head payload hlen).bytes where
  size := (pesPacket pid first cc head payload hlen).length_eq
  sync := rfl
  pid := (reads_pesPacket first head payload hlen hpid hcc).pid
  start := header_unitStart ⟨pid / 256, by omega⟩ first
  payload := by
    have hpos : 0 < (head ++ payload).length := List.length_pos_of_ne_nil hsome
    rw [List.length_append] at hpos
    show tsPayload (header pid first cc _ ++ adaptation _ ++ head ++ _) = _
    rw [List.append_assoc _ head]
    refine tsPayload_adaptation hcc ?_
    rw [List.length_take]
    unfold tsPacketSize
    omega

/-! ## All packets -/

/-- The packets of which none begins a unit. -/
structure Continued (pid : Nat) (payload : Bytes) (packets : List Bytes) : Prop where
  reads : ∀ p ∈ packets, ∃ part, ReadsPes pid false part p
  payloads : tsPayloads packets = some payload

theorem continued_pesRest {pid : Nat} (hpid : pid < 2 ^ 13) (n cc : Nat) (payload : Bytes)
    (hn : payload.length ≤ n) :
    Continued pid payload ((pesRest pid n cc payload).1.map TsPacket.bytes) := by
  induction n generalizing cc payload with
  | zero =>
    obtain rfl := List.eq_nil_of_length_eq_zero (Nat.le_zero.mp hn)
    exact ⟨by simp [pesRest], rfl⟩
  | succ n ih =>
    unfold pesRest
    split
    · rename_i hnil
      subst hnil
      exact ⟨by simp, rfl⟩
    · rename_i hne
      have hpos : 0 < payload.length := List.length_pos_of_ne_nil hne
      have hfirst := readsPes_pesPacket false [] payload (Nat.zero_le _) hpid
        (Nat.mod_lt (cc + 1) (by decide : 0 < 16)) hne
      have hrest := ih ((cc + 1) % 16) (payload.drop (tsPacketSize - 4)) (by
        rw [List.length_drop]
        unfold tsPacketSize
        omega)
      refine ⟨?_, ?_⟩
      · intro p hp
        rcases List.mem_cons.mp hp with rfl | hp
        · exact ⟨_, hfirst⟩
        · exact hrest.reads p hp
      · show tsPayloads (_ :: _) = _
        rw [tsPayloads, hfirst.payload, hrest.payloads]
        exact congrArg some (List.take_append_drop _ _)

/-- **The payloads of all packets** are the header of the PES and its payload. -/
theorem payloads_pesPackets {pid : Nat} (hpid : pid < 2 ^ 13) (codec : CodecID) (pts : Int)
    {payload : Bytes} (hne : payload ≠ []) :
    ∃ p ps part, (pesPackets pid codec pts payload).1.map TsPacket.bytes = p :: ps ∧
      ReadsPes pid true part p ∧ (∀ p ∈ ps, ∃ part, ReadsPes pid false part p) ∧
      tsPayloads (p :: ps) = some (pesHeader codec pts payload.length ++ payload) := by
  have hhead := length_pesHeader codec pts payload.length
  have hfirst := readsPes_pesPacket true (pesHeader codec pts payload.length) payload hhead hpid
    (by decide : 1 < 16)
    (List.append_ne_nil_of_right_ne_nil _ hne)
  have hrest := continued_pesRest hpid payload.length 1
    (payload.drop (tsPacketSize - 4 - (pesHeader codec pts payload.length).length)) (by
      rw [List.length_drop]
      exact Nat.sub_le _ _)
  refine ⟨_, _, _, ?_, hfirst, hrest.reads, ?_⟩
  · unfold pesPackets
    rw [if_neg hne]
    rfl
  · rw [tsPayloads, hfirst.payload, hrest.payloads]
    dsimp only
    rw [List.append_assoc, List.take_append_drop]

/-! ## The PES packet -/

/-- Bits of a number that are not negative. -/
theorem bits_natCast (x shift n : Nat) : bits x shift n = x / 2 ^ shift % 2 ^ n := by
  unfold bits
  have hcast : (x : Int) / 2 ^ shift % 2 ^ n = ((x / 2 ^ shift % 2 ^ n : Nat) : Int) := by
    push_cast
    rfl
  rw [hcast, Int.toNat_natCast]

theorem toNat_put16 {v : Nat} (h : v < 2 ^ 16) :
    (UInt8.ofNat (v / 256)).toNat * 256 + (UInt8.ofNat v).toNat = v := by
  rw [UInt8.toNat_ofNat', UInt8.toNat_ofNat']
  omega

/-- The three pieces of a time, without their marker bits. -/
theorem timestamp_sum {x : Nat} (hx : x < 2 ^ 33) :
    (2 * 16 + x / 2 ^ 30 % 2 ^ 3 * 2 + 1) / 2 % 8 * 2 ^ 30 +
      (x / 2 ^ 15 % 2 ^ 15 * 2 + 1) / 2 * 2 ^ 15 + (x / 2 ^ 0 % 2 ^ 15 * 2 + 1) / 2 = x := by
  omega

/-- **The time stamp** that was written is read. -/
theorem readPts_writePts {pts : Int} (hpos : 0 ≤ pts) (hlt : pts < 2 ^ 33) :
    readPts (writePts 2 pts) = some pts := by
  obtain ⟨x, rfl⟩ := Int.eq_ofNat_of_zero_le hpos
  have hx : x < 2 ^ 33 := by exact_mod_cast hlt
  have hhigh : (UInt8.ofNat (2 * 16 + x / 2 ^ 30 % 2 ^ 3 * 2 + 1)).toNat =
      2 * 16 + x / 2 ^ 30 % 2 ^ 3 * 2 + 1 := by
    rw [UInt8.toNat_ofNat']
    omega
  have hlow : ∀ v : Nat, (UInt8.ofNat v).toNat % 2 = v % 2 := by
    intro v
    rw [UInt8.toNat_ofNat']
    omega
  have hmiddle := toNat_put16 (v := x / 2 ^ 15 % 2 ^ 15 * 2 + 1) (by omega)
  have hlast := toNat_put16 (v := x / 2 ^ 0 % 2 ^ 15 * 2 + 1) (by omega)
  simp only [writePts, put16, bits_natCast, List.cons_append, List.nil_append, readPts]
  rw [hhigh, hmiddle, hlast, hlow, hlow, if_pos (by omega), timestamp_sum hx]

/-- **The header is read as it was written.** -/
theorem readPes_pesHeader {codec : CodecID} (hcodec : codec ≠ .ggad) {pts : Int} (hpos : 0 ≤ pts)
    (hlt : pts < 2 ^ 33) (payload : Bytes) :
    readPes (pesHeader codec pts payload.length ++ payload) =
      some ⟨streamId codec, if 0xffff < payload.length + 7 + 3 then 0 else payload.length + 7 + 3,
        7, pts, [0xFF, 0xFF], payload⟩ := by
  have hpts : pts ≠ -1 := by omega
  have hlen : (writePts 2 pts).length = 5 := rfl
  have hheader : pesHeader codec pts payload.length ++ payload =
      0x00 :: 0x00 :: 0x01 :: streamId codec ::
        UInt8.ofNat ((if 0xffff < payload.length + 7 + 3 then 0 else payload.length + 7 + 3) / 256) ::
        UInt8.ofNat (if 0xffff < payload.length + 7 + 3 then 0 else payload.length + 7 + 3) ::
        0x80 :: 0x80 :: 7 :: (writePts 2 pts ++ ([0xFF, 0xFF] ++ payload)) := by
    unfold pesHeader
    simp only [if_neg hcodec, if_neg hpts]
    rfl
  have hfield : (writePts 2 pts ++ ([0xFF, 0xFF] ++ payload)).take 7 =
      writePts 2 pts ++ [0xFF, 0xFF] := by
    rw [← List.append_assoc]
    exact List.take_left' rfl
  have hrest : (writePts 2 pts ++ ([0xFF, 0xFF] ++ payload)).drop 7 = payload := by
    rw [← List.append_assoc]
    exact List.drop_left' rfl
  have hlength := toNat_put16
    (v := if 0xffff < payload.length + 7 + 3 then 0 else payload.length + 7 + 3) (by
      split <;> omega)
  have hseven : (7 : UInt8).toNat = 7 := rfl
  rw [hheader, readPes]
  rw [hseven, hfield, hrest, List.take_left' hlen, List.drop_left' hlen,
    readPts_writePts hpos hlt, hlength, if_pos ⟨rfl, rfl, rfl, by simp [hlen]; omega, rfl⟩]
  rfl

/-- The identifiers of the streams fit into a packet. -/
theorem pid_makeStreams {para : AvPara} {st : AVStream} (h : st ∈ Mpeg2tsMuxer.makeStreams para) :
    st.pid < 2 ^ 13 := by
  obtain ⟨video, audio, geo⟩ := para
  unfold Mpeg2tsMuxer.makeStreams at h
  simp only [List.mem_append, Option.mem_toList, Option.map_eq_some_iff] at h
  rcases h with (⟨v, -, rfl⟩ | ⟨a, -, rfl⟩) | h
  · exact (by decide : 0x1011 < 2 ^ 13)
  · exact (by decide : 0x1100 < 2 ^ 13)
  · split at h
    · obtain rfl := List.mem_singleton.mp h
      decide
    · simp at h

/-- **The payload and the time come back** from the packets that the loop makes for a stream of
video or audio, whatever was in its array. The loop fills one array of 188 bytes for packet after
packet and moves the payload up to make room for stuffing, so bytes of an earlier packet may stay
behind; that the array's first content is arbitrary says that none of them gets out. -/
theorem pes_round_trip (para : AvPara) (st : AVStream) (hst : st ∈ Mpeg2tsMuxer.makeStreams para)
    (hcodec : st.codec ≠ .ggad) (payload : Bytes) (hne : 1 ≤ payload.length) (pts : Int)
    (hpos : 0 ≤ pts) (hlt : pts < 2 ^ 33) (buf : Bytes) (hbuf : buf.length = tsPacketSize) :
    Segmented st.pid (streamId st.codec) pts payload
      (pesLoop st.pid st.codec pts (payload.length + 1) buf true 0 payload).1 := by
  have hpayload : payload ≠ [] := List.ne_nil_of_length_pos hne
  have hpid := pid_makeStreams hst
  obtain ⟨p, ps, part, hpackets, hfirst, hrest, hpayloads⟩ :=
    payloads_pesPackets hpid st.codec pts hpayload
  have hpes := readPes_pesHeader hcodec hpos hlt payload
  rw [pesLoop_eq st.pid st.codec pts hbuf payload hpayload, hpackets]
  have hall : ∀ q ∈ p :: ps, ∃ first part, ReadsPes st.pid first part q := by
    intro q hq
    rcases List.mem_cons.mp hq with rfl | hq
    · exact ⟨true, part, hfirst⟩
    · obtain ⟨part, hq⟩ := hrest q hq
      exact ⟨false, part, hq⟩
  refine ⟨?_, ?_, ?_, ?_, ?_, ?_⟩
  · intro q hq
    obtain ⟨_, _, hq⟩ := hall q hq
    exact hq.size
  · intro q hq
    obtain ⟨_, _, hq⟩ := hall q hq
    exact hq.sync
  · intro q hq
    obtain ⟨_, _, hq⟩ := hall q hq
    exact hq.pid
  · intro i q hq
    cases i with
    | zero =>
      obtain rfl := Option.some.inj hq
      simp [hfirst.start]
    | succ i =>
      obtain ⟨_, hq⟩ := hrest q (List.mem_of_getElem? hq)
      simp [hq.start]
  · intro q hq
    obtain ⟨_, _, hq⟩ := hall q hq
    rw [hq.payload]
    rfl
  · refine ⟨_, _, hpayloads, hpes, rfl, ?_, rfl, rfl, rfl⟩
    have hlen : (pesHeader st.codec pts payload.length).length = 16 := by
      unfold pesHeader
      simp only [if_neg hcodec, if_neg (by omega : pts ≠ -1)]
      rfl
    dsimp only
    split
    · exact .inl rfl
    · refine .inr ?_
      rw [List.length_append, hlen]
      omega

/-- Two packets of an H.264 frame; the second has a field of one byte. -/
theorem pes_round_trip_two :
    Segmented 0x1011 0xe0 90000 (List.replicate 351 7)
      (pesLoop 0x1011 .h264 90000 ((List.replicate 351 (7 : UInt8)).length + 1)
        (List.replicate 188 0) true 0 (List.replicate 351 7)).1 :=
  pes_round_trip ⟨some ⟨false, []⟩, none, false⟩ ⟨.h264, 0x1011, 15, [], true, 0, 0⟩
    List.mem_cons_self (by decide) (List.replicate 351 7) (by rw [List.length_replicate]; decide)
    90000 (by decide) (by decide) (List.replicate 188 0) List.length_replicate

end Maixii.Muxer
