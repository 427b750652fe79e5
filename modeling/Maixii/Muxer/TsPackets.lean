import Mathlib.Data.List.Basic
import Maixii.Lib.Bytes

/-!
# `Muxer/TsPackets.lean`: how transport packets are made

The packet making of `mpeg2ts_muxer/Mpeg2tsMuxer.c`: `mpegts_write_section` cuts a table into
packets, `wirte_pcr_table` makes one packet without payload, and `mpegts_write_pes` puts a PES
header before a payload and cuts both, with an adaptation field that fills up the last packet. What
becomes of the packets is the matter of `Muxer/TsCache.lean`.

A demultiplexer reads the packet identifier, the payload flag and the continuity counter off the
bytes; `pid_header` and its neighbours say what it reads.
-/

set_option autoImplicit false

namespace Maixii.Muxer

/-- `TS_PACKET_SIZE`. -/
def tsPacketSize : Nat := 188

/-- A transport packet. -/
structure TsPacket where
  bytes : Bytes
  length_eq : bytes.length = tsPacketSize
  deriving DecidableEq

namespace TsPacket

/-- The packet identifier, as it is read. -/
def pid (p : TsPacket) : Nat := (p.bytes.getD 1 0).toNat % 32 * 256 + (p.bytes.getD 2 0).toNat

def hasPayload (p : TsPacket) : Bool := p.bytes.getD 3 0 &&& 0x10 != 0

/-- The continuity counter. -/
def cc (p : TsPacket) : Nat := (p.bytes.getD 3 0).toNat % 16

end TsPacket

/-- `put16`. -/
def put16 (val : Nat) : Bytes := [UInt8.ofNat (val / 256), UInt8.ofNat val]

/-- The first four bytes of a packet with payload. -/
def header (pid : Nat) (first : Bool) (cc : Nat) (afc : UInt8) : Bytes :=
  [0x47, UInt8.ofNat (pid / 256) ||| (if first then 0x40 else 0), UInt8.ofNat pid,
    0x10 ||| UInt8.ofNat cc ||| afc]

/-! ## Sections -/

/-- An entry of `crc_table`: the index, run through the generator polynomial. -/
def crcEntry (i : UInt32) : UInt32 :=
  Nat.iterate (fun c : UInt32 =>
    if c &&& 0x80000000 ≠ 0 then (c <<< 1) ^^^ 0x04c11db7 else c <<< 1) 8 (i <<< 24)

/-- `GenerateCRC32`. -/
def generateCRC32 (buf : Bytes) : UInt32 :=
  buf.foldl (fun crc b => (crc <<< 8) ^^^ crcEntry (((crc >>> 24) ^^^ b.toUInt32) &&& 0xff))
    0xffffffff

/-- A section as `mpegts_write_section1` and the checksum make it; nothing if it is too big. -/
def sectionBytes (tid : UInt8) (id : Nat) (data : Bytes) : Option Bytes :=
  if 1024 < 3 + 5 + data.length + 4 then none
  else
    let buf := tid :: put16 (0xb000 ||| (data.length + 5 + 4)) ++ put16 id ++
      [0xc1 ||| ((1 : UInt8) <<< (1 : UInt8)), 0, 0] ++ data
    let crc := generateCRC32 buf
    some (buf ++ [(crc >>> 24).toUInt8, (crc >>> 16).toUInt8, (crc >>> 8).toUInt8, crc.toUInt8])

theorem length_header (pid : Nat) (first : Bool) (cc : Nat) (afc : UInt8) :
    (header pid first cc afc).length = 4 := rfl

/-- A packet of a section: what does not fill it is padded. The first has a pointer byte. -/
def sectionPacket (pid : Nat) (first : Bool) (cc : Nat) (buf : Bytes) : TsPacket where
  bytes :=
    let head := header pid first cc 0 ++ if first then [0] else []
    let part := buf.take (tsPacketSize - head.length)
    head ++ part ++ List.replicate (tsPacketSize - head.length - part.length) 0xff
  length_eq := by
    have hlen : (header pid first cc 0 ++ if first then [0] else []).length ≤ 5 := by
      cases first <;> simp [length_header]
    simp only [List.length_append, List.length_replicate, List.length_take]
    rw [List.length_append] at hlen
    unfold tsPacketSize
    omega

/-- How much of a section a packet takes. -/
def sectionRoom (first : Bool) : Nat := if first then 183 else 184

/-- The loop of `mpegts_write_section`, with the counter it leaves; `n` is as large as `buf` is
long. -/
def sectionPackets (pid : Nat) : Nat → Bool → Nat → Bytes → List TsPacket × Nat
  | 0, _, cc, _ => ([], cc)
  | n + 1, first, cc, buf =>
      if buf = [] then ([], cc)
      else
        let cc := (cc + 1) % 16
        let (ps, cc') := sectionPackets pid n false cc (buf.drop (sectionRoom first))
        (sectionPacket pid first cc buf :: ps, cc')

/-! ## The clock -/

/-- `n` bits of a number, from the bit `shift` on. -/
def bits (x : Int) (shift n : Nat) : Nat := (x / 2 ^ shift % 2 ^ n).toNat

/-- The packet of `wirte_pcr_table`. -/
def pcrPacket (counter : Nat) (pcr : Int) : TsPacket where
  bytes :=
    [0x47, 0x50, 0x00, 0x20 ||| UInt8.ofNat counter, 0xB7, 0x10, UInt8.ofNat (bits pcr 25 8),
      UInt8.ofNat (bits pcr 17 8), UInt8.ofNat (bits pcr 9 8), UInt8.ofNat (bits pcr 1 8),
      UInt8.ofNat (bits pcr 0 1 * 128), 0] ++ List.replicate 176 0xff
  length_eq := rfl

/-! ## PES packets -/

inductive CodecID
  | h264
  | h265
  | aac
  | adpcm
  | ggad
  deriving DecidableEq, Repr

/-- `write_pts`. -/
def writePts (fourbits : Nat) (pts : Int) : Bytes :=
  [UInt8.ofNat (fourbits * 16 + bits pts 30 3 * 2 + 1)] ++ put16 (bits pts 15 15 * 2 + 1) ++
    put16 (bits pts 0 15 * 2 + 1)

/-- The stream id of a PES header. -/
def streamId : CodecID → UInt8
  | .h264 | .h265 => 0xe0
  | .adpcm => 0xBD
  | .aac => 0xc0
  | .ggad => 0xBF

/-- The PES header that `mpegts_write_pes` puts before the payload. -/
def pesHeader (codec : CodecID) (pts : Int) (payloadSize : Nat) : Bytes :=
  [0x00, 0x00, 0x01, streamId codec] ++
    if codec = .ggad then put16 payloadSize
    else
      let headerLen := if pts = -1 then 0 else 5 + 2
      let len := payloadSize + headerLen + 3
      put16 (if 0xffff < len then 0 else len) ++
        [0x80, if pts = -1 then 0 else 0x80, UInt8.ofNat headerLen] ++
        (if pts = -1 then [] else writePts 2 pts) ++ [0xFF, 0xFF]

theorem length_pesHeader (codec : CodecID) (pts : Int) (payloadSize : Nat) :
    (pesHeader codec pts payloadSize).length ≤ 16 := by
  unfold pesHeader
  rw [List.length_append]
  split
  · show 4 + 2 ≤ 16
    decide
  · simp only [List.length_append]
    split
    · show 4 + (2 + 3 + 0 + 2) ≤ 16
      decide
    · show 4 + (2 + 3 + 5 + 2) ≤ 16
      decide

/-- The adaptation field that takes up `n` bytes. -/
def adaptation (n : Nat) : Bytes :=
  if n = 0 then []
  else UInt8.ofNat (n - 1) :: if n = 1 then [] else 0x00 :: List.replicate (n - 2) 0xff

theorem length_adaptation (n : Nat) : (adaptation n).length = n := by
  unfold adaptation
  split
  · rename_i h
    rw [h]
    rfl
  · rw [List.length_cons]
    split
    · rename_i h
      rw [h]
      rfl
    · rw [List.length_cons, List.length_replicate]
      omega

/-- A packet of a PES: an adaptation field fills it up. -/
def pesPacket (pid : Nat) (first : Bool) (cc : Nat) (head payload : Bytes)
    (hlen : head.length ≤ 16) : TsPacket where
  bytes :=
    let part := payload.take (tsPacketSize - 4 - head.length)
    let stuffing := tsPacketSize - 4 - head.length - part.length
    header pid first cc (if 0 < stuffing then 0x20 else 0) ++ adaptation stuffing ++ head ++ part
  length_eq := by
    simp only [List.length_append, length_adaptation, length_header, List.length_take]
    unfold tsPacketSize
    omega

/-- The packets of a PES behind the first, with the counter they leave; `n` is as large as what is
left is long. -/
def pesRest (pid : Nat) : Nat → Nat → Bytes → List TsPacket × Nat
  | 0, cc, _ => ([], cc)
  | n + 1, cc, payload =>
      if payload = [] then ([], cc)
      else
        let cc := (cc + 1) % 16
        let (ps, cc') := pesRest pid n cc (payload.drop (tsPacketSize - 4))
        (pesPacket pid false cc [] payload (Nat.zero_le _) :: ps, cc')

/-- The loop of `mpegts_write_pes`. The counter begins anew with every PES. -/
def pesPackets (pid : Nat) (codec : CodecID) (pts : Int) (payload : Bytes) : List TsPacket × Nat :=
  if payload = [] then ([], 0)
  else
    let head := pesHeader codec pts payload.length
    let cc := (0 + 1) % 16
    let (ps, cc') := pesRest pid payload.length cc (payload.drop (tsPacketSize - 4 - head.length))
    (pesPacket pid true cc head payload (length_pesHeader _ _ _) :: ps, cc')

/-! ## What a demultiplexer reads -/

theorem header_byte1 (hi : Fin 32) (first : Bool) :
    (UInt8.ofNat hi.val ||| (if first then 0x40 else 0)).toNat % 32 = hi.val := by
  revert hi first
  decide +kernel

theorem header_byte3 (cc : Fin 16) (stuffed : Bool) :
    (0x10 ||| UInt8.ofNat cc.val ||| (if stuffed then 0x20 else 0)).toNat % 16 = cc.val ∧
      ((0x10 ||| UInt8.ofNat cc.val ||| (if stuffed then 0x20 else 0)) &&& 0x10 != 0) = true := by
  revert cc stuffed
  decide +kernel

/-- What is read off a packet that begins with a header. -/
structure Reads (p : TsPacket) (pid cc : Nat) : Prop where
  pid : p.pid = pid
  cc : p.cc = cc
  payload : p.hasPayload = true

theorem reads_header {p : TsPacket} {pid cc : Nat} (first stuffed : Bool)
    (hp : header pid first cc (if stuffed then 0x20 else 0) <+: p.bytes) (hpid : pid < 2 ^ 13)
    (hcc : cc < 16) : Reads p pid cc := by
  obtain ⟨rest, hp⟩ := hp
  obtain ⟨h3, h4⟩ := header_byte3 ⟨cc, hcc⟩ stuffed
  have h1 := header_byte1 ⟨pid / 256, by omega⟩ first
  refine ⟨?_, ?_, ?_⟩
  · have hlow : (UInt8.ofNat pid).toNat = pid % 256 := UInt8.toNat_ofNat'
    unfold TsPacket.pid
    rw [← hp]
    show (UInt8.ofNat (pid / 256) ||| _).toNat % 32 * 256 + (UInt8.ofNat pid).toNat = pid
    rw [h1, hlow]
    show pid / 256 * 256 + pid % 256 = pid
    omega
  · unfold TsPacket.cc
    rw [← hp]
    exact h3
  · unfold TsPacket.hasPayload
    rw [← hp]
    exact h4

theorem reads_sectionPacket {pid cc : Nat} (first : Bool) (buf : Bytes) (hpid : pid < 2 ^ 13)
    (hcc : cc < 16) : Reads (sectionPacket pid first cc buf) pid cc := by
  refine reads_header first false ?_ hpid hcc
  exact ((List.prefix_append _ _).trans (List.prefix_append _ _)).trans (List.prefix_append _ _)

theorem reads_pesPacket {pid cc : Nat} (first : Bool) (head payload : Bytes)
    (hlen : head.length ≤ 16) (hpid : pid < 2 ^ 13) (hcc : cc < 16) :
    Reads (pesPacket pid first cc head payload hlen) pid cc := by
  refine reads_header first (decide (0 < tsPacketSize - 4 - head.length -
    (payload.take (tsPacketSize - 4 - head.length)).length)) ?_ hpid hcc
  simp only [decide_eq_true_eq]
  exact ((List.prefix_append _ _).trans (List.prefix_append _ _)).trans (List.prefix_append _ _)

theorem pcrPacket_hasPayload (counter : Nat) (hcounter : counter < 16) (pcr : Int) :
    (pcrPacket counter pcr).hasPayload = false := by
  have hall : ∀ c : Fin 16, ((0x20 ||| UInt8.ofNat c.val) &&& 0x10 != 0) = false := by
    decide +kernel
  exact hall ⟨counter, hcounter⟩

/-! ## The counters of many packets -/

/-- The packets are of one identifier, with payload, and numbered from `c` on. -/
def Counted (pid c : Nat) (ps : List TsPacket) : Prop :=
  ∀ i p, ps[i]? = some p → Reads p pid ((c + i) % 16)

theorem counted_nil (pid c : Nat) : Counted pid c [] := by
  intro i p h
  simp at h

theorem Counted.cons {pid c : Nat} {p : TsPacket} {ps : List TsPacket} (h : Counted pid (c + 1) ps)
    (hp : Reads p pid (c % 16)) : Counted pid c (p :: ps) := by
  intro i q hq
  cases i with
  | zero =>
    obtain rfl := Option.some.inj hq
    exact hp
  | succ i =>
    have := h i q hq
    rwa [Nat.add_assoc, Nat.add_comm 1 i] at this

/-- Numbers matter up to sixteen. -/
theorem Counted.congr {pid c d : Nat} {ps : List TsPacket} (h : Counted pid c ps)
    (hcd : c % 16 = d % 16) : Counted pid d ps := by
  intro i p hp
  have hi : (d + i) % 16 = (c + i) % 16 := by omega
  rw [hi]
  exact h i p hp

/-- **The packets of a section** go on with the counter. -/
theorem counted_sectionPackets {pid : Nat} (hpid : pid < 2 ^ 13) (n : Nat) (first : Bool) (cc : Nat)
    (hcc : cc < 16) (buf : Bytes) :
    Counted pid (cc + 1) (sectionPackets pid n first cc buf).1 ∧
      (sectionPackets pid n first cc buf).2 =
        (cc + (sectionPackets pid n first cc buf).1.length) % 16 := by
  induction n generalizing first cc buf with
  | zero => exact ⟨counted_nil _ _, (Nat.mod_eq_of_lt hcc).symm⟩
  | succ n ih =>
    unfold sectionPackets
    split
    · exact ⟨counted_nil _ _, (Nat.mod_eq_of_lt hcc).symm⟩
    · have hnext : (cc + 1) % 16 < 16 := Nat.mod_lt _ (by decide)
      obtain ⟨hps, hleft⟩ := ih false ((cc + 1) % 16) hnext (buf.drop (sectionRoom first))
      constructor
      · exact (hps.congr (by omega)).cons (reads_sectionPacket first buf hpid hnext)
      · show (sectionPackets pid n false _ _).2 = _
        rw [hleft]
        show _ = (cc + ((sectionPackets pid n false _ _).1.length + 1)) % 16
        omega

theorem counted_pesRest {pid : Nat} (hpid : pid < 2 ^ 13) (n : Nat) (cc : Nat) (hcc : cc < 16)
    (payload : Bytes) :
    Counted pid (cc + 1) (pesRest pid n cc payload).1 ∧
      (pesRest pid n cc payload).2 = (cc + (pesRest pid n cc payload).1.length) % 16 := by
  induction n generalizing cc payload with
  | zero => exact ⟨counted_nil _ _, (Nat.mod_eq_of_lt hcc).symm⟩
  | succ n ih =>
    unfold pesRest
    split
    · exact ⟨counted_nil _ _, (Nat.mod_eq_of_lt hcc).symm⟩
    · have hnext : (cc + 1) % 16 < 16 := Nat.mod_lt _ (by decide)
      obtain ⟨hps, hleft⟩ := ih ((cc + 1) % 16) hnext (payload.drop (tsPacketSize - 4))
      constructor
      · exact (hps.congr (by omega)).cons (reads_pesPacket false [] payload _ hpid hnext)
      · show (pesRest pid n _ _).2 = _
        rw [hleft]
        show _ = (cc + ((pesRest pid n _ _).1.length + 1)) % 16
        omega

/-- **The packets of a PES** are numbered from one. -/
theorem counted_pesPackets {pid : Nat} (hpid : pid < 2 ^ 13) (codec : CodecID) (pts : Int)
    (payload : Bytes) :
    Counted pid 1 (pesPackets pid codec pts payload).1 ∧
      (pesPackets pid codec pts payload).2 = (pesPackets pid codec pts payload).1.length % 16 := by
  unfold pesPackets
  split
  · exact ⟨counted_nil _ _, rfl⟩
  · obtain ⟨hps, hleft⟩ := counted_pesRest hpid payload.length 1 (by decide)
      (payload.drop (tsPacketSize - 4 - (pesHeader codec pts payload.length).length))
    constructor
    · exact hps.cons (reads_pesPacket true _ payload _ hpid (by decide))
    · show (pesRest pid _ 1 _).2 = ((pesRest pid _ 1 _).1.length + 1) % 16
      rw [hleft, Nat.add_comm]

/-! ## How many packets a PES takes -/

theorem length_pesRest (pid n cc : Nat) (payload : Bytes) (hn : payload.length ≤ n) :
    (pesRest pid n cc payload).1.length = (payload.length + 183) / 184 := by
  induction n generalizing cc payload with
  | zero =>
    rw [Nat.le_zero.mp hn]
    rfl
  | succ n ih =>
    unfold pesRest
    split
    · rename_i h
      rw [h]
      rfl
    · rename_i h
      have hpos : 0 < payload.length := List.length_pos_iff.mpr h
      have hdrop : (payload.drop (tsPacketSize - 4)).length = payload.length - 184 :=
        List.length_drop
      show (pesRest pid n _ _).1.length + 1 = _
      rw [ih _ _ (by omega), hdrop]
      omega

/-- As many as are needed, where the first has less room. -/
theorem length_pesPackets (pid : Nat) (codec : CodecID) (pts : Int) (payload : Bytes)
    (h : payload ≠ []) :
    (pesPackets pid codec pts payload).1.length =
      1 + (payload.length - (184 - (pesHeader codec pts payload.length).length) + 183) / 184 := by
  unfold pesPackets
  rw [if_neg h]
  show (pesRest pid _ 1 _).1.length + 1 = _
  have hdrop : (payload.drop (tsPacketSize - 4 - (pesHeader codec pts payload.length).length)).length
      = payload.length - (184 - (pesHeader codec pts payload.length).length) := List.length_drop
  rw [length_pesRest _ _ _ _ (by omega), hdrop, Nat.add_comm]

end Maixii.Muxer
