import Maixii.Lib.Crc
import Maixii.Lib.Units
import Maixii.Muxer.PesRoundTrip

/-!
# `Muxer/TsSections.lean`: what a demultiplexer gets out of a table

The other end of `mpegts_write_section`: a receiver puts the payloads of a section's packets
together, looks where the pointer field points, and takes the section only if the remainder over all
of it, the checksum included, is zero (`readSection`).

* `readUnitSection_sectionPackets`: it reads the section that was written, however many packets it
  takes;
* `section_damaged`: it takes no section in which up to four bytes in a row were changed.

`GenerateCRC32` looks bytes up in a table. The table is the generator of the standard, shifted
(`crcTable_eq`), so what it computes is the remainder (`generateCRC32_remainder`).
-/

set_option autoImplicit false

namespace Maixii.Muxer

open Maixii.Lib

/-! ## The checksum -/

/-- The generator of the checksum. -/
def crcPoly : BitVec 32 := 0x04c11db7

/-- The remainder over some bytes, from a register of ones. -/
def crcRemainder (bs : Bytes) : BitVec 32 := Crc.remainder crcPoly (BitVec.allOnes 32) bs

/-- What `crcEntry` does eight times. -/
def crcShift (c : UInt32) : UInt32 :=
  if c &&& 0x80000000 ≠ 0 then (c <<< 1) ^^^ 0x04c11db7 else c <<< 1

/-- `crc_table`. -/
def crcTable : List UInt32 :=
  [0x00000000, 0x04c11db7, 0x09823b6e, 0x0d4326d9, 0x130476dc, 0x17c56b6b, 0x1a864db2, 0x1e475005,
    0x2608edb8, 0x22c9f00f, 0x2f8ad6d6, 0x2b4bcb61, 0x350c9b64, 0x31cd86d3, 0x3c8ea00a, 0x384fbdbd,
    0x4c11db70, 0x48d0c6c7, 0x4593e01e, 0x4152fda9, 0x5f15adac, 0x5bd4b01b, 0x569796c2, 0x52568b75,
    0x6a1936c8, 0x6ed82b7f, 0x639b0da6, 0x675a1011, 0x791d4014, 0x7ddc5da3, 0x709f7b7a, 0x745e66cd,
    0x9823b6e0, 0x9ce2ab57, 0x91a18d8e, 0x95609039, 0x8b27c03c, 0x8fe6dd8b, 0x82a5fb52, 0x8664e6e5,
    0xbe2b5b58, 0xbaea46ef, 0xb7a96036, 0xb3687d81, 0xad2f2d84, 0xa9ee3033, 0xa4ad16ea, 0xa06c0b5d,
    0xd4326d90, 0xd0f37027, 0xddb056fe, 0xd9714b49, 0xc7361b4c, 0xc3f706fb, 0xceb42022, 0xca753d95,
    0xf23a8028, 0xf6fb9d9f, 0xfbb8bb46, 0xff79a6f1, 0xe13ef6f4, 0xe5ffeb43, 0xe8bccd9a, 0xec7dd02d,
    0x34867077, 0x30476dc0, 0x3d044b19, 0x39c556ae, 0x278206ab, 0x23431b1c, 0x2e003dc5, 0x2ac12072,
    0x128e9dcf, 0x164f8078, 0x1b0ca6a1, 0x1fcdbb16, 0x018aeb13, 0x054bf6a4, 0x0808d07d, 0x0cc9cdca,
    0x7897ab07, 0x7c56b6b0, 0x71159069, 0x75d48dde, 0x6b93dddb, 0x6f52c06c, 0x6211e6b5, 0x66d0fb02,
    0x5e9f46bf, 0x5a5e5b08, 0x571d7dd1, 0x53dc6066, 0x4d9b3063, 0x495a2dd4, 0x44190b0d, 0x40d816ba,
    0xaca5c697, 0xa864db20, 0xa527fdf9, 0xa1e6e04e, 0xbfa1b04b, 0xbb60adfc, 0xb6238b25, 0xb2e29692,
    0x8aad2b2f, 0x8e6c3698, 0x832f1041, 0x87ee0df6, 0x99a95df3, 0x9d684044, 0x902b669d, 0x94ea7b2a,
    0xe0b41de7, 0xe4750050, 0xe9362689, 0xedf73b3e, 0xf3b06b3b, 0xf771768c, 0xfa325055, 0xfef34de2,
    0xc6bcf05f, 0xc27dede8, 0xcf3ecb31, 0xcbffd686, 0xd5b88683, 0xd1799b34, 0xdc3abded, 0xd8fba05a,
    0x690ce0ee, 0x6dcdfd59, 0x608edb80, 0x644fc637, 0x7a089632, 0x7ec98b85, 0x738aad5c, 0x774bb0eb,
    0x4f040d56, 0x4bc510e1, 0x46863638, 0x42472b8f, 0x5c007b8a, 0x58c1663d, 0x558240e4, 0x51435d53,
    0x251d3b9e, 0x21dc2629, 0x2c9f00f0, 0x285e1d47, 0x36194d42, 0x32d850f5, 0x3f9b762c, 0x3b5a6b9b,
    0x0315d626, 0x07d4cb91, 0x0a97ed48, 0x0e56f0ff, 0x1011a0fa, 0x14d0bd4d, 0x19939b94, 0x1d528623,
    0xf12f560e, 0xf5ee4bb9, 0xf8ad6d60, 0xfc6c70d7, 0xe22b20d2, 0xe6ea3d65, 0xeba91bbc, 0xef68060b,
    0xd727bbb6, 0xd3e6a601, 0xdea580d8, 0xda649d6f, 0xc423cd6a, 0xc0e2d0dd, 0xcda1f604, 0xc960ebb3,
    0xbd3e8d7e, 0xb9ff90c9, 0xb4bcb610, 0xb07daba7, 0xae3afba2, 0xaafbe615, 0xa7b8c0cc, 0xa379dd7b,
    0x9b3660c6, 0x9ff77d71, 0x92b45ba8, 0x9675461f, 0x8832161a, 0x8cf30bad, 0x81b02d74, 0x857130c3,
    0x5d8a9099, 0x594b8d2e, 0x5408abf7, 0x50c9b640, 0x4e8ee645, 0x4a4ffbf2, 0x470cdd2b, 0x43cdc09c,
    0x7b827d21, 0x7f436096, 0x7200464f, 0x76c15bf8, 0x68860bfd, 0x6c47164a, 0x61043093, 0x65c52d24,
    0x119b4be9, 0x155a565e, 0x18197087, 0x1cd86d30, 0x029f3d35, 0x065e2082, 0x0b1d065b, 0x0fdc1bec,
    0x3793a651, 0x3352bbe6, 0x3e119d3f, 0x3ad08088, 0x2497d08d, 0x2056cd3a, 0x2d15ebe3, 0x29d4f654,
    0xc5a92679, 0xc1683bce, 0xcc2b1d17, 0xc8ea00a0, 0xd6ad50a5, 0xd26c4d12, 0xdf2f6bcb, 0xdbee767c,
    0xe3a1cbc1, 0xe760d676, 0xea23f0af, 0xeee2ed18, 0xf0a5bd1d, 0xf464a0aa, 0xf9278673, 0xfde69bc4,
    0x89b8fd09, 0x8d79e0be, 0x803ac667, 0x84fbdbd0, 0x9abc8bd5, 0x9e7d9662, 0x933eb0bb, 0x97ffad0c,
    0xafb010b1, 0xab710d06, 0xa6322bdf, 0xa2f33668, 0xbcb4666d, 0xb8757bda, 0xb5365d03, 0xb1f740b4]

/-- `GenerateCRC32`, with the table it has. -/
def generateCRC32Table (buf : Bytes) : UInt32 :=
  buf.foldl (fun crc b => (crc <<< 8) ^^^
    crcTable.getD (((crc >>> 24) ^^^ b.toUInt32) &&& 0xff).toNat 0) 0xffffffff

theorem top_bit (c : UInt32) : (c &&& 0x80000000 ≠ 0) ↔ c.toBitVec.msb = true := by
  have hand : (c &&& 0x80000000).toBitVec = c.toBitVec &&& BitVec.twoPow 32 31 := rfl
  have hzero : c &&& 0x80000000 = 0 ↔ c.toBitVec &&& BitVec.twoPow 32 31 = 0#32 := by
    rw [← hand]
    exact ⟨fun h => by rw [h]; rfl, fun h => UInt32.toBitVec_inj.mp h⟩
  rw [Ne, hzero, BitVec.and_twoPow, BitVec.msb_eq_getLsbD_last]
  cases c.toBitVec.getLsbD 31 <;> simp

theorem toBitVec_crcShift (c : UInt32) :
    (crcShift c).toBitVec = Crc.shift crcPoly c.toBitVec := by
  have hleft : (c <<< 1).toBitVec = c.toBitVec <<< 1 := by simp
  unfold crcShift Crc.shift
  by_cases h : c &&& 0x80000000 ≠ 0
  · rw [if_pos h, if_pos ((top_bit c).mp h), UInt32.toBitVec_xor, hleft]
    rfl
  · rw [if_neg h, if_neg (fun hm => h ((top_bit c).mpr hm)), hleft, BitVec.xor_zero]

theorem toBitVec_crcEntry (i : UInt32) :
    (crcEntry i).toBitVec = Crc.shifts crcPoly 8 (i.toBitVec <<< 24) := by
  have hiterate : ∀ (n : Nat) (c : UInt32),
      (Nat.iterate crcShift n c).toBitVec = Crc.shifts crcPoly n c.toBitVec := by
    intro n
    induction n with
    | zero => intro c; rfl
    | succ n ih =>
      intro c
      rw [Crc.shifts, ← toBitVec_crcShift, ← ih]
      rfl
  have hstart : (i <<< 24).toBitVec = i.toBitVec <<< 24 := by simp
  rw [← hstart]
  exact hiterate 8 (i <<< 24)

/-- One step of `GenerateCRC32`. -/
theorem toBitVec_crcStep (crc : UInt32) (b : UInt8) :
    ((crc <<< 8) ^^^ crcEntry (((crc >>> 24) ^^^ b.toUInt32) &&& 0xff)).toBitVec =
      Crc.feed crcPoly crc.toBitVec b := by
  have hindex : (((crc >>> 24) ^^^ b.toUInt32) &&& 0xff).toBitVec =
      crc.toBitVec >>> 24 ^^^ BitVec.ofNat 32 b.toNat := by
    have hsmall : (crc.toBitVec >>> 24 ^^^ BitVec.ofNat 32 b.toNat).toNat < 2 ^ 8 := by
      rw [BitVec.toNat_xor]
      refine Nat.xor_lt_two_pow ?_ ?_
      · rw [BitVec.toNat_ushiftRight, Nat.shiftRight_eq_div_pow]
        have := crc.toBitVec.isLt
        omega
      · have := b.toNat_lt
        rw [BitVec.toNat_ofNat]
        omega
    have hbyte : b.toUInt32.toBitVec = BitVec.ofNat 32 b.toNat := by
      refine BitVec.eq_of_toNat_eq ?_
      have := b.toNat_lt
      rw [BitVec.toNat_ofNat, Nat.mod_eq_of_lt (by omega)]
      exact UInt8.toNat_toUInt32 b
    have hmask : (((crc >>> 24) ^^^ b.toUInt32) &&& 0xff).toBitVec =
        (crc.toBitVec >>> 24 ^^^ BitVec.ofNat 32 b.toNat) &&& 0xff#32 := by
      rw [← hbyte]
      simp
    rw [hmask]
    refine BitVec.eq_of_toNat_eq ?_
    rw [BitVec.toNat_and]
    exact Nat.and_two_pow_sub_one_of_lt_two_pow hsmall
  have hleft : (crc <<< 8).toBitVec = crc.toBitVec <<< 8 := by simp
  rw [UInt32.toBitVec_xor, toBitVec_crcEntry, hindex, hleft, Crc.feed_table crcPoly (by decide)]

/-- **`GenerateCRC32` is the remainder** of the division by the generator. -/
theorem generateCRC32_remainder (buf : Bytes) :
    (generateCRC32 buf).toBitVec = crcRemainder buf := by
  have hfold : ∀ (buf : Bytes) (c : UInt32),
      (buf.foldl (fun (crc : UInt32) b => (crc <<< 8) ^^^
        crcEntry (((crc >>> 24) ^^^ b.toUInt32) &&& 0xff)) c).toBitVec =
        Crc.remainder crcPoly c.toBitVec buf := by
    intro buf
    induction buf with
    | nil => intro c; rfl
    | cons b buf ih =>
      intro c
      rw [List.foldl_cons, ih, toBitVec_crcStep]
      rfl
  exact hfold buf 0xffffffff

/-- **The table** that the source has is the one that is computed here. -/
theorem crcTable_eq : crcTable = (List.range 256).map fun i => crcEntry (UInt32.ofNat i) := by
  decide +kernel

theorem generateCRC32_table (buf : Bytes) : generateCRC32Table buf = generateCRC32 buf := by
  have hentry : ∀ i : UInt32, i.toNat < 256 → crcTable.getD i.toNat 0 = crcEntry i := by
    intro i hi
    rw [crcTable_eq, List.getD_eq_getElem?_getD, List.getElem?_map, List.getElem?_range hi,
      Option.map_some, Option.getD_some, UInt32.ofNat_toNat]
  unfold generateCRC32Table generateCRC32
  refine List.foldl_ext _ _ _ fun crc b _ => ?_
  rw [hentry]
  rw [UInt32.toNat_and]
  exact Nat.lt_succ_of_le Nat.and_le_right

/-! ## Sections -/

/-- A section of a table, as it is read. -/
structure Section where
  tableId : UInt8
  id : Nat
  data : Bytes
  deriving DecidableEq

/-- The section that some bytes begin with; only stuffing may follow it. -/
def readSection (bytes : Bytes) : Option Section :=
  let byte := fun i => (bytes.getD i 0).toNat
  let length := byte 1 % 16 * 256 + byte 2
  let whole := bytes.take (3 + length)
  if byte 1 / 64 = 2 ∧ 9 ≤ length ∧ length ≤ 1021 ∧ 3 + length ≤ bytes.length ∧
      byte 5 % 2 = 1 ∧ byte 6 = 0 ∧ byte 7 = 0 ∧ crcRemainder whole = 0 ∧
      (bytes.drop (3 + length)).all (· == 0xff) = true then
    some ⟨bytes.getD 0 0, byte 3 * 256 + byte 4, (whole.take (length - 1)).drop 8⟩
  else none

/-- The bytes of a checksum, highest first. -/
theorem crcBytes_eq (crc : UInt32) :
    [(crc >>> 24).toUInt8, (crc >>> 16).toUInt8, (crc >>> 8).toUInt8, crc.toUInt8] =
      be 4 crc.toNat := by
  have hbyte : ∀ (x : UInt32) (k : Nat), x.toNat = k → x.toUInt8 = UInt8.ofNat k := by
    intro x k hk
    refine UInt8.toNat_inj.mp ?_
    rw [UInt32.toNat_toUInt8, UInt8.toNat_ofNat', hk]
  have hshift : ∀ (k : UInt32), k.toNat < 32 → (crc >>> k).toNat = crc.toNat / 2 ^ k.toNat := by
    intro k hk
    rw [UInt32.toNat_shiftRight, Nat.mod_eq_of_lt hk, Nat.shiftRight_eq_div_pow]
  rw [hbyte _ _ (hshift 24 (by decide)), hbyte _ _ (hshift 16 (by decide)),
    hbyte _ _ (hshift 8 (by decide)), hbyte crc crc.toNat rfl]
  show [_, _, _, _] = [_, _, _, _]
  simp only [Nat.div_div_eq_div_mul]
  rfl

/-- **A section ends on its checksum**, so nothing is left over it. -/
theorem crcRemainder_checked (buf : Bytes) :
    crcRemainder (buf ++ be 4 (generateCRC32 buf).toNat) = 0#32 := by
  have hrem : (generateCRC32 buf).toNat = (crcRemainder buf).toNat :=
    congrArg BitVec.toNat (generateCRC32_remainder buf)
  rw [hrem]
  exact Crc.remainder_be (n := 4) crcPoly (BitVec.allOnes 32) buf

/-- The front of a section, up to its checksum. -/
def sectionFront (tid : UInt8) (id : Nat) (data : Bytes) : Bytes :=
  [tid, UInt8.ofNat (0xb0 + (data.length + 9) / 256), UInt8.ofNat (data.length + 9),
    UInt8.ofNat (id / 256), UInt8.ofNat id, 0xc3, 0, 0] ++ data

/-- The section that is written. -/
theorem sectionBytes_eq (tid : UInt8) (id : Nat) {data : Bytes} (hlen : data.length ≤ 1012) :
    sectionBytes tid id data =
      some (sectionFront tid id data ++
        be 4 (generateCRC32 (sectionFront tid id data)).toNat) := by
  have hor : 0xb000 ||| (data.length + 5 + 4) = 0xb000 + (data.length + 9) := by
    have hlow : data.length + 9 < 2 ^ 12 := by omega
    exact (Nat.two_pow_add_eq_or_of_lt hlow 11).symm
  have hhigh : (0xb000 + (data.length + 9)) / 256 = 0xb0 + (data.length + 9) / 256 := by omega
  have hlow : UInt8.ofNat (0xb000 + (data.length + 9)) = UInt8.ofNat (data.length + 9) := by
    refine UInt8.toNat_inj.mp ?_
    rw [UInt8.toNat_ofNat', UInt8.toNat_ofNat']
    omega
  have hfront : tid :: put16 (0xb000 ||| (data.length + 5 + 4)) ++ put16 id ++
      [0xc1 ||| ((1 : UInt8) <<< (1 : UInt8)), 0, 0] ++ data = sectionFront tid id data := by
    rw [hor]
    unfold put16 sectionFront
    rw [hhigh, hlow]
    rfl
  unfold sectionBytes
  rw [if_neg (by omega)]
  dsimp only
  rw [hfront, crcBytes_eq]

/-- **A section is read back** from its bytes and the stuffing behind them. -/
theorem readSection_front (tid : UInt8) {id : Nat} (hid : id < 2 ^ 16) {data : Bytes}
    (hlen : data.length ≤ 1012) (n : Nat) :
    readSection (sectionFront tid id data ++
      be 4 (generateCRC32 (sectionFront tid id data)).toNat ++ List.replicate n 0xff) =
        some ⟨tid, id, data⟩ := by
  have hchecked := crcRemainder_checked (sectionFront tid id data)
  have hcrc : (be 4 (generateCRC32 (sectionFront tid id data)).toNat).length = 4 := length_be _ _
  have hfront : (sectionFront tid id data).length = data.length + 8 := by
    simp [sectionFront]
  generalize be 4 (generateCRC32 (sectionFront tid id data)).toNat = crc at hchecked hcrc ⊢
  have hone : (UInt8.ofNat (0xb0 + (data.length + 9) / 256)).toNat =
      0xb0 + (data.length + 9) / 256 := by
    rw [UInt8.toNat_ofNat']
    omega
  have htwo : (UInt8.ofNat (data.length + 9)).toNat = (data.length + 9) % 256 := by
    rw [UInt8.toNat_ofNat']
  have hlength : (UInt8.ofNat (0xb0 + (data.length + 9) / 256)).toNat % 16 * 256 +
      (UInt8.ofNat (data.length + 9)).toNat = data.length + 9 := by
    rw [hone, htwo]
    omega
  have hmark : (UInt8.ofNat (0xb0 + (data.length + 9) / 256)).toNat / 64 = 2 := by
    rw [hone]
    omega
  have hidread : (UInt8.ofNat (id / 256)).toNat * 256 + (UInt8.ofNat id).toNat = id :=
    toNat_put16 hid
  have hwhole : (sectionFront tid id data ++ crc ++ List.replicate n 0xff).take
      (3 + (data.length + 9)) = sectionFront tid id data ++ crc := by
    refine List.take_left' ?_
    rw [List.length_append, hfront, hcrc]
    omega
  have hstuffing : (sectionFront tid id data ++ crc ++ List.replicate n 0xff).drop
      (3 + (data.length + 9)) = List.replicate n 0xff := by
    refine List.drop_left' ?_
    rw [List.length_append, hfront, hcrc]
    omega
  have hdata : ((sectionFront tid id data ++ crc).take (data.length + 9 - 1)).drop 8 = data := by
    rw [List.take_left' (by rw [hfront]; omega)]
    rfl
  have hroom : 3 + (data.length + 9) ≤
      (sectionFront tid id data ++ crc ++ List.replicate n 0xff).length := by
    rw [List.length_append, List.length_append, hfront, hcrc]
    omega
  have hget : ∀ i, i < 8 →
      (sectionFront tid id data ++ crc ++ List.replicate n 0xff).getD i 0 =
        [tid, UInt8.ofNat (0xb0 + (data.length + 9) / 256), UInt8.ofNat (data.length + 9),
          UInt8.ofNat (id / 256), UInt8.ofNat id, 0xc3, 0, 0].getD i 0 := by
    intro i hi
    unfold sectionFront
    rw [List.append_assoc, List.append_assoc, List.getD_append _ _ _ _ hi]
  unfold readSection
  simp only [hget 0 (by decide), hget 1 (by decide), hget 2 (by decide), hget 3 (by decide),
    hget 4 (by decide), hget 5 (by decide), hget 6 (by decide), hget 7 (by decide),
    List.getD_cons_succ, List.getD_cons_zero, hlength, hwhole, hstuffing, hdata, hidread]
  exact if_pos ⟨hmark, by omega, by omega, hroom, rfl, rfl, rfl, hchecked,
    by rw [List.all_replicate]; simp⟩

/-- The length that a section says it has. -/
def sectionLength (bytes : Bytes) : Nat :=
  (bytes.getD 1 0).toNat % 16 * 256 + (bytes.getD 2 0).toNat

theorem sectionLength_front (tid : UInt8) (id : Nat) {data : Bytes} (hlen : data.length ≤ 1012)
    (crc : Bytes) : sectionLength (sectionFront tid id data ++ crc) = data.length + 9 := by
  show (UInt8.ofNat (0xb0 + (data.length + 9) / 256)).toNat % 16 * 256 +
    (UInt8.ofNat (data.length + 9)).toNat = data.length + 9
  rw [UInt8.toNat_ofNat', UInt8.toNat_ofNat']
  omega

/-- What leaves a remainder is not taken. -/
theorem readSection_none {bytes : Bytes}
    (h : crcRemainder (bytes.take (3 + sectionLength bytes)) ≠ 0) : readSection bytes = none := by
  unfold readSection
  refine if_neg ?_
  rintro ⟨-, -, -, -, -, -, -, hcrc, -⟩
  exact h hcrc

/-- **No damaged table is taken**: up to four bytes in a row that are changed anywhere in a section,
its checksum included, leave a remainder, unless they change the length. A changed length would make
the reader take other bytes for the checksum, which says nothing about the ones that are meant; the
padding behind the section may be of any length. -/
theorem section_damaged (tid : UInt8) (id : Nat) (data buf : Bytes)
    (hbuf : sectionBytes tid id data = some buf) (pre bs cs post : Bytes)
    (hparts : buf = pre ++ bs ++ post) (hsize : bs.length = cs.length) (hburst : bs.length ≤ 4)
    (hne : bs ≠ cs) (hlength : sectionLength (pre ++ cs ++ post) = sectionLength buf) (n : Nat) :
    readSection (pre ++ cs ++ post ++ List.replicate n 0xff) = none := by
  have hlen : data.length ≤ 1012 := by
    unfold sectionBytes at hbuf
    by_contra hlong
    rw [if_pos (by omega)] at hbuf
    cases hbuf
  rw [sectionBytes_eq tid id hlen] at hbuf
  have hbytes := Option.some.inj hbuf
  have hzero : crcRemainder buf = 0#32 := by
    rw [← hbytes]
    exact crcRemainder_checked _
  have hsame : sectionLength buf = data.length + 9 := by
    rw [← hbytes]
    exact sectionLength_front tid id hlen _
  have hfront : buf.length = 3 + (data.length + 9) := by
    rw [← hbytes, List.length_append, length_be]
    simp [sectionFront]
    omega
  have hwhole : (pre ++ cs ++ post).length = buf.length := by
    rw [hparts]
    simp [hsize]
  have hread : sectionLength (pre ++ cs ++ post ++ List.replicate n 0xff) = data.length + 9 := by
    rw [← hsame, ← hlength]
    unfold sectionLength
    rw [List.getD_append _ _ _ 1 (by omega), List.getD_append _ _ _ 2 (by omega)]
  refine readSection_none ?_
  rw [hread, List.take_left' (by omega)]
  intro hdamaged
  have hdiffer := Crc.remainder_ne crcPoly (by decide) (BitVec.allOnes 32) pre post hsize
    (by omega) hne
  rw [hparts] at hzero
  exact hdiffer (hzero.trans hdamaged.symm)

/-- The association table, with another identifier where the program is said to be. -/
theorem section_damaged_once :
    readSection [0x00, 0xb0, 0x0d, 0x00, 0x00, 0xc3, 0x00, 0x00, 0x00, 0x01, 0xe1, 0x08, 0x2d, 0xf6,
      0x52, 0x95, 0xff, 0xff] = none :=
  section_damaged 0 0 [0x00, 0x01, 0xe1, 0x00] _ (sectionBytes_eq 0 0 (by decide))
    [0x00, 0xb0, 0x0d, 0x00, 0x00, 0xc3, 0x00, 0x00, 0x00, 0x01, 0xe1] [0x00] [0x08]
    [0x2d, 0xf6, 0x52, 0x95] (by decide +kernel) rfl (by decide) (by decide) (by decide +kernel) 2

/-! ## Packets -/

/-- A packet that begins a unit. -/
def startsUnit (p : TsPacket) : Bool := unitStart p.bytes

/-- The section in the packets of a unit; the pointer field says where it begins. -/
def readSectionUnit (u : List TsPacket) : Option Section :=
  (tsPayloads (u.map TsPacket.bytes)).bind fun p => readSection ((p.drop 1).drop (p.getD 0 0).toNat)

theorem readsPes_sectionPacket {pid cc : Nat} (hpid : pid < 2 ^ 13) (hcc : cc < 16) (first : Bool)
    (buf : Bytes) : ∃ n, ReadsPes pid first
      ((if first then [0] else []) ++ buf.take (sectionRoom first) ++ List.replicate n 0xff)
      (sectionPacket pid first cc buf).bytes ∧ (sectionRoom first ≤ buf.length → n = 0) := by
  have hhead : tsPacketSize - (header pid first cc 0 ++ if first then [0] else []).length =
      sectionRoom first := by
    cases first <;> rfl
  refine ⟨sectionRoom first - (buf.take (sectionRoom first)).length, ⟨?_, rfl, ?_, ?_, ?_⟩, ?_⟩
  · exact (sectionPacket pid first cc buf).length_eq
  · exact (reads_sectionPacket first buf hpid hcc).pid
  · exact header_unitStart ⟨pid / 256, by omega⟩ first
  · have hread := @tsPayload_adaptation pid cc 0 first
      ((if first then [0] else []) ++ buf.take (sectionRoom first) ++
        List.replicate (sectionRoom first - (buf.take (sectionRoom first)).length) 0xff) hcc
      (by decide)
    rw [← hread]
    show tsPayload (_ ++ _ ++ _) = _
    rw [hhead]
    simp [adaptation]
  · intro hle
    rw [List.length_take]
    omega

/-- Stuffing only stands where nothing follows but stuffing. -/
theorem take_stuffing_drop {r m : Nat} (buf : Bytes) (k : Nat) (hm : r ≤ buf.length → m = 0) :
    ∃ k', buf.take r ++ List.replicate m (0xff : UInt8) ++ (buf.drop r ++ List.replicate k 0xff) =
      buf ++ List.replicate k' 0xff := by
  rcases Nat.lt_or_ge buf.length r with hlt | hge
  · refine ⟨m + k, ?_⟩
    rw [List.take_of_length_le (Nat.le_of_lt hlt), List.drop_eq_nil_of_le (Nat.le_of_lt hlt),
      List.nil_append, List.append_assoc, ← List.replicate_add]
  · refine ⟨k, ?_⟩
    rw [hm hge, List.replicate_zero, List.append_nil, ← List.append_assoc, List.take_append_drop]

/-- **The packets behind the first** have what is left of a section, and stuffing. -/
theorem continued_sectionPackets {pid : Nat} (hpid : pid < 2 ^ 13) (n cc : Nat) (buf : Bytes)
    (hn : buf.length ≤ n) :
    ∃ k, Continued pid (buf ++ List.replicate k 0xff)
      ((sectionPackets pid n false cc buf).1.map TsPacket.bytes) := by
  induction n generalizing cc buf with
  | zero =>
    obtain rfl := List.eq_nil_of_length_eq_zero (Nat.le_zero.mp hn)
    exact ⟨0, by simp [sectionPackets], rfl⟩
  | succ n ih =>
    unfold sectionPackets
    split
    · rename_i hnil
      subst hnil
      exact ⟨0, by simp, rfl⟩
    · rename_i hne
      have hpos : 0 < buf.length := List.length_pos_of_ne_nil hne
      have hroom : sectionRoom false = 184 := rfl
      obtain ⟨m, hfirst, hm⟩ := readsPes_sectionPacket hpid
        (Nat.mod_lt (cc + 1) (by decide : 0 < 16)) false buf
      obtain ⟨k, hrest⟩ := ih ((cc + 1) % 16) (buf.drop (sectionRoom false)) (by
        rw [List.length_drop, hroom]
        omega)
      obtain ⟨k', hk'⟩ := take_stuffing_drop buf k hm
      refine ⟨k', ?_, ?_⟩
      · intro p hp
        rcases List.mem_cons.mp hp with rfl | hp
        · exact ⟨_, hfirst⟩
        · exact hrest.reads p hp
      · show tsPayloads (_ :: _) = _
        rw [tsPayloads, hfirst.payload, hrest.payloads]
        exact congrArg some hk'

/-- **A table is read back** from its packets, whatever the counter of the section is. -/
theorem readSectionUnit_sectionPackets {pid : Nat} (hpid : pid < 2 ^ 13) (cc : Nat) (tid : UInt8)
    {id : Nat} (hid : id < 2 ^ 16) {data buf : Bytes} (hlen : data.length ≤ 1012)
    (hbuf : sectionBytes tid id data = some buf) :
    IsUnit startsUnit (sectionPackets pid buf.length true cc buf).1 ∧
      readSectionUnit (sectionPackets pid buf.length true cc buf).1 = some ⟨tid, id, data⟩ := by
  rw [sectionBytes_eq tid id hlen] at hbuf
  have hbytes := Option.some.inj hbuf
  have hne : buf ≠ [] := by
    rw [← hbytes]
    exact List.cons_ne_nil _ _
  obtain ⟨n, hn⟩ := Nat.exists_eq_succ_of_ne_zero (List.length_pos_of_ne_nil hne).ne'
  have hroom : sectionRoom true = 183 := rfl
  obtain ⟨m, hfirst, hm⟩ := readsPes_sectionPacket hpid (Nat.mod_lt (cc + 1) (by decide : 0 < 16))
    true buf
  obtain ⟨k, hrest⟩ := continued_sectionPackets hpid n ((cc + 1) % 16)
    (buf.drop (sectionRoom true)) (by
      rw [List.length_drop, hroom]
      omega)
  obtain ⟨k', hk'⟩ := take_stuffing_drop buf k hm
  have hpackets : (sectionPackets pid buf.length true cc buf).1 =
      sectionPacket pid true ((cc + 1) % 16) buf ::
        (sectionPackets pid n false ((cc + 1) % 16) (buf.drop (sectionRoom true))).1 := by
    rw [hn, sectionPackets, if_neg hne]
  have hpayloads : tsPayloads ((sectionPackets pid buf.length true cc buf).1.map TsPacket.bytes) =
      some (0 :: (buf ++ List.replicate k' 0xff)) := by
    rw [hpackets, List.map_cons, tsPayloads, hfirst.payload, hrest.payloads, ← hk']
    rfl
  constructor
  · rw [hpackets]
    refine ⟨_, _, rfl, hfirst.start, ?_⟩
    intro p hp
    obtain ⟨part, hreads⟩ := hrest.reads _ (List.mem_map_of_mem hp)
    exact hreads.start
  · unfold readSectionUnit
    rw [hpayloads, Option.bind_some]
    show readSection (buf ++ List.replicate k' 0xff) = _
    rw [← hbytes]
    exact readSection_front tid hid hlen k'

end Maixii.Muxer
