import Maixii.Lib.Boxes
import Maixii.Mp4.Avc

/-!
# `Mp4/NalUnits.lean`: NAL units with their sizes

`ff_avc_parse_nal_units` of `mp4_muxer/avc.c` cuts a buffer at its start codes and writes every NAL
unit with its size in front; `ff_isom_write_avcc` looks there for the parameter sets, and
`FFIsomGetAvccSize` says beforehand how long the record will be. `NalUnit` is what an encoder makes,
and `nal_units_prefixed` says what comes out, as long as the buffer lasts: it has 1024 bytes more
than the data, and every start code of three bytes takes one of them.

Memory that was never set, or is not there, has no result.
-/

set_option autoImplicit false

namespace Maixii.Mp4

open Maixii.Lib

/-! ## The code -/

section

variable (buf : Bytes)

/-- `while (nal_start < end && !*(nal_start++));` over `n` places. -/
def skipZeros : Nat → Nat → Option Nat
  | 0, p => some p
  | n + 1, p => buf[p]?.bind fun b => if b = 0 then skipZeros n (p + 1) else some (p + 1)

/-- The loop of `ff_avc_parse_nal_units`; `room` bytes can be written. -/
def nalLoop (addr room : Nat) : Nat → Nat → Bytes → Option Bytes
  | 0, _, _ => none
  | fuel + 1, p, out =>
    (skipZeros buf (buf.length - p) p).bind fun nalStart =>
      if nalStart = buf.length then some out
      else (ffAvcFindStartcode buf addr nalStart buf.length).bind fun nalEnd =>
        let nalSize := nalEnd - nalStart
        let out' := out ++ putBe32 nalSize ++ readAt buf nalStart nalSize
        if out'.length ≤ room then nalLoop addr room fuel nalEnd out' else none

/-- `ff_avc_parse_nal_units`. -/
def ffAvcParseNalUnits (addr room : Nat) : Option Bytes :=
  (ffAvcFindStartcode buf addr 0 buf.length).bind fun nalStart =>
    nalLoop buf addr room (buf.length + 1) nalStart []

/-- `ff_avc_parse_nal_units_buf`; there is memory. `*size + 1024` is an `int`, and there is no result
where it overflows. -/
def ffAvcParseNalUnitsBuf (addr : Nat) : Option Bytes :=
  if buf.length + 1024 < 2 ^ 31 then ffAvcParseNalUnits buf addr (buf.length + 1024) else none

end

/-- `sps` and `pps`, pointers that may be null. -/
structure ParameterSets where
  sps : Option Bytes
  pps : Option Bytes

/-- A unit is looked at: 7 is SPS, 8 is PPS. -/
def ParameterSets.note (sets : ParameterSets) (nalType : UInt8) (unit : Bytes) : ParameterSets :=
  if nalType = 7 then { sets with sps := some unit }
  else if nalType = 8 then { sets with pps := some unit }
  else sets

/-- `AV_RB32`. -/
def avRb32 (s : Bytes) : Nat := fromBE (s.take 4)

/-- `AV_RB24`. -/
def avRb24 (s : Bytes) : Nat := fromBE (s.take 3)

/-- `while (end - buf > 4)` of `ff_isom_write_avcc`. -/
def findSets : Nat → Bytes → ParameterSets → Option ParameterSets
  | 0, _, _ => none
  | fuel + 1, buf, sets =>
    if buf.length ≤ 4 then some sets
    else
      let size := min (avRb32 buf) (buf.length - 4)
      let rest := buf.drop 4
      rest.head?.bind fun b =>
        findSets fuel (rest.drop size) (sets.note (b &&& 0x1f) (rest.take size))

/-- `put_be16_cache`. -/
def putBe16 (v : Nat) : Bytes := [UInt8.ofNat (v / 256), UInt8.ofNat v]

/-- What is written for the parameter sets. -/
def avccRecord (sps pps : Bytes) : Bytes :=
  [1, sps.getD 1 0, sps.getD 2 0, sps.getD 3 0, 0xff, 0xe1] ++ putBe16 sps.length ++ sps ++ [1] ++
    putBe16 pps.length ++ pps

/-- An error writes nothing. -/
def ParameterSets.record (sets : ParameterSets) : Bytes :=
  (sets.sps.bind fun sps => sets.pps.bind fun pps =>
    if sps.length < 4 ∨ 65535 < sps.length ∨ 65535 < pps.length then none
    else some (avccRecord sps pps)).getD []

/-- `ff_isom_write_avcc`: what it writes. -/
def ffIsomWriteAvcc (data : Bytes) (addr : Nat) : Option Bytes :=
  if data.length ≤ 6 then some []
  else if avRb32 data = 1 ∨ avRb24 data = 1 then
    (ffAvcParseNalUnitsBuf data addr).bind fun buf =>
      (findSets (buf.length + 1) buf ⟨none, none⟩).map ParameterSets.record
  else some data

/-- `sps_size` and `pps_size`. -/
structure SetSizes where
  spsSize : Nat
  ppsSize : Nat

/-- The sizes are noted in the same way. -/
def SetSizes.note (sizes : SetSizes) (nalType : UInt8) (size : Nat) : SetSizes :=
  if nalType = 7 then { sizes with spsSize := size }
  else if nalType = 8 then { sizes with ppsSize := size }
  else sizes

/-- `while (buf < end)` of `FFIsomGetAvccSize`. -/
def findSizes : Nat → Bytes → SetSizes → Option SetSizes
  | 0, _, _ => none
  | fuel + 1, buf, sizes =>
    if buf = [] then some sizes
    else
      let size := avRb32 buf
      buf[4]?.bind fun b => findSizes fuel (buf.drop (size + 4)) (sizes.note (b &&& 0x1f) size)

/-- `FFIsomGetAvccSize`. -/
def ffIsomGetAvccSize (data : Bytes) (addr : Nat) : Option Nat :=
  if data.length ≤ 6 then some 0
  else if avRb32 data = 1 then
    (ffAvcParseNalUnitsBuf data addr).bind fun buf =>
      (findSizes (buf.length + 1) buf ⟨0, 0⟩).map fun sizes =>
        6 + 2 + sizes.spsSize + 1 + 2 + sizes.ppsSize
  else some data.length

/-! ## NAL units of an encoder -/

/-- **A NAL unit behind its start code**: it has no start code inside, and its last byte is not
zero. -/
structure NalUnit where
  zeros : Nat
  data : Bytes
  zeros_mem : zeros = 2 ∨ zeros = 3
  last_ne : ∃ b ∈ data.getLast?, b ≠ 0
  plain : ∀ i, i < data.length → ¬ CodeAt data i

/-- The bytes of the encoder. -/
def NalUnit.bytes (u : NalUnit) : Bytes := List.replicate u.zeros 0 ++ 1 :: u.data

/-- NAL units with start codes. -/
def annexB (us : List NalUnit) : Bytes := us.flatMap NalUnit.bytes

/-- NAL units with their sizes. -/
def lengthPrefixed (us : List NalUnit) : Bytes :=
  us.flatMap fun u => putBe32 u.data.length ++ u.data

/-- `nal_type`. -/
def NalUnit.nalType (u : NalUnit) : UInt8 := u.data.headD 0 &&& 0x1f

/-- The last of the units with this type. -/
def lastOf (t : UInt8) (us : List NalUnit) : Option Bytes :=
  (us.filter fun u => u.nalType == t).getLast?.map NalUnit.data

theorem NalUnit.data_ne (u : NalUnit) : u.data ≠ [] := by
  intro hnil
  obtain ⟨b, hb, -⟩ := u.last_ne
  rw [hnil] at hb
  simp at hb

theorem NalUnit.data_pos (u : NalUnit) : 0 < u.data.length := List.length_pos_of_ne_nil u.data_ne

theorem NalUnit.length_bytes (u : NalUnit) : u.bytes.length = u.zeros + 1 + u.data.length := by
  rw [NalUnit.bytes, List.length_append, List.length_replicate, List.length_cons]
  omega

theorem NalUnit.last_byte (u : NalUnit) : u.data[u.data.length - 1]? ≠ some 0 := by
  obtain ⟨b, hb, hne⟩ := u.last_ne
  rw [List.getLast?_eq_getElem?] at hb
  intro hzero
  exact hne (Option.some.inj (hb.symm.trans hzero))

/-! ## Where a start code is found -/

section

variable {buf rest data : Bytes} {p k i : Nat}

theorem codeAt_drop : CodeAt buf (p + i) ↔ CodeAt (buf.drop p) i := by
  unfold CodeAt
  rw [List.getElem?_drop, List.getElem?_drop, List.getElem?_drop, Nat.add_assoc, Nat.add_assoc]

theorem not_codeAt_of_le (h : data.length ≤ i) : ¬ CodeAt data i := by
  intro hcode
  have hnone : data[i]? = none := List.getElem?_eq_none h
  rw [CodeAt, hnone] at hcode
  cases hcode.1

/-- **In front of the next start code there is none.** -/
theorem not_codeAt_before (u : NalUnit) (hi : i < u.data.length + k - 2) :
    ¬ CodeAt (u.data ++ (List.replicate k 0 ++ 1 :: rest)) i := by
  rintro ⟨h0, h1, h2⟩
  by_cases hin : i + 2 < u.data.length
  · refine u.plain i (by omega) ?_
    rw [List.getElem?_append_left (by omega)] at h0 h1 h2
    exact ⟨h0, h1, h2⟩
  by_cases hout : u.data.length ≤ i
  · -- The third byte is one of the zeros.
    rw [List.getElem?_append_right (by omega), List.getElem?_append_left (by simp; omega),
      List.getElem?_replicate, if_pos (by omega)] at h2
    exact absurd h2 (by decide)
  · -- The last byte of the unit is one of the first two.
    have hpos := u.data_pos
    have hlast : u.data[u.data.length - 1]? = some 0 := by
      rcases (show u.data.length - 1 = i ∨ u.data.length - 1 = i + 1 by omega) with heq | heq
      · rw [heq]
        rwa [List.getElem?_append_left (by omega)] at h0
      · rw [heq]
        rwa [List.getElem?_append_left (by omega)] at h1
    exact u.last_byte hlast

theorem codeAt_zeros (hk : 2 ≤ k) :
    CodeAt (data ++ (List.replicate k 0 ++ 1 :: rest)) (data.length + k - 2) := by
  have hzero : ∀ j, j < k →
      (data ++ (List.replicate k (0 : UInt8) ++ 1 :: rest))[data.length + j]? = some 0 := by
    intro j hj
    rw [List.getElem?_append_right (Nat.le_add_right _ _), Nat.add_sub_cancel_left,
      List.getElem?_append_left (by rwa [List.length_replicate]), List.getElem?_replicate,
      if_pos hj]
  refine ⟨?_, ?_, ?_⟩
  · rw [show data.length + k - 2 = data.length + (k - 2) by omega]
    exact hzero _ (by omega)
  · rw [show data.length + k - 2 + 1 = data.length + (k - 1) by omega]
    exact hzero _ (by omega)
  · rw [show data.length + k - 2 + 2 = data.length + k by omega,
      List.getElem?_append_right (Nat.le_add_right _ _), Nat.add_sub_cancel_left,
      List.getElem?_append_right (by rw [List.length_replicate]), List.length_replicate,
      Nat.sub_self]
    rfl

/-- **A unit ends where the next start code begins.** -/
theorem find_next {u v : NalUnit} (addr : Nat) (hp : p ≤ buf.length)
    (hdrop : buf.drop p = u.data ++ (v.bytes ++ rest)) :
    ffAvcFindStartcode buf addr p buf.length = some (p + u.data.length) := by
  have hbytes : buf.drop p = u.data ++ (List.replicate v.zeros 0 ++ 1 :: (v.data ++ rest)) := by
    rw [hdrop, NalUnit.bytes, List.append_assoc, List.cons_append]
  have hlen := congrArg List.length hbytes
  simp only [List.length_drop, List.length_append, List.length_replicate, List.length_cons] at hlen
  have hv := v.data_pos
  have hu := u.data_pos
  have hk : 2 ≤ v.zeros := by
    rcases v.zeros_mem with h | h <;> omega
  have hfirst : firstStartcode buf p buf.length = p + (u.data.length + v.zeros - 2) := by
    refine firstStartcode_eq (Nat.le_add_right _ _) (by omega) ?_ ?_
    · rw [codeAt_drop, hbytes]
      exact codeAt_zeros hk
    · intro j hj hlt
      obtain ⟨i, rfl⟩ := Nat.exists_eq_add_of_le hj
      rw [codeAt_drop, hbytes]
      exact not_codeAt_before u (by omega)
  have hbefore : ∀ j, buf[p + j]? =
      (u.data ++ (List.replicate v.zeros 0 ++ 1 :: (v.data ++ rest)))[j]? := by
    intro j
    rw [← hbytes, List.getElem?_drop]
  rw [ffAvcFindStartcode_eq addr (Nat.le_refl _), hfirst]
  rcases v.zeros_mem with hz | hz
  · -- In front of three bytes there is the last byte of the unit.
    have hprev : buf[p + (u.data.length + v.zeros - 2) - 1]? ≠ some 0 := by
      rw [show p + (u.data.length + v.zeros - 2) - 1 = p + (u.data.length - 1) by omega, hbefore,
        List.getElem?_append_left (by omega)]
      exact u.last_byte
    rw [if_neg fun hc => hprev hc.2.2]
    exact congrArg some (by omega)
  · have hprev : buf[p + (u.data.length + v.zeros - 2) - 1]? = some 0 := by
      rw [show p + (u.data.length + v.zeros - 2) - 1 = p + (u.data.length + 0) by omega, hbefore,
        List.getElem?_append_right (Nat.le_add_right _ _), Nat.add_sub_cancel_left,
        List.getElem?_append_left (by rw [List.length_replicate]; omega), List.getElem?_replicate,
        if_pos (by omega)]
    rw [if_pos ⟨by omega, by omega, hprev⟩]
    exact congrArg some (by omega)

/-- The last unit ends with the buffer. -/
theorem find_last {u : NalUnit} (addr : Nat) (hp : p ≤ buf.length) (hdrop : buf.drop p = u.data) :
    ffAvcFindStartcode buf addr p buf.length = some (p + u.data.length) := by
  have hlen := congrArg List.length hdrop
  rw [List.length_drop] at hlen
  have hnone : firstStartcode buf p buf.length = buf.length := by
    refine firstStartcode_none ?_
    intro j hj _
    obtain ⟨i, rfl⟩ := Nat.exists_eq_add_of_le hj
    rw [codeAt_drop, hdrop]
    by_cases hi : i < u.data.length
    · exact u.plain i hi
    · exact not_codeAt_of_le (Nat.le_of_not_lt hi)
  rw [ffAvcFindStartcode_eq addr (Nat.le_refl _), hnone, if_neg fun hc => Nat.lt_irrefl _ hc.2.1]
  exact congrArg some (by omega)

/-- The search begins with the first start code. -/
theorem find_first {v : NalUnit} (addr : Nat) (hbuf : buf = v.bytes ++ rest) :
    ffAvcFindStartcode buf addr 0 buf.length = some 0 := by
  have hbytes : buf = [] ++ (List.replicate v.zeros 0 ++ 1 :: (v.data ++ rest)) := by
    rw [hbuf, NalUnit.bytes, List.append_assoc, List.cons_append, List.nil_append]
  have hlen := congrArg List.length hbytes
  simp only [List.length_append, List.length_replicate, List.length_cons, List.length_nil] at hlen
  have hv := v.data_pos
  have hzero : ∀ j, j < v.zeros → buf[j]? = some 0 := by
    intro j hj
    rw [hbytes, List.nil_append, List.getElem?_append_left (by rwa [List.length_replicate]),
      List.getElem?_replicate, if_pos hj]
  have hk : 2 ≤ v.zeros := by
    rcases v.zeros_mem with h | h <;> omega
  have hfirst : firstStartcode buf 0 buf.length = v.zeros - 2 := by
    refine firstStartcode_eq (Nat.zero_le _) (by omega) ?_ ?_
    · rw [hbytes]
      have hcode : CodeAt ([] ++ (List.replicate v.zeros 0 ++ 1 :: (v.data ++ rest)))
          (([] : Bytes).length + v.zeros - 2) := codeAt_zeros hk
      rwa [List.length_nil, Nat.zero_add] at hcode
    · intro j _ hlt hcode
      have hthird := hzero (j + 2) (by omega)
      exact absurd (hthird.symm.trans hcode.2.2) (by decide)
  rw [ffAvcFindStartcode_eq addr (Nat.le_refl _), hfirst]
  rcases v.zeros_mem with hz | hz
  · rw [if_neg fun hc => absurd hc.1 (by omega)]
    exact congrArg some (by omega)
  · rw [if_pos ⟨by omega, by omega, hzero _ (by omega)⟩]
    exact congrArg some (by omega)

/-- The zeros and the one are skipped. -/
theorem skipZeros_eq (hdrop : buf.drop p = List.replicate k 0 ++ 1 :: rest) :
    skipZeros buf (buf.length - p) p = some (p + k + 1) := by
  have hlen := congrArg List.length hdrop
  simp only [List.length_drop, List.length_append, List.length_replicate, List.length_cons] at hlen
  obtain ⟨n, hn⟩ : ∃ n, buf.length - p = n + (k + 1) := ⟨rest.length, by omega⟩
  rw [hn]
  clear hlen hn
  induction k generalizing p n with
  | zero =>
    have hone : buf[p]? = some 1 := by
      have hhead := congrArg List.head? hdrop
      rwa [List.head?_drop] at hhead
    rw [skipZeros, hone]
    rfl
  | succ k ih =>
    have hzero : buf[p]? = some 0 := by
      have hhead := congrArg List.head? hdrop
      rwa [List.head?_drop] at hhead
    have htail : buf.drop (p + 1) = List.replicate k 0 ++ 1 :: rest := by
      have htl := congrArg List.tail hdrop
      rwa [List.tail_drop] at htl
    have hnext := ih htail n
    rw [show n + (k + 1 + 1) = n + (k + 1) + 1 by omega, skipZeros, hzero, Option.bind_some,
      if_pos rfl, hnext]
    exact congrArg some (by omega)

end

/-! ## The units with their sizes -/

theorem length_lengthPrefixed_cons (u : NalUnit) (us : List NalUnit) :
    (lengthPrefixed (u :: us)).length = 4 + u.data.length + (lengthPrefixed us).length := by
  rw [lengthPrefixed, List.flatMap_cons, List.length_append, List.length_append, length_putBe32]
  rfl

theorem annexB_cons (u : NalUnit) (us : List NalUnit) :
    annexB (u :: us) = u.bytes ++ annexB us := List.flatMap_cons ..

/-- **The loop writes the units that are left**, until the buffer is full. -/
theorem nalLoop_eq {buf : Bytes} (addr room : Nat) {us : List NalUnit} {fuel p : Nat} {out : Bytes}
    (hp : p ≤ buf.length) (hdrop : buf.drop p = annexB us) (hfuel : us.length < fuel)
    (hout : out.length ≤ room) :
    nalLoop buf addr room fuel p out =
      if (out ++ lengthPrefixed us).length ≤ room then some (out ++ lengthPrefixed us) else none := by
  induction us generalizing fuel p out with
  | nil =>
    obtain ⟨fuel, rfl⟩ : ∃ k, fuel = k + 1 := Nat.exists_eq_succ_of_ne_zero (by omega)
    have hend : p = buf.length := by
      have hlen := congrArg List.length hdrop
      rw [List.length_drop, annexB, List.flatMap_nil, List.length_nil] at hlen
      omega
    rw [nalLoop, hend, Nat.sub_self, skipZeros, Option.bind_some, if_pos rfl, lengthPrefixed,
      List.flatMap_nil, List.append_nil, if_pos hout]
  | cons u us ih =>
    obtain ⟨fuel, rfl⟩ : ∃ k, fuel = k + 1 := Nat.exists_eq_succ_of_ne_zero (by omega)
    have hunit : buf.drop p = List.replicate u.zeros 0 ++ 1 :: (u.data ++ annexB us) := by
      rw [hdrop, annexB_cons, NalUnit.bytes, List.append_assoc, List.cons_append]
    have hlen := congrArg List.length hunit
    simp only [List.length_drop, List.length_append, List.length_replicate, List.length_cons] at hlen
    have hpos := u.data_pos
    generalize hq : p + u.zeros + 1 = q
    have hdata : buf.drop q = u.data ++ annexB us := by
      rw [← hq, Nat.add_assoc, ← List.drop_drop, hunit, List.drop_append, List.length_replicate,
        List.drop_eq_nil_of_le (by rw [List.length_replicate]; omega), Nat.add_sub_cancel_left]
      rfl
    have hend : ffAvcFindStartcode buf addr q buf.length = some (q + u.data.length) := by
      cases us with
      | nil =>
        refine find_last addr (by omega) ?_
        rw [hdata, annexB, List.flatMap_nil, List.append_nil]
      | cons v vs => exact find_next addr (by omega) (hdata.trans (by rw [annexB_cons]))
    have hread : readAt buf q u.data.length = u.data := by
      rw [readAt, hdata, List.take_left]
    have hnext : buf.drop (q + u.data.length) = annexB us := by
      rw [← List.drop_drop, hdata, List.drop_left]
    rw [nalLoop, skipZeros_eq hunit, Option.bind_some, hq, if_neg (by omega), hend, Option.bind_some]
    dsimp only
    rw [Nat.add_sub_cancel_left, hread]
    have hall : out ++ lengthPrefixed (u :: us) =
        out ++ putBe32 u.data.length ++ u.data ++ lengthPrefixed us := by
      rw [lengthPrefixed, List.flatMap_cons]
      simp only [List.append_assoc]
      rfl
    by_cases hroom : (out ++ putBe32 u.data.length ++ u.data).length ≤ room
    · rw [if_pos hroom, ih (by omega) hnext (Nat.lt_of_succ_lt_succ hfuel) hroom, hall]
    · have hmore : ¬ (out ++ lengthPrefixed (u :: us)).length ≤ room := by
        rw [hall, List.length_append]
        omega
      rw [if_neg hroom, if_neg hmore]

/-- The start codes of three bytes. -/
def shortCodes (us : List NalUnit) : Nat := us.countP fun u => u.zeros == 2

/-- A start code of three bytes is shorter than a size. -/
theorem length_lengthPrefixed (us : List NalUnit) :
    (lengthPrefixed us).length = (annexB us).length + shortCodes us := by
  induction us with
  | nil => rfl
  | cons u us ih =>
    rw [length_lengthPrefixed_cons, annexB_cons, List.length_append, u.length_bytes, ih, shortCodes,
      shortCodes, List.countP_cons]
    rcases u.zeros_mem with h | h
    · rw [h]
      simp
      omega
    · rw [h]
      simp
      omega

theorem length_le_annexB (us : List NalUnit) : us.length ≤ (annexB us).length := by
  induction us with
  | nil => exact Nat.zero_le _
  | cons u us ih =>
    rw [annexB_cons, List.length_append, List.length_cons, u.length_bytes]
    have := u.data_pos
    omega

theorem parseNalUnits_eq (us : List NalUnit) (addr : Nat) :
    ffAvcParseNalUnitsBuf (annexB us) addr =
      if (annexB us).length + 1024 < 2 ^ 31 ∧ shortCodes us ≤ 1024 then some (lengthPrefixed us)
      else none := by
  have hstart : ffAvcFindStartcode (annexB us) addr 0 (annexB us).length = some 0 := by
    cases us with
    | nil => rw [ffAvcFindStartcode_eq addr (Nat.le_refl _)]; rfl
    | cons u us => exact find_first addr (annexB_cons u us)
  have hloop : nalLoop (annexB us) addr ((annexB us).length + 1024) ((annexB us).length + 1) 0 [] =
      _ := nalLoop_eq addr _ (Nat.zero_le _) List.drop_zero
        (Nat.lt_succ_of_le (length_le_annexB us)) (Nat.zero_le _)
  rw [List.nil_append, length_lengthPrefixed] at hloop
  rw [ffAvcParseNalUnitsBuf]
  by_cases hint : (annexB us).length + 1024 < 2 ^ 31
  · rw [if_pos hint, ffAvcParseNalUnits, hstart, Option.bind_some, hloop]
    by_cases hroom : shortCodes us ≤ 1024
    · rw [if_pos (by omega), if_pos ⟨hint, hroom⟩]
    · rw [if_neg (by omega), if_neg fun h => hroom h.2]
  · rw [if_neg hint, if_neg fun h => hint h.1]

/-- **What is written for the NAL units of an encoder**: every unit with its size in front, at any
address of the buffer, unless there are more start codes of three bytes than the buffer has bytes to
spare. A start code of three bytes is one shorter than the size that takes its place, so each takes
one of the 1024; one of four bytes takes none. With 1024 bytes less than an `int` can say there is
no buffer to begin with. -/
theorem nal_units_prefixed (us : List NalUnit) (addr : Nat) :
    ffAvcParseNalUnitsBuf (annexB us) addr =
      if (annexB us).length + 1024 < 2 ^ 31 ∧ shortCodes us ≤ 1024 then some (lengthPrefixed us)
      else none :=
  parseNalUnits_eq us addr

/-! ## The parameter sets -/

theorem putBe32_eq (v : Nat) : putBe32 v = be 4 v := by
  simp only [putBe32, be, le, List.reverse_cons, List.reverse_nil, List.nil_append,
    List.cons_append, Nat.div_div_eq_div_mul]
  rfl

theorem avRb32_putBe32 {v : Nat} (h : v < 2 ^ 32) (s : Bytes) : avRb32 (putBe32 v ++ s) = v := by
  rw [avRb32, List.take_append_of_le_length (by rw [length_putBe32]),
    List.take_of_length_le (by rw [length_putBe32]), putBe32_eq, fromBE_be h]

theorem lastOf_snoc (t : UInt8) (us : List NalUnit) (u : NalUnit) :
    lastOf t (us ++ [u]) = if u.nalType = t then some u.data else lastOf t us := by
  rw [lastOf, List.filter_append, lastOf]
  by_cases h : u.nalType = t
  · simp [h]
  · simp [h]

/-- What is noted of the units. -/
def noted (us : List NalUnit) : ParameterSets := ⟨lastOf 7 us, lastOf 8 us⟩

def notedSizes (us : List NalUnit) : SetSizes :=
  ⟨((lastOf 7 us).map List.length).getD 0, ((lastOf 8 us).map List.length).getD 0⟩

theorem note_noted (us : List NalUnit) (u : NalUnit) :
    (noted us).note u.nalType u.data = noted (us ++ [u]) := by
  unfold noted ParameterSets.note
  rw [lastOf_snoc, lastOf_snoc]
  by_cases h7 : u.nalType = 7
  · simp only [h7, if_true]
    rfl
  · by_cases h8 : u.nalType = 8
    · simp only [h8, if_true]
      rfl
    · simp only [if_neg h7, if_neg h8]

theorem note_notedSizes (us : List NalUnit) (u : NalUnit) :
    (notedSizes us).note u.nalType u.data.length = notedSizes (us ++ [u]) := by
  unfold notedSizes SetSizes.note
  rw [lastOf_snoc, lastOf_snoc]
  by_cases h7 : u.nalType = 7
  · simp only [h7, if_true]
    rfl
  · by_cases h8 : u.nalType = 8
    · simp only [h8, if_true]
      rfl
    · simp only [if_neg h7, if_neg h8]

/-- The first byte of the first unit, behind its size. -/
theorem head_lengthPrefixed (u : NalUnit) (s : Bytes) :
    (putBe32 u.data.length ++ u.data ++ s)[4]? = some (u.data.headD 0) := by
  have hne := u.data_ne
  rw [List.append_assoc, List.getElem?_append_right (by rw [length_putBe32]), length_putBe32]
  cases hd : u.data with
  | nil => exact absurd hd hne
  | cons b bs => rfl

/-- **The sets that are found** are the last of their kind, -/
theorem findSets_eq {us : List NalUnit} (before : List NalUnit) {fuel : Nat}
    (hfuel : us.length < fuel) (hsize : ∀ u ∈ us, u.data.length < 2 ^ 32) :
    findSets fuel (lengthPrefixed us) (noted before) = some (noted (before ++ us)) := by
  induction us generalizing before fuel with
  | nil =>
    obtain ⟨fuel, rfl⟩ : ∃ k, fuel = k + 1 := Nat.exists_eq_succ_of_ne_zero (by omega)
    rw [List.append_nil]
    rfl
  | cons u us ih =>
    obtain ⟨fuel, rfl⟩ : ∃ k, fuel = k + 1 := Nat.exists_eq_succ_of_ne_zero (by omega)
    have hpos := u.data_pos
    have hlen := length_lengthPrefixed_cons u us
    have hcons : lengthPrefixed (u :: us) =
        putBe32 u.data.length ++ u.data ++ lengthPrefixed us := List.flatMap_cons ..
    have hsize' : min (avRb32 (lengthPrefixed (u :: us))) ((lengthPrefixed (u :: us)).length - 4) =
        u.data.length := by
      rw [hcons, List.append_assoc, avRb32_putBe32 (hsize u List.mem_cons_self),
        ← List.append_assoc, ← hcons, hlen]
      omega
    have hdrop : (lengthPrefixed (u :: us)).drop 4 = u.data ++ lengthPrefixed us := by
      rw [hcons, List.append_assoc]
      exact List.drop_left' (length_putBe32 _)
    have hhead : (u.data ++ lengthPrefixed us).head? = some (u.data.headD 0) := by
      rw [← hdrop, List.head?_drop, hcons]
      exact head_lengthPrefixed u _
    have hnote := note_noted before u
    rw [findSets, if_neg (by omega)]
    dsimp only
    rw [hsize', hdrop, hhead, Option.bind_some, List.drop_left, List.take_left]
    show findSets fuel (lengthPrefixed us) ((noted before).note u.nalType u.data) = _
    rw [hnote, ih (before ++ [u]) (Nat.lt_of_succ_lt_succ hfuel)
      fun v hv => hsize v (List.mem_cons_of_mem u hv), List.append_assoc]
    rfl

/-- and so are their sizes. -/
theorem findSizes_eq {us : List NalUnit} (before : List NalUnit) {fuel : Nat}
    (hfuel : us.length < fuel) (hsize : ∀ u ∈ us, u.data.length < 2 ^ 32) :
    findSizes fuel (lengthPrefixed us) (notedSizes before) =
      some (notedSizes (before ++ us)) := by
  induction us generalizing before fuel with
  | nil =>
    obtain ⟨fuel, rfl⟩ : ∃ k, fuel = k + 1 := Nat.exists_eq_succ_of_ne_zero (by omega)
    rw [List.append_nil]
    rfl
  | cons u us ih =>
    obtain ⟨fuel, rfl⟩ : ∃ k, fuel = k + 1 := Nat.exists_eq_succ_of_ne_zero (by omega)
    have hlen := length_lengthPrefixed_cons u us
    have hcons : lengthPrefixed (u :: us) =
        putBe32 u.data.length ++ u.data ++ lengthPrefixed us := List.flatMap_cons ..
    have hne : lengthPrefixed (u :: us) ≠ [] := by
      intro hnil
      rw [hnil, List.length_nil] at hlen
      omega
    have hrb : avRb32 (lengthPrefixed (u :: us)) = u.data.length := by
      rw [hcons, List.append_assoc, avRb32_putBe32 (hsize u List.mem_cons_self)]
    have hbyte : (lengthPrefixed (u :: us))[4]? = some (u.data.headD 0) := by
      rw [hcons]
      exact head_lengthPrefixed u _
    have hdrop : (lengthPrefixed (u :: us)).drop (u.data.length + 4) = lengthPrefixed us := by
      rw [hcons]
      refine List.drop_left' ?_
      rw [List.length_append, length_putBe32, Nat.add_comm]
    have hnote := note_notedSizes before u
    rw [findSizes, if_neg hne]
    dsimp only
    rw [hrb, hbyte, Option.bind_some, hdrop]
    show findSizes fuel (lengthPrefixed us) ((notedSizes before).note u.nalType u.data.length) = _
    rw [hnote, ih (before ++ [u]) (Nat.lt_of_succ_lt_succ hfuel)
      fun v hv => hsize v (List.mem_cons_of_mem u hv), List.append_assoc]
    rfl

/-! ## The record -/

/-- Sets that the record can hold. -/
def GoodSets (sps pps : Bytes) : Prop := 4 ≤ sps.length ∧ sps.length ≤ 65535 ∧ pps.length ≤ 65535

instance (sps pps : Bytes) : Decidable (GoodSets sps pps) := inferInstanceAs (Decidable (_ ∧ _ ∧ _))

theorem length_avccRecord (sps pps : Bytes) :
    (avccRecord sps pps).length = 11 + sps.length + pps.length := by
  simp only [avccRecord, putBe16, List.length_append, List.length_cons, List.length_nil]
  omega

/-- **A record is written** for good sets, and nothing otherwise. -/
theorem record_eq (sets : ParameterSets) {bs : Bytes} (hne : bs ≠ []) :
    sets.record = bs ↔ ∃ sps pps, sets.sps = some sps ∧ sets.pps = some pps ∧ GoodSets sps pps ∧
      bs = avccRecord sps pps := by
  obtain ⟨sps?, pps?⟩ := sets
  unfold ParameterSets.record
  cases sps? with
  | none =>
    constructor
    · intro h
      exact absurd h.symm hne
    · rintro ⟨_, _, h, -⟩
      cases h
  | some sps =>
    cases pps? with
    | none =>
      constructor
      · intro h
        exact absurd h.symm hne
      · rintro ⟨_, _, -, h, -⟩
        cases h
    | some pps =>
      simp only [Option.bind_some, Option.some.injEq]
      by_cases hbad : sps.length < 4 ∨ 65535 < sps.length ∨ 65535 < pps.length
      · rw [if_pos hbad]
        constructor
        · intro h
          exact absurd h.symm hne
        · rintro ⟨_, _, rfl, rfl, ⟨h4, hs, hp⟩, -⟩
          omega
      · rw [if_neg hbad]
        have hgood : GoodSets sps pps := by
          unfold GoodSets
          omega
        constructor
        · intro h
          exact ⟨sps, pps, rfl, rfl, hgood, h.symm⟩
        · rintro ⟨_, _, rfl, rfl, -, rfl⟩
          rfl

section

variable {u : NalUnit} {us : List NalUnit}

/-- The first start code tells what is looked for. -/
theorem avRb32_annexB : avRb32 (annexB (u :: us)) = 1 ↔ u.zeros = 3 := by
  have hpos := u.data_pos
  rw [annexB_cons, NalUnit.bytes, avRb32]
  rcases u.zeros_mem with h | h
  · rw [h]
    cases hd : u.data with
    | nil => exact absurd hd u.data_ne
    | cons b bs =>
      simp only [List.replicate, List.cons_append, List.nil_append, List.take_succ_cons,
        List.take_zero, fromBE, List.reverse_cons, List.reverse_nil, fromLE]
      constructor
      · intro hbad
        exfalso
        have : (1 : UInt8).toNat = 1 := rfl
        have : (0 : UInt8).toNat = 0 := rfl
        omega
      · intro hbad
        exact absurd hbad (by decide)
  · rw [h]
    simp [fromBE, fromLE, List.replicate]

theorem avRb24_annexB (h : u.zeros = 2) : avRb24 (annexB (u :: us)) = 1 := by
  rw [annexB_cons, NalUnit.bytes, avRb24, h]
  simp [fromBE, fromLE, List.replicate]

theorem length_data_lt (h : (annexB us).length < 2 ^ 31) : ∀ v ∈ us, v.data.length < 2 ^ 32 := by
  induction us with
  | nil => exact fun _ hv => absurd hv List.not_mem_nil
  | cons w ws ih =>
    rw [annexB_cons, List.length_append, w.length_bytes] at h
    intro v hv
    rcases List.mem_cons.mp hv with rfl | hmem
    · omega
    · exact ih (by omega) v hmem

theorem length_le_lengthPrefixed (us : List NalUnit) : us.length ≤ (lengthPrefixed us).length := by
  rw [length_lengthPrefixed]
  exact Nat.le_trans (length_le_annexB us) (Nat.le_add_right _ _)

/-- What `ff_isom_write_avcc` writes for NAL units. -/
theorem ffIsomWriteAvcc_units (addr : Nat) (hlen : 6 < (annexB (u :: us)).length)
    (hint : (annexB (u :: us)).length + 1024 < 2 ^ 31) (hroom : shortCodes (u :: us) ≤ 1024) :
    ffIsomWriteAvcc (annexB (u :: us)) addr = some (noted (u :: us)).record := by
  have hcode : avRb32 (annexB (u :: us)) = 1 ∨ avRb24 (annexB (u :: us)) = 1 := by
    rcases u.zeros_mem with h | h
    · exact Or.inr (avRb24_annexB h)
    · exact Or.inl (avRb32_annexB.mpr h)
  have hfind : findSets ((lengthPrefixed (u :: us)).length + 1) (lengthPrefixed (u :: us))
      ⟨none, none⟩ = some (noted ([] ++ (u :: us))) :=
    findSets_eq [] (Nat.lt_succ_of_le (length_le_lengthPrefixed _)) (length_data_lt (by omega))
  rw [ffIsomWriteAvcc, if_neg (by omega), if_pos hcode, parseNalUnits_eq, if_pos ⟨hint, hroom⟩,
    Option.bind_some, hfind]
  rfl

/-- What `FFIsomGetAvccSize` answers for them. -/
theorem ffIsomGetAvccSize_units (addr : Nat) (hlen : 6 < (annexB (u :: us)).length)
    (hint : (annexB (u :: us)).length + 1024 < 2 ^ 31) (hroom : shortCodes (u :: us) ≤ 1024) :
    ffIsomGetAvccSize (annexB (u :: us)) addr = some (if u.zeros = 3 then
      11 + (notedSizes (u :: us)).spsSize + (notedSizes (u :: us)).ppsSize
      else (annexB (u :: us)).length) := by
  have hfind : findSizes ((lengthPrefixed (u :: us)).length + 1) (lengthPrefixed (u :: us))
      ⟨0, 0⟩ = some (notedSizes ([] ++ (u :: us))) :=
    findSizes_eq [] (Nat.lt_succ_of_le (length_le_lengthPrefixed _)) (length_data_lt (by omega))
  rw [ffIsomGetAvccSize, if_neg (by omega)]
  by_cases hz : u.zeros = 3
  · rw [if_pos (avRb32_annexB.mpr hz), parseNalUnits_eq, if_pos ⟨hint, hroom⟩, Option.bind_some,
      hfind, Option.map_some, if_pos hz]
    refine congrArg some ?_
    rw [List.nil_append]
    omega
  · rw [if_neg fun h => hz (avRb32_annexB.mp h), if_neg hz]

end

/-- **The box `avcC` is as long as its size says exactly if** there are an SPS and a PPS that the
record can hold, and the first start code has four bytes: one of three is overlooked by
`FFIsomGetAvccSize`, whose answer is right then only if it happens to be. -/
theorem avcc_size_iff (u : NalUnit) (us : List NalUnit) (addr : Nat)
    (hlen : 6 < (annexB (u :: us)).length) (hint : (annexB (u :: us)).length + 1024 < 2 ^ 31)
    (hroom : shortCodes (u :: us) ≤ 1024) :
    ∃ size content, ffIsomGetAvccSize (annexB (u :: us)) addr = some size ∧
      ffIsomWriteAvcc (annexB (u :: us)) addr = some content ∧
      (content.length = size ↔ ∃ sps pps, lastOf 7 (u :: us) = some sps ∧
        lastOf 8 (u :: us) = some pps ∧ GoodSets sps pps ∧ content = avccRecord sps pps ∧
        (u.zeros = 3 ∨ (annexB (u :: us)).length = 11 + sps.length + pps.length)) := by
  refine ⟨_, _, ffIsomGetAvccSize_units addr hlen hint hroom,
    ffIsomWriteAvcc_units addr hlen hint hroom, ?_⟩
  constructor
  · intro hsize
    have hpos : 0 < (noted (u :: us)).record.length := by
      rw [hsize]
      split <;> omega
    obtain ⟨sps, pps, hsps, hpps, hgood, hrecord⟩ :=
      (record_eq (noted (u :: us)) (List.ne_nil_of_length_pos hpos)).mp rfl
    refine ⟨sps, pps, hsps, hpps, hgood, hrecord, ?_⟩
    by_cases hz : u.zeros = 3
    · exact Or.inl hz
    · rw [if_neg hz, hrecord, length_avccRecord] at hsize
      exact Or.inr hsize.symm
  · rintro ⟨sps, pps, hsps, hpps, -, hrecord, hcase⟩
    rw [hrecord, length_avccRecord]
    by_cases hz : u.zeros = 3
    · rw [if_pos hz, notedSizes, hsps, hpps]
      rfl
    · rw [if_neg hz]
      rcases hcase with hcase | hcase
      · exact absurd hcase hz
      · exact hcase.symm

/-- An SPS and a PPS. -/
def spsUnit : NalUnit where
  zeros := 3
  data := [0x67, 0x42, 0, 0x1f]
  zeros_mem := Or.inr rfl
  last_ne := ⟨0x1f, rfl, by decide⟩
  plain := by decide

def ppsUnit : NalUnit where
  zeros := 2
  data := [0x68, 0xce]
  zeros_mem := Or.inl rfl
  last_ne := ⟨0xce, rfl, by decide⟩
  plain := by decide

theorem avcc_size_iff_once :
    ∃ size content, ffIsomGetAvccSize (annexB [spsUnit, ppsUnit]) 0 = some size ∧
      ffIsomWriteAvcc (annexB [spsUnit, ppsUnit]) 0 = some content ∧
      (content.length = size ↔ ∃ sps pps, lastOf 7 [spsUnit, ppsUnit] = some sps ∧
        lastOf 8 [spsUnit, ppsUnit] = some pps ∧ GoodSets sps pps ∧
        content = avccRecord sps pps ∧ (spsUnit.zeros = 3 ∨
          (annexB [spsUnit, ppsUnit]).length = 11 + sps.length + pps.length)) :=
  avcc_size_iff spsUnit [ppsUnit] 0 (by decide) (by decide) (by decide)

end Maixii.Mp4
