import Maixii.Lib.OutFile
import Maixii.Mp4.MovPacket

/-!
# `Mp4/Avc.lean`: start codes

`mp4_muxer/avc.c`. The encoder puts `00 00 01` in front of a NAL unit, and the muxer looks for it:
`ff_avc_find_startcode_internal` goes byte by byte up to an aligned address, then by words of four
bytes, of which most can have no zero, and byte by byte again. Whatever the address of the buffer, it
finds what a plain search finds (`find_startcode_first`).

A byte that is read outside of the buffer has no result.
-/

set_option autoImplicit false

namespace Maixii.Mp4

open Maixii.Lib

/-! ## Conditions that read memory -/

/-- `p[i] == v`. -/
def isByte (buf : Bytes) (i : Nat) (v : UInt8) : Option Bool := buf[i]?.map fun b => b == v

/-- `a && b`. -/
def andAlso (a b : Option Bool) : Option Bool := a.bind fun x => if x then b else some false

/-- `if (c) ...`; the inner `none` goes on behind it. -/
def when (c : Option Bool) (r : Option (Option Nat)) : Option (Option Nat) :=
  c.bind fun x => if x then r else some none

/-- A statement that returns or goes on, and the next one. -/
def orElse (a b : Option (Option Nat)) : Option (Option Nat) :=
  a.bind fun r => if r.isSome then some r else b

/-- `return p`. -/
def found (p : Nat) : Option (Option Nat) := some (some p)

/-! ## The search -/

section

variable (buf : Bytes)

/-- `p[0] == 0 && p[1] == 0 && p[2] == 1`. -/
def startcode (p : Nat) : Option Bool :=
  andAlso (isByte buf p 0) (andAlso (isByte buf (p + 1) 0) (isByte buf (p + 2) 1))

/-- `for (; ...; p++)` over `n` places. -/
def scanBytes : Nat → Nat → Option (Option Nat)
  | 0, _ => some none
  | n + 1, p => orElse (when (startcode buf p) (found p)) (scanBytes n (p + 1))

/-- `*(const uint32_t*)p`, of a little-endian machine. -/
def wordAt (p : Nat) : Option UInt32 :=
  if p + 4 ≤ buf.length then some (UInt32.ofNat (fromLE (readAt buf p 4))) else none

/-- `(x - 0x01010101) & (~x) & 0x80808080`. -/
def zeroTest (x : UInt32) : UInt32 := (x - 0x01010101) &&& ~~~x &&& 0x80808080

/-- What is done with a word that may have a zero byte. -/
def inWord (p : Nat) : Option (Option Nat) :=
  orElse
    (when (isByte buf (p + 1) 0) (orElse
      (when (andAlso (isByte buf p 0) (isByte buf (p + 2) 1)) (found p))
      (when (andAlso (isByte buf (p + 2) 0) (isByte buf (p + 3) 1)) (found (p + 1)))))
    (when (isByte buf (p + 3) 0) (orElse
      (when (andAlso (isByte buf (p + 2) 0) (isByte buf (p + 4) 1)) (found (p + 2)))
      (when (andAlso (isByte buf (p + 4) 0) (isByte buf (p + 5) 1)) (found (p + 3)))))

/-- `for (; ...; p += 4)` over `n` words. -/
def scanWords : Nat → Nat → Option (Option Nat)
  | 0, _ => some none
  | n + 1, p => orElse (when ((wordAt buf p).map fun x => zeroTest x != 0) (inWord buf p))
      (scanWords n (p + 4))

/-- The places up to the aligned address, the words, and the places behind them. -/
def ffAvcFindStartcodeInternal (addr p stop : Nat) : Option Nat :=
  let a := p + 4 - (addr + p) % 4
  let n := min (a - p) (stop - 3 - p)
  let q := p + n
  let m := (stop - 6 - q + 3) / 4
  let r := q + 4 * m
  (orElse (scanBytes buf n p) (orElse (scanWords buf m q) (scanBytes buf (stop - 3 - r) r))).map
    fun out => out.getD stop

/-- `ff_avc_find_startcode`: the zero in front belongs to the start code. -/
def ffAvcFindStartcode (addr p stop : Nat) : Option Nat :=
  (ffAvcFindStartcodeInternal buf addr p stop).bind fun out =>
    if p < out ∧ out < stop then
      (isByte buf (out - 1) 0).map fun zero => if zero then out - 1 else out
    else some out

/-! ## The plain search -/

/-- There is a start code at `i`. -/
def CodeAt (i : Nat) : Prop := buf[i]? = some 0 ∧ buf[i + 1]? = some 0 ∧ buf[i + 2]? = some 1

instance (i : Nat) : Decidable (CodeAt buf i) := inferInstanceAs (Decidable (_ ∧ _ ∧ _))

/-- **The first start code** from `p` on that has a byte behind it, or the end. -/
def firstStartcode (p stop : Nat) : Nat :=
  ((List.range' p (stop - 3 - p)).find? fun i => decide (CodeAt buf i)).getD stop

/-- What a part of the search over `n` places from `p` on is to say. -/
def firstIn (n p : Nat) : Option Nat := (List.range' p n).find? fun i => decide (CodeAt buf i)

end

variable {buf : Bytes} {p n m stop : Nat}

theorem firstIn_succ (n p : Nat) :
    firstIn buf (n + 1) p = if CodeAt buf p then some p else firstIn buf n (p + 1) := by
  rw [firstIn, List.range'_succ, List.find?_cons]
  by_cases h : CodeAt buf p
  · rw [if_pos h, decide_eq_true h]
  · rw [if_neg h, decide_eq_false h]
    rfl

/-- **Two parts of the places** are searched one after the other. -/
theorem firstIn_add (n m p : Nat) :
    firstIn buf (n + m) p = (firstIn buf n p).or (firstIn buf m (p + n)) := by
  rw [firstIn, firstIn, firstIn, ← List.range'_append_1, List.find?_append]

theorem firstIn_zero (p : Nat) : firstIn buf 0 p = none := rfl

theorem isByte_eq {i : Nat} (h : i < buf.length) (v : UInt8) :
    isByte buf i v = some (decide (buf[i]? = some v)) := by
  rw [isByte, List.getElem?_eq_getElem h, Option.map_some]
  refine congrArg some ?_
  rw [Bool.eq_iff_iff, beq_iff_eq, decide_eq_true_iff, Option.some.injEq]

theorem andAlso_some (a b : Bool) : andAlso (some a) (some b) = some (a && b) := by
  cases a <;> rfl

theorem when_some (c : Bool) (r : Option Nat) :
    when (some c) (some r) = some (if c then r else none) := by
  cases c <;> rfl

theorem orElse_some (a b : Option Nat) : orElse (some a) (some b) = some (a.or b) := by
  cases a <;> rfl

theorem startcode_eq (h : p + 2 < buf.length) : startcode buf p = some (decide (CodeAt buf p)) := by
  rw [startcode, isByte_eq (by omega), isByte_eq (by omega), isByte_eq h, andAlso_some,
    andAlso_some]
  refine congrArg some ?_
  rw [Bool.eq_iff_iff, Bool.and_eq_true, Bool.and_eq_true]
  simp only [decide_eq_true_iff]
  rfl

theorem scanBytes_eq (h : n = 0 ∨ p + n + 2 ≤ buf.length) :
    scanBytes buf n p = some (firstIn buf n p) := by
  induction n generalizing p with
  | zero => rfl
  | succ n ih =>
    rw [scanBytes, startcode_eq (by omega), ih (by omega), found, when_some, orElse_some,
      firstIn_succ]
    by_cases hc : CodeAt buf p
    · rw [decide_eq_true hc, if_pos rfl, if_pos hc]
      rfl
    · rw [decide_eq_false hc, if_neg Bool.false_ne_true, if_neg hc]
      rfl

/-! ## Words without a zero -/

/-- A bit of the test that is set. -/
theorem zeroTest_ne {x : UInt32} {k : Nat} (hk : k < 32)
    (hmask : (0x80808080 : UInt32).toNat.testBit k = true) (hx : x.toNat / 2 ^ k % 2 = 0)
    (hsub : (x - 0x01010101).toNat / 2 ^ k % 2 = 1) : zeroTest x ≠ 0 := by
  intro hzero
  have hnot : (~~~x).toNat.testBit k = true := by
    have hbits : UInt32.size - 1 - x.toNat = 2 ^ 32 - (x.toNat + 1) := by
      show 4294967296 - 1 - x.toNat = _
      omega
    rw [UInt32.toNat_not, hbits, Nat.testBit_two_pow_sub_succ x.toNat_lt,
      Nat.testBit_eq_decide_div_mod_eq, hx, decide_eq_true hk]
    rfl
  have hbit : (zeroTest x).toNat.testBit k = true := by
    rw [zeroTest, UInt32.toNat_and, UInt32.toNat_and, Nat.testBit_and, Nat.testBit_and, hmask, hnot,
      Nat.testBit_eq_decide_div_mod_eq, hsub]
    rfl
  rw [hzero] at hbit
  simp at hbit

/-- **A zero byte sets a bit of the test**: the lowest one borrows from nothing below it. -/
theorem zeroTest_of_zero {a b c d : UInt8} (h : a = 0 ∨ b = 0 ∨ c = 0 ∨ d = 0) :
    zeroTest (UInt32.ofNat (fromLE [a, b, c, d])) ≠ 0 := by
  have ha := a.toNat_lt
  have hb := b.toNat_lt
  have hc := c.toNat_lt
  have hd := d.toNat_lt
  have hsum : fromLE [a, b, c, d] =
      a.toNat + 256 * b.toNat + 65536 * c.toNat + 16777216 * d.toNat := by
    simp only [fromLE]
    omega
  have hx : (UInt32.ofNat (fromLE [a, b, c, d])).toNat =
      a.toNat + 256 * b.toNat + 65536 * c.toNat + 16777216 * d.toNat := by
    rw [UInt32.toNat_ofNat', hsum]
    omega
  have hzero : ∀ v : UInt8, v = 0 ↔ v.toNat = 0 := fun v => by
    rw [← UInt8.toNat_inj]
    rfl
  have hnum : (0x01010101 : UInt32).toNat = 16843009 := rfl
  rw [hzero, hzero, hzero, hzero] at h
  by_cases h0 : a.toNat = 0
  · refine zeroTest_ne (k := 7) (by decide) (by decide) ?_ ?_
    · rw [hx]
      omega
    · rw [UInt32.toNat_sub, hx, hnum]
      omega
  by_cases h1 : b.toNat = 0
  · refine zeroTest_ne (k := 15) (by decide) (by decide) ?_ ?_
    · rw [hx]
      omega
    · rw [UInt32.toNat_sub, hx, hnum]
      omega
  by_cases h2 : c.toNat = 0
  · refine zeroTest_ne (k := 23) (by decide) (by decide) ?_ ?_
    · rw [hx]
      omega
    · rw [UInt32.toNat_sub, hx, hnum]
      omega
  have h3 : d.toNat = 0 := by omega
  refine zeroTest_ne (k := 31) (by decide) (by decide) ?_ ?_
  · rw [hx]
    omega
  · rw [UInt32.toNat_sub, hx, hnum]
    omega

theorem wordAt_eq {a b c d : UInt8} (ha : buf[p]? = some a) (hb : buf[p + 1]? = some b)
    (hc : buf[p + 2]? = some c) (hd : buf[p + 3]? = some d) :
    wordAt buf p = some (UInt32.ofNat (fromLE [a, b, c, d])) := by
  have hlt : p + 3 < buf.length := (List.getElem?_eq_some_iff.mp hd).1
  have hread : readAt buf p 4 = [a, b, c, d] := by
    refine List.ext_getElem? fun i => ?_
    rw [readAt, List.getElem?_take, List.getElem?_drop]
    rcases i with _ | _ | _ | _ | i
    · exact ha
    · exact hb
    · exact hc
    · exact hd
    · rw [if_neg (by omega)]
      rfl
  rw [wordAt, if_pos (by omega), hread]

/-- **What is done with a word** is a search in four places, -/
theorem inWord_eq (h : p + 5 < buf.length) : inWord buf p = some (firstIn buf 4 p) := by
  have hfour : firstIn buf 4 p = (if CodeAt buf p then some p else none).or
      ((if CodeAt buf (p + 1) then some (p + 1) else none).or
        ((if CodeAt buf (p + 2) then some (p + 2) else none).or
          (if CodeAt buf (p + 3) then some (p + 3) else none))) := by
    rw [firstIn_succ, firstIn_succ, firstIn_succ, firstIn_succ, firstIn_zero]
    split_ifs <;> rfl
  rw [inWord, hfour]
  simp only [isByte_eq (show p < buf.length by omega), isByte_eq (show p + 1 < buf.length by omega),
    isByte_eq (show p + 2 < buf.length by omega), isByte_eq (show p + 3 < buf.length by omega),
    isByte_eq (show p + 4 < buf.length by omega), isByte_eq h, andAlso_some, found, when_some,
    orElse_some, CodeAt, Nat.add_assoc, Nat.reduceAdd, Bool.and_eq_true, decide_eq_true_iff]
  by_cases h1 : buf[p + 1]? = some 0
  · by_cases h3 : buf[p + 3]? = some 0
    · simp only [h1, h3, true_and, if_true, Option.or_assoc]
    · simp only [h1, h3, true_and, false_and, and_false, if_true, if_false, Option.or_none]
  · by_cases h3 : buf[p + 3]? = some 0
    · simp only [h1, h3, true_and, false_and, and_false, if_true, if_false, Option.none_or]
    · simp only [h1, h3, false_and, and_false, if_false, Option.none_or]

/-- and a word without a zero has no start code in its places. -/
theorem firstIn_word {a b c d : UInt8} (ha : buf[p]? = some a) (hb : buf[p + 1]? = some b)
    (hc : buf[p + 2]? = some c) (hd : buf[p + 3]? = some d)
    (hzero : ¬ (a = 0 ∨ b = 0 ∨ c = 0 ∨ d = 0)) : firstIn buf 4 p = none := by
  push Not at hzero
  obtain ⟨ha0, hb0, hc0, hd0⟩ := hzero
  have hnot : ∀ {i : Nat} {v : UInt8}, buf[i]? = some v → v ≠ 0 → ¬ CodeAt buf i := by
    intro i v hv hne hcode
    exact hne (Option.some.inj (hv.symm.trans hcode.1))
  rw [firstIn_succ, if_neg (hnot ha ha0), firstIn_succ, if_neg (hnot hb hb0), firstIn_succ,
    if_neg (hnot hc hc0), firstIn_succ, if_neg (hnot hd hd0), firstIn_zero]

theorem scanWords_eq (h : n = 0 ∨ p + 4 * n + 2 ≤ buf.length) :
    scanWords buf n p = some (firstIn buf (4 * n) p) := by
  induction n generalizing p with
  | zero => rfl
  | succ n ih =>
    have hlen : p + 4 * n + 6 ≤ buf.length := by omega
    have hword : ∀ i, i < 4 → ∃ v, buf[p + i]? = some v := fun i hi =>
      ⟨_, List.getElem?_eq_getElem (by omega)⟩
    obtain ⟨a, ha⟩ : ∃ v, buf[p]? = some v := hword 0 (by decide)
    obtain ⟨b, hb⟩ := hword 1 (by decide)
    obtain ⟨c, hc⟩ := hword 2 (by decide)
    obtain ⟨d, hd⟩ := hword 3 (by decide)
    have hstep : when ((wordAt buf p).map fun x => zeroTest x != 0) (inWord buf p) =
        some (firstIn buf 4 p) := by
      rw [wordAt_eq ha hb hc hd, Option.map_some, inWord_eq (by omega), when_some]
      by_cases hzero : a = 0 ∨ b = 0 ∨ c = 0 ∨ d = 0
      · rw [if_pos (bne_iff_ne.mpr (zeroTest_of_zero hzero))]
      · rw [firstIn_word ha hb hc hd hzero, ite_self]
    have hsplit : 4 * (n + 1) = 4 + 4 * n := by omega
    rw [scanWords, hstep, ih (by omega), orElse_some, hsplit, firstIn_add]

/-! ## The whole search -/

/-- **The search finds the first start code**, at any address. -/
theorem ffAvcFindStartcodeInternal_eq (addr : Nat) (h : stop ≤ buf.length) :
    ffAvcFindStartcodeInternal buf addr p stop = some (firstStartcode buf p stop) := by
  unfold ffAvcFindStartcodeInternal firstStartcode
  dsimp only
  generalize hn : min (p + 4 - (addr + p) % 4 - p) (stop - 3 - p) = n
  generalize hm : (stop - 6 - (p + n) + 3) / 4 = m
  have hplaces : n + (4 * m + (stop - 3 - (p + n + 4 * m))) = stop - 3 - p := by omega
  rw [scanBytes_eq (by omega), scanWords_eq (by omega), scanBytes_eq (by omega), orElse_some,
    orElse_some, Option.map_some]
  have hall : firstIn buf (n + (4 * m + (stop - 3 - (p + n + 4 * m)))) p = _ :=
    firstIn_add n (4 * m + (stop - 3 - (p + n + 4 * m))) p
  rw [hplaces, firstIn_add] at hall
  rw [← hall]
  rfl

theorem firstStartcode_eq {i : Nat} (hp : p ≤ i) (hi : i + 3 < stop) (hcode : CodeAt buf i)
    (hfirst : ∀ j, p ≤ j → j < i → ¬ CodeAt buf j) : firstStartcode buf p stop = i := by
  obtain ⟨k, rfl⟩ := Nat.exists_eq_add_of_le hp
  have hsplit : stop - 3 - p = k + (1 + (stop - 4 - (p + k))) := by omega
  have hbefore : firstIn buf k p = none := by
    rw [firstIn, List.find?_eq_none]
    intro j hj
    have hmem := List.mem_range'_1.mp hj
    simpa using hfirst j hmem.1 hmem.2
  show (firstIn buf (stop - 3 - p) p).getD stop = _
  rw [hsplit, firstIn_add, hbefore, Option.none_or, Nat.add_comm 1, firstIn_succ, if_pos hcode]
  rfl

theorem firstStartcode_none (h : ∀ j, p ≤ j → j + 3 < stop → ¬ CodeAt buf j) :
    firstStartcode buf p stop = stop := by
  have hnone : firstIn buf (stop - 3 - p) p = none := by
    rw [firstIn, List.find?_eq_none]
    intro j hj
    have hmem := List.mem_range'_1.mp hj
    simpa using h j hmem.1 (by omega)
  show (firstIn buf (stop - 3 - p) p).getD stop = _
  rw [hnone]
  rfl

/-- The zero in front of a start code is taken with it. -/
theorem ffAvcFindStartcode_eq (addr : Nat) (h : stop ≤ buf.length) :
    ffAvcFindStartcode buf addr p stop = some
      (if p < firstStartcode buf p stop ∧ firstStartcode buf p stop < stop ∧
          buf[firstStartcode buf p stop - 1]? = some 0 then firstStartcode buf p stop - 1
        else firstStartcode buf p stop) := by
  rw [ffAvcFindStartcode, ffAvcFindStartcodeInternal_eq addr h, Option.bind_some]
  by_cases hin : p < firstStartcode buf p stop ∧ firstStartcode buf p stop < stop
  · rw [if_pos hin, isByte_eq (by omega), Option.map_some]
    by_cases hzero : buf[firstStartcode buf p stop - 1]? = some 0
    · rw [decide_eq_true hzero, if_pos rfl, if_pos ⟨hin.1, hin.2, hzero⟩]
    · rw [decide_eq_false hzero, if_neg Bool.false_ne_true, if_neg fun hc => hzero hc.2.2]
  · rw [if_neg hin, if_neg fun hc => hin ⟨hc.1, hc.2.1⟩]

/-- **The search for a start code is the plain one**, wherever the buffer lies and whatever it
holds; it reads nothing behind its end. The search goes by words once its pointer is aligned, which
depends on the address, so the address is a parameter. That nothing behind the end is read is the
second equation: the same call on the buffer cut off there has the same result. -/
theorem find_startcode_first (buf : Bytes) (addr p stop : Nat) (h : stop ≤ buf.length) :
    ffAvcFindStartcodeInternal buf addr p stop = some (firstStartcode buf p stop) ∧
      ffAvcFindStartcodeInternal (buf.take stop) addr p stop = some (firstStartcode buf p stop) := by
  refine ⟨ffAvcFindStartcodeInternal_eq addr h, ?_⟩
  have hsame : firstStartcode (buf.take stop) p stop = firstStartcode buf p stop := by
    unfold firstStartcode
    rw [← List.head?_filter, ← List.head?_filter]
    refine congrArg (fun l : List Nat => l.head?.getD stop) (List.filter_congr ?_)
    intro i hi
    have hmem := List.mem_range'_1.mp hi
    have hcode : CodeAt (buf.take stop) i ↔ CodeAt buf i := by
      unfold CodeAt
      rw [List.getElem?_take_of_lt (by omega), List.getElem?_take_of_lt (by omega),
        List.getElem?_take_of_lt (by omega)]
    exact decide_eq_decide.mpr hcode
  rw [ffAvcFindStartcodeInternal_eq addr (by rw [List.length_take]; omega), hsame]

/-- At an odd address, with a start code behind two bytes that are no zeros. -/
theorem find_startcode_first_once :
    ffAvcFindStartcodeInternal [9, 9, 0, 0, 1, 0x65, 0, 0] 3 0 8 = some 2 :=
  (find_startcode_first [9, 9, 0, 0, 1, 0x65, 0, 0] 3 0 8 (by decide)).1

end Maixii.Mp4
