import Maixii.Lib.Boxes

/-!
# `Lib/Crc.lean`: remainders of a division by bits

A cyclic checksum is a register that bits are shifted through: a bit that leaves at the top adds the
generator. Shifting is linear in the register (`shifts_xor`), so a byte may be looked up in a table
(`feed_table`), and as many bytes as the register has room for may be added all at once
(`remainder_block`). Two things follow.

* `remainder_be`: what ends on its own remainder leaves nothing in the register;
* `remainder_ne`: bytes no longer than the register that are changed are noticed, wherever they
  stand, if the generator has its lowest bit set.
-/

set_option autoImplicit false

namespace Maixii.Lib.Crc

variable {w : Nat} (poly : BitVec w)

/-! ## Bits -/

/-- One bit is shifted out. -/
def shift (c : BitVec w) : BitVec w := c <<< 1 ^^^ if c.msb then poly else 0#w

/-- That many bits. -/
def shifts : Nat → BitVec w → BitVec w
  | 0, c => c
  | n + 1, c => shifts n (shift poly c)

theorem shift_xor (x y : BitVec w) : shift poly (x ^^^ y) = shift poly x ^^^ shift poly y := by
  unfold shift
  rw [BitVec.shiftLeft_xor_distrib, BitVec.msb_xor]
  cases x.msb <;> cases y.msb <;> simp [← BitVec.xor_assoc]
  · rw [BitVec.xor_assoc, BitVec.xor_comm (y <<< 1), BitVec.xor_assoc]
  · rw [BitVec.xor_assoc (x <<< 1), BitVec.xor_comm poly, BitVec.xor_assoc (x <<< 1),
      BitVec.xor_assoc (y <<< 1), BitVec.xor_self, BitVec.xor_zero]

@[simp] theorem shift_zero : shift poly 0#w = 0#w := by
  simp [shift]

@[simp] theorem shifts_zero (n : Nat) : shifts poly n 0#w = 0#w := by
  induction n with
  | zero => rfl
  | succ n ih => rw [shifts, shift_zero, ih]

theorem shifts_xor (n : Nat) (x y : BitVec w) :
    shifts poly n (x ^^^ y) = shifts poly n x ^^^ shifts poly n y := by
  induction n generalizing x y with
  | zero => rfl
  | succ n ih => rw [shifts, shift_xor, ih, shifts, shifts]

theorem shifts_add (m n : Nat) (c : BitVec w) :
    shifts poly (m + n) c = shifts poly n (shifts poly m c) := by
  induction m generalizing c with
  | zero => rw [Nat.zero_add, shifts]
  | succ m ih => rw [Nat.succ_add, shifts, ih, shifts]

/-- Nothing is added while the bits that leave are zero. -/
theorem shifts_small {n : Nat} {c : BitVec w} (hn : n ≤ w) (hc : c.toNat < 2 ^ (w - n)) :
    shifts poly n c = c <<< n := by
  induction n generalizing c with
  | zero => rw [shifts, BitVec.shiftLeft_zero]
  | succ n ih =>
    have hpow : 2 ^ (w - n) = 2 * 2 ^ (w - (n + 1)) := by
      rw [← Nat.pow_succ']
      congr 1
      omega
    have hle : 2 ^ (w - n) ≤ 2 ^ w := Nat.pow_le_pow_right (by decide) (Nat.sub_le w n)
    have hmsb : c.msb = false := BitVec.msb_eq_false_iff_two_mul_lt.mpr (by omega)
    have hnext : shift poly c = c <<< 1 := by
      rw [shift, hmsb]
      exact BitVec.xor_zero
    have hdouble : (c <<< 1).toNat = 2 * c.toNat := by
      rw [BitVec.toNat_shiftLeft, Nat.shiftLeft_eq, Nat.mod_eq_of_lt (by omega)]
      omega
    rw [shifts, hnext, ih (by omega) (by omega), ← BitVec.shiftLeft_add, Nat.add_comm]

/-- **A shift can be undone** by who knows the generator, if its lowest bit is set. -/
theorem shift_inj (hpoly : poly.getLsbD 0 = true) {x y : BitVec w}
    (h : shift poly x = shift poly y) : x = y := by
  have hw : 0 < w := by
    rcases Nat.eq_zero_or_pos w with rfl | hpos
    · simp [BitVec.getLsbD_of_ge] at hpoly
    · exact hpos
  have hzero : shift poly (x ^^^ y) = 0#w := by
    rw [shift_xor, h, BitVec.xor_self]
  have hmsb : (x ^^^ y).msb = false := by
    cases hb : (x ^^^ y).msb with
    | false => rfl
    | true =>
      have hlow := congrArg (fun z => z.getLsbD 0) hzero
      simp [shift, hb, hpoly] at hlow
  have hdouble : (x ^^^ y) <<< 1 = 0#w := by
    rw [shift, hmsb] at hzero
    exact BitVec.xor_zero.symm.trans hzero
  have hlt := BitVec.msb_eq_false_iff_two_mul_lt.mp hmsb
  have hnat := congrArg BitVec.toNat hdouble
  rw [BitVec.toNat_shiftLeft, Nat.shiftLeft_eq, Nat.mod_eq_of_lt (by omega),
    BitVec.toNat_ofNat, Nat.zero_mod] at hnat
  refine BitVec.xor_eq_zero_iff.mp (BitVec.eq_of_toNat_eq ?_)
  rw [BitVec.toNat_ofNat, Nat.zero_mod]
  omega

theorem shifts_inj (hpoly : poly.getLsbD 0 = true) (n : Nat) {x y : BitVec w}
    (h : shifts poly n x = shifts poly n y) : x = y := by
  induction n generalizing x y with
  | zero => exact h
  | succ n ih => exact shift_inj poly hpoly (ih h)

/-! ## Bytes -/

/-- A byte is added at the top, and shifted through. -/
def feed (c : BitVec w) (b : UInt8) : BitVec w :=
  shifts poly 8 (c ^^^ BitVec.ofNat w b.toNat <<< (w - 8))

/-- What bytes leave in the register. -/
def remainder (c : BitVec w) (bs : Bytes) : BitVec w := bs.foldl (feed poly) c

@[simp] theorem remainder_nil (c : BitVec w) : remainder poly c [] = c := rfl

theorem remainder_append (c : BitVec w) (bs cs : Bytes) :
    remainder poly c (bs ++ cs) = remainder poly (remainder poly c bs) cs := List.foldl_append

/-! ## A table of bytes -/

/-- A register without its highest byte, and that byte. -/
theorem split_top (hw : 8 ≤ w) (c : BitVec w) :
    c = (c <<< 8) >>> 8 ^^^ (c >>> (w - 8)) <<< (w - 8) := by
  refine BitVec.eq_of_getLsbD_eq fun i hi => ?_
  simp only [BitVec.getLsbD_xor, BitVec.getLsbD_shiftLeft, BitVec.getLsbD_ushiftRight]
  by_cases h : i < w - 8
  · have hroom : 8 + i < w := by omega
    have hback : 8 + i - 8 = i := Nat.add_sub_cancel_left 8 i
    simp [h, hroom, hback]
  · have hroom : ¬ 8 + i < w := by omega
    have hback : w - 8 + (i - (w - 8)) = i := by omega
    rw [decide_eq_false hroom, decide_eq_false h, decide_eq_true hi, hback]
    simp

/-- **A byte at a time from a table.** The highest byte of the register and the next one choose what
is added to the rest. -/
theorem feed_table (hw : 8 ≤ w) (c : BitVec w) (b : UInt8) :
    feed poly c b =
      c <<< 8 ^^^ shifts poly 8 ((c >>> (w - 8) ^^^ BitVec.ofNat w b.toNat) <<< (w - 8)) := by
  have hsmall : ((c <<< 8) >>> 8).toNat < 2 ^ (w - 8) := by
    rw [BitVec.toNat_ushiftRight, Nat.shiftRight_eq_div_pow]
    refine Nat.div_lt_of_lt_mul ?_
    rw [← Nat.pow_add, Nat.add_sub_cancel' hw]
    exact (c <<< 8).isLt
  have hlow : shifts poly 8 ((c <<< 8) >>> 8) = c <<< 8 := by
    rw [shifts_small poly hw hsmall]
    refine BitVec.eq_of_getLsbD_eq fun i hi => ?_
    simp only [BitVec.getLsbD_shiftLeft, BitVec.getLsbD_ushiftRight]
    by_cases h : i < 8
    · simp [h]
    · have hback : 8 + (i - 8) = i := by omega
      simp [h, hi, hback]
  rw [BitVec.shiftLeft_xor_distrib, ← hlow, ← shifts_xor, ← BitVec.xor_assoc, ← split_top hw,
    feed]

/-! ## Blocks -/

/-- A byte below a number. -/
theorem xor_byte (n : Nat) (b : UInt8) : n * 256 ^^^ b.toNat = n * 256 + b.toNat := by
  have hb : b.toNat < 2 ^ 8 := b.toNat_lt
  refine Nat.eq_of_testBit_eq fun i => ?_
  rw [Nat.testBit_xor, show n * 256 = 2 ^ 8 * n from Nat.mul_comm n 256,
    Nat.testBit_two_pow_mul_add n hb, Nat.testBit_two_pow_mul]
  by_cases hi : i < 8
  · simp [hi, Nat.not_le.mpr hi]
  · have hbit : b.toNat.testBit i = false :=
      Nat.testBit_lt_two_pow (Nat.lt_of_lt_of_le hb (Nat.pow_le_pow_right (by decide) (by omega)))
    simp [hi, Nat.le_of_not_lt hi, hbit]

/-- One more byte of a number at the top. -/
theorem place_snoc {k : Nat} (hk : k + 8 ≤ w) (n : Nat) (b : UInt8) :
    BitVec.ofNat w (n * 256 + b.toNat) <<< (w - (k + 8)) =
      BitVec.ofNat w n <<< (w - k) ^^^ BitVec.ofNat w b.toNat <<< (w - (k + 8)) := by
  have hshift : BitVec.ofNat w n <<< (w - k) = BitVec.ofNat w (n * 256) <<< (w - (k + 8)) := by
    refine BitVec.eq_of_toNat_eq ?_
    simp only [BitVec.toNat_shiftLeft, BitVec.toNat_ofNat, Nat.shiftLeft_eq]
    rw [Nat.mod_mul_mod, Nat.mod_mul_mod, Nat.mul_assoc,
      show (256 : Nat) = 2 ^ 8 from rfl, ← Nat.pow_add]
    congr 3
    omega
  rw [hshift, ← BitVec.shiftLeft_xor_distrib, ← BitVec.ofNat_xor, xor_byte]

theorem fromBE_snoc (bs : Bytes) (b : UInt8) : fromBE (bs ++ [b]) = fromBE bs * 256 + b.toNat := by
  rw [fromBE, List.reverse_append, List.reverse_singleton, List.singleton_append, fromLE, fromBE]
  omega

theorem be_fromBE (bs : Bytes) : be bs.length (fromBE bs) = bs := by
  have h := le_fromLE bs.reverse
  rw [List.length_reverse] at h
  rw [be, fromBE, h, List.reverse_reverse]

theorem fromBE_lt (bs : Bytes) : fromBE bs < 2 ^ (8 * bs.length) := by
  have h := fromLE_lt bs.reverse
  rw [List.length_reverse] at h
  rwa [Nat.pow_mul]

/-- **A block at once.** Bytes that the register has room for are added at the top, and shifted
through together. -/
theorem remainder_block {bs : Bytes} (hlen : 8 * bs.length ≤ w) (c : BitVec w) :
    remainder poly c bs =
      shifts poly (8 * bs.length) (c ^^^ BitVec.ofNat w (fromBE bs) <<< (w - 8 * bs.length)) := by
  induction bs using List.reverseRecOn with
  | nil =>
    simp [shifts, fromBE, fromLE]
  | append_singleton bs b ih =>
    rw [List.length_append, List.length_singleton] at hlen
    have hbits : 8 * (bs ++ [b]).length = 8 * bs.length + 8 := by
      rw [List.length_append, List.length_singleton]
      omega
    have hsmall : (BitVec.ofNat w b.toNat <<< (w - (8 * bs.length + 8))).toNat <
        2 ^ (w - 8 * bs.length) := by
      have hb : b.toNat < 2 ^ 8 := b.toNat_lt
      refine Nat.lt_of_le_of_lt (BitVec.toNat_shiftLeft ▸ Nat.mod_le _ _) ?_
      rw [Nat.shiftLeft_eq]
      refine Nat.lt_of_le_of_lt (Nat.mul_le_mul_right _
        (BitVec.toNat_ofNat b.toNat w ▸ Nat.mod_le _ _)) ?_
      have hpow : 2 ^ (w - 8 * bs.length) = 2 ^ 8 * 2 ^ (w - (8 * bs.length + 8)) := by
        rw [← Nat.pow_add]
        congr 1
        omega
      rw [hpow]
      exact Nat.mul_lt_mul_of_pos_right hb (Nat.two_pow_pos _)
    have hplace : BitVec.ofNat w b.toNat <<< (w - 8) =
        shifts poly (8 * bs.length) (BitVec.ofNat w b.toNat <<< (w - (8 * bs.length + 8))) := by
      rw [shifts_small poly (by omega) hsmall, ← BitVec.shiftLeft_add]
      congr 1
      omega
    rw [remainder_append, ih (by omega), remainder, List.foldl_cons, List.foldl_nil, feed, hplace,
      ← shifts_xor, ← shifts_add, hbits, fromBE_snoc, place_snoc (by omega), BitVec.xor_assoc]

/-- **A checksum of itself.** What ends on its own remainder leaves zero. -/
theorem remainder_be {n : Nat} (poly : BitVec (8 * n)) (c : BitVec (8 * n)) (bs : Bytes) :
    remainder poly c (bs ++ be n (remainder poly c bs).toNat) = 0#(8 * n) := by
  have hlen : (be n (remainder poly c bs).toNat).length = n := length_be _ _
  have hvalue : fromBE (be n (remainder poly c bs).toNat) = (remainder poly c bs).toNat := by
    refine fromBE_be ?_
    rw [show (256 : Nat) = 2 ^ 8 from rfl, ← Nat.pow_mul]
    exact (remainder poly c bs).isLt
  rw [remainder_append, remainder_block poly (Nat.le_of_eq (by rw [hlen])), hlen, hvalue,
    Nat.sub_self, BitVec.shiftLeft_zero, BitVec.ofNat_toNat, BitVec.setWidth_eq, BitVec.xor_self,
    shifts_zero]

/-- Behind a difference the registers stay different. -/
theorem remainder_inj (hpoly : poly.getLsbD 0 = true) (bs : Bytes) {x y : BitVec w}
    (h : remainder poly x bs = remainder poly y bs) : x = y := by
  induction bs generalizing x y with
  | nil => exact h
  | cons b bs ih =>
    have hfeed : feed poly x b = feed poly y b := ih h
    exact (BitVec.xor_left_inj _).mp (shifts_inj poly hpoly 8 hfeed)

/-- **A change is noticed** that is no longer than the register. -/
theorem remainder_ne (hpoly : poly.getLsbD 0 = true) (c : BitVec w) (pre post : Bytes)
    {bs cs : Bytes} (hlen : bs.length = cs.length) (hw : 8 * bs.length ≤ w) (hne : bs ≠ cs) :
    remainder poly c (pre ++ bs ++ post) ≠ remainder poly c (pre ++ cs ++ post) := by
  intro heq
  rw [remainder_append, remainder_append, remainder_append _ c (pre ++ cs), remainder_append]
    at heq
  have hblock := remainder_inj poly hpoly post heq
  have hw' : 8 * cs.length ≤ w := by omega
  rw [remainder_block poly hw (remainder poly c pre), remainder_block poly hw'
    (remainder poly c pre), ← hlen] at hblock
  have hplaced := (BitVec.xor_right_inj _).mp (shifts_inj poly hpoly _ hblock)
  have hnum : ∀ ds : Bytes, ds.length = bs.length →
      (BitVec.ofNat w (fromBE ds) <<< (w - 8 * bs.length)).toNat =
        fromBE ds * 2 ^ (w - 8 * bs.length) := by
    intro ds hds
    have hlt := fromBE_lt ds
    rw [hds] at hlt
    have hroom : fromBE ds * 2 ^ (w - 8 * bs.length) < 2 ^ w := by
      have hpow : 2 ^ w = 2 ^ (8 * bs.length) * 2 ^ (w - 8 * bs.length) := by
        rw [← Nat.pow_add]
        congr 1
        omega
      rw [hpow]
      exact Nat.mul_lt_mul_of_pos_right hlt (Nat.two_pow_pos _)
    have hsmall : fromBE ds < 2 ^ w :=
      Nat.lt_of_lt_of_le hlt (Nat.pow_le_pow_right (by decide) hw)
    rw [BitVec.toNat_shiftLeft, BitVec.toNat_ofNat, Nat.mod_eq_of_lt hsmall, Nat.shiftLeft_eq,
      Nat.mod_eq_of_lt hroom]
  have heq := congrArg BitVec.toNat hplaced
  rw [hnum bs rfl, hnum cs hlen.symm] at heq
  have hsame : fromBE bs = fromBE cs := Nat.eq_of_mul_eq_mul_right (Nat.two_pow_pos _) heq
  exact hne (by rw [← be_fromBE bs, ← be_fromBE cs, hsame, hlen])

end Maixii.Lib.Crc
