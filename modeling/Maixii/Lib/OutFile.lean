import Maixii.Lib.Bytes

/-!
# `Lib/OutFile.lean`: binary files

What a program that writes binary files relies on: numbers in little-endian order, and a file
as a byte string with a position (`std::ofstream`), in which a write replaces what is there and
goes on past the end. A program that patches the file as it goes relies on two facts about
`patch`: it changes nothing outside of the bytes it is given, and what it puts there is what is
read back.

No write fails here. A file system that refuses one is not modelled.
-/

set_option autoImplicit false

namespace Maixii.Lib

/-! ## Little-endian numbers -/

/-- The `w` low bytes of `n`, lowest first. -/
def le : Nat → Nat → Bytes
  | 0, _ => []
  | w + 1, n => UInt8.ofNat n :: le w (n / 256)

/-- The number such bytes spell. -/
def fromLE : Bytes → Nat
  | [] => 0
  | b :: bs => b.toNat + 256 * fromLE bs

@[simp] theorem length_le_bytes (w n : Nat) : (le w n).length = w := by
  induction w generalizing n with
  | zero => rfl
  | succ w ih => rw [le, List.length_cons, ih]

/-- What does not fit is lost. -/
theorem fromLE_le (w n : Nat) : fromLE (le w n) = n % 256 ^ w := by
  induction w generalizing n with
  | zero => rw [le, fromLE, Nat.pow_zero, Nat.mod_one]
  | succ w ih =>
    have hpow : 256 ^ (w + 1) = 256 * 256 ^ w := by rw [Nat.pow_succ, Nat.mul_comm]
    rw [le, fromLE, ih, UInt8.toNat_ofNat', hpow, Nat.mod_mul]

theorem fromLE_le_of_lt {w n : Nat} (h : n < 256 ^ w) : fromLE (le w n) = n := by
  rw [fromLE_le, Nat.mod_eq_of_lt h]

/-- A number and its low bytes are spelled alike. -/
theorem le_mod (w n : Nat) : le w (n % 256 ^ w) = le w n := by
  induction w generalizing n with
  | zero => rfl
  | succ w ih =>
    have hpow : 256 ^ (w + 1) = 256 * 256 ^ w := by rw [Nat.pow_succ, Nat.mul_comm]
    have hhead : UInt8.ofNat (n % 256 ^ (w + 1)) = UInt8.ofNat n := by
      refine UInt8.toNat_inj.mp ?_
      rw [UInt8.toNat_ofNat', UInt8.toNat_ofNat', hpow]
      exact Nat.mod_mul_right_mod n 256 (256 ^ w)
    have htail : n % 256 ^ (w + 1) / 256 = n / 256 % 256 ^ w := by
      rw [hpow]
      exact Nat.mod_mul_right_div_self n 256 (256 ^ w)
    rw [le, le, hhead, htail, ih]

theorem le_fromLE (bs : Bytes) : le bs.length (fromLE bs) = bs := by
  induction bs with
  | nil => rfl
  | cons b bs ih =>
    have hhead : UInt8.ofNat (b.toNat + 256 * fromLE bs) = b := by
      refine UInt8.toNat_inj.mp ?_
      rw [UInt8.toNat_ofNat']
      have := b.toNat_lt
      omega
    have htail : (b.toNat + 256 * fromLE bs) / 256 = fromLE bs := by
      have := b.toNat_lt
      omega
    rw [List.length_cons, fromLE, le, hhead, htail, ih]

theorem fromLE_lt (bs : Bytes) : fromLE bs < 256 ^ bs.length := by
  induction bs with
  | nil => decide
  | cons b bs ih =>
    have := b.toNat_lt
    rw [fromLE, List.length_cons, Nat.pow_succ]
    omega

/-! ## Reading and patching a byte string -/

/-- `n` bytes from `p` on. -/
def readAt (s : Bytes) (p n : Nat) : Bytes := (s.drop p).take n

/-- `bs` written over `s` at `p`; a hole behind the end is filled with zeros. -/
def patch (s : Bytes) (p : Nat) (bs : Bytes) : Bytes :=
  s.take p ++ List.replicate (p - s.length) 0 ++ bs ++ s.drop (p + bs.length)

variable {s a b bs : Bytes} {p q n : Nat}

theorem patch_eq (h : p ≤ s.length) : patch s p bs = s.take p ++ bs ++ s.drop (p + bs.length) := by
  rw [patch, Nat.sub_eq_zero_of_le h, List.replicate_zero, List.append_nil]

/-- At the end, a patch appends. -/
theorem patch_end (s bs : Bytes) : patch s s.length bs = s ++ bs := by
  rw [patch_eq (Nat.le_refl _), List.take_length, List.drop_eq_nil_of_le (Nat.le_add_right _ _),
    List.append_nil]

theorem length_patch (h : p + bs.length ≤ s.length) : (patch s p bs).length = s.length := by
  rw [patch_eq (Nat.le_trans (Nat.le_add_right _ _) h)]
  simp only [List.length_append, List.length_take, List.length_drop]
  omega

/-- A patch makes nothing shorter. -/
theorem length_le_patch (h : p ≤ s.length) : s.length ≤ (patch s p bs).length := by
  rw [patch_eq h]
  simp only [List.length_append, List.length_take, List.length_drop]
  omega

/-- **What a patch does not touch stays.** -/
theorem getElem?_patch {i : Nat} (hp : p ≤ s.length)
    (h : i < p ∨ p + bs.length ≤ i) : (patch s p bs)[i]? = s[i]? := by
  rw [patch_eq hp]
  rcases h with h | h
  · rw [List.append_assoc, List.getElem?_append_left (by rw [List.length_take]; omega),
      List.getElem?_take_of_lt h]
  · have hlen : (s.take p ++ bs).length = p + bs.length := by
      rw [List.length_append, List.length_take, Nat.min_eq_left hp]
    rw [List.getElem?_append_right (by omega), hlen, List.getElem?_drop]
    congr 1
    omega

/-- Reading where nothing has changed. -/
theorem readAt_congr {t : Bytes} (h : ∀ i, p ≤ i → i < p + n → t[i]? = s[i]?) :
    readAt t p n = readAt s p n := by
  refine List.ext_getElem? (fun i => ?_)
  unfold readAt
  by_cases hi : i < n
  · rw [List.getElem?_take_of_lt hi, List.getElem?_take_of_lt hi, List.getElem?_drop,
      List.getElem?_drop]
    exact h (p + i) (Nat.le_add_right _ _) (Nat.add_lt_add_left hi p)
  · rw [List.getElem?_eq_none (by rw [List.length_take]; omega),
      List.getElem?_eq_none (by rw [List.length_take]; omega)]

/-- **Reading beside a patch.** -/
theorem readAt_patch (hp : p ≤ s.length)
    (h : q + n ≤ p ∨ p + bs.length ≤ q) : readAt (patch s p bs) q n = readAt s q n := by
  refine readAt_congr (fun i hi hlt => ?_)
  exact getElem?_patch hp (by omega)

/-- **Reading what was written.** -/
theorem readAt_patch_self (hp : p ≤ s.length) (hn : n = bs.length) :
    readAt (patch s p bs) p n = bs := by
  have hlen : (s.take p).length = p := by rw [List.length_take, Nat.min_eq_left hp]
  rw [patch_eq hp, readAt, List.append_assoc, List.drop_append_of_le_length (Nat.le_of_eq hlen.symm),
    List.drop_eq_nil_of_le (Nat.le_of_eq hlen), List.nil_append, hn, List.take_left]

theorem readAt_append_left (h : p + n ≤ a.length) : readAt (a ++ b) p n = readAt a p n := by
  unfold readAt
  rw [List.drop_append_of_le_length (by omega), List.take_append_of_le_length]
  rw [List.length_drop]
  omega

theorem readAt_append_right : readAt (a ++ b) (a.length + p) n = readAt b p n := by
  unfold readAt
  rw [← List.drop_drop, List.drop_left]

theorem readAt_all (s : Bytes) : readAt s 0 s.length = s := by
  rw [readAt, List.drop_zero, List.take_length]

theorem readAt_middle (a b c : Bytes) (hp : p = a.length) (hn : n = b.length) :
    readAt (a ++ b ++ c) p n = b := by
  rw [readAt, hp, hn, List.append_assoc, List.drop_left, List.take_left]

/-- A patch of known bytes. -/
theorem patch_middle (a b c : Bytes) {d : Bytes} (hp : p = a.length) (hb : d.length = b.length) :
    patch (a ++ b ++ c) p d = a ++ d ++ c := by
  have hle : a.length ≤ (a ++ b ++ c).length := by
    simp only [List.length_append]
    omega
  rw [hp, patch_eq hle, hb, ← List.drop_drop, List.append_assoc a b c, List.take_left,
    List.drop_left, List.drop_left]

/-- A patch in front of what follows. -/
theorem patch_append_left (h : p + bs.length ≤ a.length) :
    patch (a ++ b) p bs = patch a p bs ++ b := by
  have hp : p ≤ a.length := by omega
  have hp' : p ≤ (a ++ b).length := by
    rw [List.length_append]
    omega
  rw [patch_eq hp, patch_eq hp', List.take_append_of_le_length hp,
    List.drop_append_of_le_length h]
  simp only [List.append_assoc]

/-- A patch behind what comes first. -/
theorem patch_append_right (h : q ≤ b.length) :
    patch (a ++ b) (a.length + q) bs = a ++ patch b q bs := by
  have hp : a.length + q ≤ (a ++ b).length := by
    rw [List.length_append]
    omega
  rw [patch_eq h, patch_eq hp, List.take_append, List.take_of_length_le (Nat.le_add_right _ _),
    Nat.add_sub_cancel_left, Nat.add_assoc, ← List.drop_drop, List.drop_left]
  simp only [List.append_assoc]

/-- Two patches in a row are one. -/
theorem patch_patch (h : p ≤ s.length) :
    patch (patch s p a) (p + a.length) b = patch s p (a ++ b) := by
  have hlen : (s.take p ++ a).length = p + a.length := by
    rw [List.length_append, List.length_take, Nat.min_eq_left h]
  rw [patch_eq h, patch_eq h, ← hlen, ← Nat.add_zero (s.take p ++ a).length,
    patch_append_right (Nat.zero_le _), patch_eq (Nat.zero_le _), List.take_zero, List.nil_append,
    Nat.zero_add, Nat.add_zero, hlen, List.drop_drop, List.length_append]
  simp only [List.append_assoc, Nat.add_assoc]

/-- Bytes that follow bytes are written as one, behind the end too. -/
theorem patch_patch_of_ne (ha : a ≠ []) :
    patch (patch s p a) (p + a.length) b = patch s p (a ++ b) := by
  have hpos := List.length_pos_of_ne_nil ha
  obtain ⟨front, hfront⟩ : ∃ front, front = s.take p ++ List.replicate (p - s.length) 0 := ⟨_, rfl⟩
  have hlen : front.length = p := by
    rw [hfront, List.length_append, List.length_take, List.length_replicate]
    omega
  have hlen' : (front ++ a).length = p + a.length := by rw [List.length_append, hlen]
  have hfirst : patch s p a = front ++ a ++ s.drop (p + a.length) := by rw [patch, hfront]
  have hle : p + a.length ≤ (patch s p a).length := by
    rw [hfirst, List.length_append, hlen']
    omega
  rw [patch_eq hle, hfirst, ← hlen', List.take_left, ← List.drop_drop, List.drop_left, hlen',
    List.drop_drop, patch, ← hfront, List.length_append]
  simp only [List.append_assoc, Nat.add_assoc]

theorem patch_nil (h : p ≤ s.length) : patch s p [] = s := by
  rw [patch_eq h, List.append_nil, List.length_nil, Nat.add_zero, List.take_append_drop]

/-! ## Records -/

/-- Reading inside of bytes that are known. -/
theorem readAt_inside (a b c : Bytes) (h : q + n ≤ b.length) :
    readAt (a ++ b ++ c) (a.length + q) n = readAt b q n := by
  rw [List.append_assoc, readAt_append_right, readAt_append_left h]

section

variable {α : Type} {g : α → Bytes} {w : Nat}

theorem length_flatMap_records (hg : ∀ e, (g e).length = w) (es : List α) :
    (es.flatMap g).length = w * es.length := by
  induction es with
  | nil => rfl
  | cons e es ih =>
    rw [List.flatMap_cons, List.length_append, hg, ih, List.length_cons, Nat.mul_succ, Nat.add_comm]

/-- **One of many records of the same size.** -/
theorem readAt_flatMap (hg : ∀ e, (g e).length = w) {es : List α} {k : Nat} {e : α}
    (hk : es[k]? = some e) : readAt (es.flatMap g) (w * k) w = g e := by
  obtain ⟨hlt, hget⟩ := List.getElem?_eq_some_iff.mp hk
  have hcut : es = es.take k ++ e :: es.drop (k + 1) := by
    rw [← hget, ← List.drop_eq_getElem_cons hlt, List.take_append_drop]
  have hfront : ((es.take k).flatMap g).length = w * k := by
    rw [length_flatMap_records hg, List.length_take_of_le (Nat.le_of_lt hlt)]
  have hbytes : es.flatMap g = (es.take k).flatMap g ++ g e ++ (es.drop (k + 1)).flatMap g := by
    conv_lhs => rw [hcut]
    rw [List.flatMap_append, List.flatMap_cons, List.append_assoc]
  rw [hbytes, readAt_middle _ _ _ hfront.symm (hg e).symm]

end

/-! ## Files -/

/-- `std::ofstream`, opened with `trunc`: the bytes, and the put position. -/
structure OutFile where
  bytes : Bytes
  pos : Nat
  deriving DecidableEq

namespace OutFile

variable {f : OutFile}

def empty : OutFile := ⟨[], 0⟩

/-- `write`. -/
def write (f : OutFile) (bs : Bytes) : OutFile := ⟨patch f.bytes f.pos bs, f.pos + bs.length⟩

/-- `seekp(p, beg)`. -/
def seek (f : OutFile) (p : Nat) : OutFile := ⟨f.bytes, p⟩

/-- `seekp(0, end)`. -/
def seekEnd (f : OutFile) : OutFile := ⟨f.bytes, f.bytes.length⟩

@[simp] theorem bytes_seek (p : Nat) : (f.seek p).bytes = f.bytes := rfl
@[simp] theorem pos_seek (p : Nat) : (f.seek p).pos = p := rfl
@[simp] theorem bytes_seekEnd : f.seekEnd.bytes = f.bytes := rfl
@[simp] theorem pos_seekEnd : f.seekEnd.pos = f.bytes.length := rfl
@[simp] theorem pos_write (bs : Bytes) : (f.write bs).pos = f.pos + bs.length := rfl
@[simp] theorem bytes_write (bs : Bytes) : (f.write bs).bytes = patch f.bytes f.pos bs := rfl

/-- The position is at the end. -/
def AtEnd (f : OutFile) : Prop := f.pos = f.bytes.length

theorem atEnd_empty : empty.AtEnd := rfl

theorem atEnd_seekEnd : f.seekEnd.AtEnd := rfl

/-- At the end, a write appends, and leaves the position at the end. -/
theorem AtEnd.bytes_write (h : f.AtEnd) (bs : Bytes) : (f.write bs).bytes = f.bytes ++ bs := by
  rw [OutFile.bytes_write, h, patch_end]

theorem AtEnd.write (h : f.AtEnd) (bs : Bytes) : (f.write bs).AtEnd := by
  unfold AtEnd
  rw [h.bytes_write, pos_write, List.length_append, h]

theorem write_nil (h : f.pos ≤ f.bytes.length) : f.write [] = f := by
  rw [OutFile.write, patch_nil h]
  rfl

/-- Two writes in a row are one. -/
theorem write_write (h : f.pos ≤ f.bytes.length) (a b : Bytes) :
    (f.write a).write b = f.write (a ++ b) := by
  rw [OutFile.write, OutFile.write, OutFile.write]
  simp only [patch_patch h, List.length_append, Nat.add_assoc]

theorem pos_le_write (h : f.pos ≤ f.bytes.length) (a : Bytes) :
    (f.write a).pos ≤ (f.write a).bytes.length := by
  rw [pos_write, OutFile.bytes_write, patch_eq h]
  simp only [List.length_append, List.length_take]
  omega

/-- Many writes in a row are one. -/
theorem foldl_write {α : Type} (g : α → Bytes) (es : List α) (h : f.pos ≤ f.bytes.length) :
    es.foldl (fun f e => f.write (g e)) f = f.write (es.flatMap g) := by
  induction es generalizing f with
  | nil =>
    rw [List.foldl_nil, List.flatMap_nil, write_nil h]
  | cons e es ih =>
    rw [List.foldl_cons, ih (pos_le_write h _), List.flatMap_cons, write_write h]

end OutFile

/-! ## What a program leaves alone -/

/-- Bytes that may be written over: where they begin, and how many. -/
structure Area where
  pos : Nat
  size : Nat

def Area.Has (a : Area) (i : Nat) : Prop := a.pos ≤ i ∧ i < a.pos + a.size

/-- `t` comes from `s` by writing in these areas, and behind the end. -/
structure Rewritten (areas : List Area) (s t : Bytes) : Prop where
  longer : s.length ≤ t.length
  same : ∀ i, i < s.length → (∀ x ∈ areas, ¬ x.Has i) → t[i]? = s[i]?

namespace Rewritten

variable {areas : List Area} {t u : Bytes}

theorem refl (areas : List Area) (s : Bytes) : Rewritten areas s s :=
  ⟨Nat.le_refl _, fun _ _ _ => rfl⟩

theorem trans (h₁ : Rewritten areas s t) (h₂ : Rewritten areas t u) : Rewritten areas s u := by
  refine ⟨Nat.le_trans h₁.longer h₂.longer, fun i hi hout => ?_⟩
  rw [h₂.same i (Nat.lt_of_lt_of_le hi h₁.longer) hout, h₁.same i hi hout]

theorem append (areas : List Area) (s bs : Bytes) : Rewritten areas s (s ++ bs) := by
  refine ⟨?_, fun i hi _ => List.getElem?_append_left hi⟩
  rw [List.length_append]
  exact Nat.le_add_right _ _

/-- **A patch inside an area.** -/
theorem patch {x : Area} (hx : x ∈ areas) (hfirst : x.pos ≤ p)
    (hlast : p + bs.length ≤ x.pos + x.size) (hp : p ≤ s.length) :
    Rewritten areas s (patch s p bs) := by
  refine ⟨length_le_patch hp, fun i _ hout => getElem?_patch hp ?_⟩
  have hfree := hout x hx
  unfold Area.Has at hfree
  omega

/-- Many writes, one after the other. -/
theorem foldl {α : Type} {f : OutFile} (g : OutFile → α → OutFile) (xs : List α)
    (hs : Rewritten areas s f.bytes)
    (h : ∀ x ∈ xs, ∀ f : OutFile, s.length ≤ f.bytes.length →
      Rewritten areas f.bytes (g f x).bytes) :
    Rewritten areas s (xs.foldl g f).bytes := by
  induction xs generalizing f with
  | nil => exact hs
  | cons x xs ih =>
    rw [List.foldl_cons]
    refine ih ?_ fun y hy => h y (List.mem_cons_of_mem _ hy)
    exact hs.trans (h x (List.mem_cons_self ..) f hs.longer)

/-- **Reading beside the areas.** -/
theorem readAt (h : Rewritten areas s t) (hq : q + n ≤ s.length)
    (hout : ∀ x ∈ areas, q + n ≤ x.pos ∨ x.pos + x.size ≤ q) : readAt t q n = readAt s q n := by
  refine readAt_congr (fun i hi hlt => h.same i (by omega) fun x hx => ?_)
  have hfree := hout x hx
  unfold Area.Has
  omega

end Rewritten

end Maixii.Lib
