import Maixii.Lib.Bytes

/-!
# `Lib/Scan.lean`: `sscanf`

A C scanner reads its input from the left, directive by directive, and stops at the first one
that does not match; what it returns is how many fields it has assigned. `scan` is that, with
the fields themselves as the result, so the source's `sscanf(..) == 3` is a pattern of three
fields. The directives are the ones this code base uses.

Numbers are read as `strtoull` reads them: an optional sign, then decimal digits, all of them,
saturating at the largest 64-bit value; the result is then stored in the width of the argument.
-/

set_option autoImplicit false

namespace Maixii.Lib

/-- `isspace` in the C locale. -/
def isSpace (b : UInt8) : Bool := b = 32 || (9 ≤ b && b ≤ 13)

def isDigit (b : UInt8) : Bool := 48 ≤ b && b ≤ 57

/-- What a C function sees of a buffer: the bytes before the first NUL. -/
def cstr (s : Bytes) : Bytes := s.takeWhile (· ≠ 0)

inductive Directive
  /-- White space in the format: any amount of it in the input. -/
  | space
  | lit (c : UInt8)
  /-- `%s` -/
  | word
  /-- `%[^c]` -/
  | until (c : UInt8)
  /-- `%*[^c]` -/
  | skipUntil (c : UInt8)
  /-- `%u` and `%hu`, by width. -/
  | unsigned (bits : Nat)
  deriving DecidableEq, Repr

/-- What one conversion assigned. -/
inductive Field
  | text (bs : Bytes)
  | num (n : Nat)
  deriving DecidableEq, Repr

/-- The value of a string of digits read after `acc`. -/
def digitsValue (acc : Nat) (ds : Bytes) : Nat :=
  ds.foldl (fun n b => n * 10 + (b.toNat - 48)) acc

/-- The digits of a number and what they are worth, sign applied, as an unsigned 64-bit value. -/
def unsignedValue (neg : Bool) (ds : Bytes) : Nat :=
  let v := digitsValue 0 ds
  if 2 ^ 64 ≤ v then 2 ^ 64 - 1
  else if neg then (2 ^ 64 - v) % 2 ^ 64
  else v

/-- The sign, if there is one. -/
def readSign : Bytes → Bool × Bytes
  | 43 :: s => (false, s)
  | 45 :: s => (true, s)
  | s => (false, s)

def readUnsigned (s : Bytes) : Option (Nat × Bytes) :=
  let (neg, s') := readSign s
  if s'.takeWhile isDigit = [] then none
  else some (unsignedValue neg (s'.takeWhile isDigit), s'.dropWhile isDigit)

/-- **The scanner**: the fields assigned before the first mismatch. -/
def scan : List Directive → Bytes → List Field
  | [], _ => []
  | .space :: ds, s => scan ds (s.dropWhile isSpace)
  | .lit _ :: _, [] => []
  | .lit c :: ds, b :: s => if b = c then scan ds s else []
  | .word :: ds, s =>
      let s' := s.dropWhile isSpace
      let w := s'.takeWhile fun b => !isSpace b
      if w = [] then [] else .text w :: scan ds (s'.dropWhile fun b => !isSpace b)
  | .until c :: ds, s =>
      let w := s.takeWhile (· ≠ c)
      if w = [] then [] else .text w :: scan ds (s.dropWhile (· ≠ c))
  | .skipUntil c :: ds, s =>
      if s.takeWhile (· ≠ c) = [] then [] else scan ds (s.dropWhile (· ≠ c))
  | .unsigned bits :: ds, s =>
      match readUnsigned (s.dropWhile isSpace) with
      | none => []
      | some (n, s') => .num (n % 2 ^ bits) :: scan ds s'

/-- `sscanf(str, format, ..)`. -/
def sscanf (str : Bytes) (format : List Directive) : List Field := scan format (cstr str)

/-! ## Where a run of bytes ends -/

section TakeWhile

variable {α : Type} {p : α → Bool}

/-- The rest begins with something that `p` refuses, or is empty. -/
def Stops (p : α → Bool) (s : List α) : Prop := ∀ b s', s = b :: s' → p b = false

theorem stops_nil : Stops p [] := by
  intro b s' h
  cases h

theorem stops_cons {b : α} {s : List α} (h : p b = false) : Stops p (b :: s) := by
  intro c s' hc
  cases hc
  exact h

theorem takeWhile_stop {w s : List α} (hw : ∀ b ∈ w, p b = true) (hs : Stops p s) :
    (w ++ s).takeWhile p = w := by
  rw [List.takeWhile_append_of_pos hw]
  cases s with
  | nil => simp
  | cons b s => rw [List.takeWhile_cons_of_neg (by simp [hs b s rfl]), List.append_nil]

theorem dropWhile_stop {w s : List α} (hw : ∀ b ∈ w, p b = true) (hs : Stops p s) :
    (w ++ s).dropWhile p = s := by
  rw [List.dropWhile_append_of_pos hw]
  cases s with
  | nil => simp
  | cons b s => rw [List.dropWhile_cons_of_neg (by simp [hs b s rfl])]

theorem dropWhile_of_stops {s : List α} (hs : Stops p s) : s.dropWhile p = s := by
  simpa using dropWhile_stop (w := []) (by simp) hs

end TakeWhile

/-- A buffer without NUL is the string it holds. -/
theorem cstr_of_no_nul {s : Bytes} (h : (0 : UInt8) ∉ s) : cstr s = s := by
  have hs : ∀ b ∈ s, decide (b ≠ 0) = true := fun b hb => by
    simp only [ne_eq, decide_eq_true_eq]
    rintro rfl
    exact h hb
  simpa [cstr] using takeWhile_stop hs stops_nil

/-- What precedes the first NUL is kept. -/
theorem cstr_append {w s : Bytes} (h : (0 : UInt8) ∉ w) : cstr (w ++ s) = w ++ cstr s := by
  refine List.takeWhile_append_of_pos (fun b hb => ?_)
  simp only [ne_eq, decide_eq_true_eq]
  rintro rfl
  exact h hb

theorem cstr_cons {b : UInt8} {s : Bytes} (h : b ≠ 0) : cstr (b :: s) = b :: cstr s :=
  cstr_append (w := [b]) (by simpa using h.symm)

/-! ## One directive at a time -/

section Scan

attribute [local simp] scan

variable {ds : List Directive} {w s : Bytes}

theorem scan_lit (c : UInt8) : scan (.lit c :: ds) (c :: s) = scan ds s := by
  simp [scan]

theorem scan_lit_ne {b c : UInt8} (h : b ≠ c) : scan (.lit c :: ds) (b :: s) = [] := by
  simp [scan, h]

theorem scan_space (hw : ∀ b ∈ w, isSpace b = true) (hs : Stops isSpace s) :
    scan (.space :: ds) (w ++ s) = scan ds s := by
  rw [scan, dropWhile_stop hw hs]

theorem scan_word {gap : Bytes} (hgap : ∀ b ∈ gap, isSpace b = true) (hw : w ≠ [])
    (hword : ∀ b ∈ w, isSpace b = false) (hs : Stops (fun b => !isSpace b) s) :
    scan (.word :: ds) (gap ++ w ++ s) = .text w :: scan ds s := by
  have hstop : Stops isSpace (w ++ s) := by
    cases w with
    | nil => exact absurd rfl hw
    | cons b w => exact stops_cons (hword b List.mem_cons_self)
  have hd : (gap ++ w ++ s).dropWhile isSpace = w ++ s := by
    rw [List.append_assoc, dropWhile_stop hgap hstop]
  have hw' : ∀ b ∈ w, (!isSpace b) = true := fun b hb => by simp [hword b hb]
  simp only [scan, hd, takeWhile_stop hw' hs, dropWhile_stop hw' hs, if_neg hw]

theorem scan_until {c : UInt8} (hw : w ≠ []) (hc : c ∉ w) (hs : Stops (· ≠ c) s) :
    scan (.until c :: ds) (w ++ s) = .text w :: scan ds s := by
  have hw' : ∀ b ∈ w, decide (b ≠ c) = true := fun b hb => by
    simp only [ne_eq, decide_eq_true_eq]
    rintro rfl
    exact hc hb
  simp only [scan, takeWhile_stop hw' hs, dropWhile_stop hw' hs, if_neg hw]

theorem scan_skipUntil {c : UInt8} (hw : w ≠ []) (hc : c ∉ w) :
    scan (.skipUntil c :: ds) (w ++ c :: s) = scan ds (c :: s) := by
  have hw' : ∀ b ∈ w, decide (b ≠ c) = true := fun b hb => by
    simp only [ne_eq, decide_eq_true_eq]
    rintro rfl
    exact hc hb
  have hs : Stops (fun b => decide (b ≠ c)) (c :: s) := stops_cons (by simp)
  simp only [scan, takeWhile_stop hw' hs, dropWhile_stop hw' hs, if_neg hw]

end Scan

/-! ## Decimal numbers -/

def digit (d : Nat) : UInt8 := UInt8.ofNat (48 + d)

def decimalAux : Nat → Nat → Bytes → Bytes
  | 0, _, acc => acc
  | fuel + 1, n, acc =>
      if n < 10 then digit n :: acc else decimalAux fuel (n / 10) (digit (n % 10) :: acc)

/-- `%u`: the decimal representation. -/
def decimal (n : Nat) : Bytes := decimalAux (n + 1) n []

theorem digit_toNat {d : Nat} (h : d < 10) : (digit d).toNat - 48 = d := by
  have : (digit d).toNat = 48 + d := UInt8.toNat_ofNat_of_lt' (by show 48 + d < 256; omega)
  omega

theorem isDigit_digit {d : Nat} (h : d < 10) : isDigit (digit d) = true := by
  have : (digit d).toNat = 48 + d := UInt8.toNat_ofNat_of_lt' (by show 48 + d < 256; omega)
  simp only [isDigit, Bool.and_eq_true, decide_eq_true_eq, UInt8.le_iff_toNat_le, this]
  exact ⟨by show 48 ≤ 48 + d; omega, by show 48 + d ≤ 57; omega⟩

theorem digitsValue_decimalAux : ∀ (fuel n : Nat) (acc : Bytes), n < fuel →
    digitsValue 0 (decimalAux fuel n acc) = digitsValue n acc := by
  intro fuel
  induction fuel with
  | zero => intro n acc h; omega
  | succ fuel ih =>
    intro n acc h
    by_cases h10 : n < 10
    · simp only [decimalAux, if_pos h10, digitsValue, List.foldl_cons, Nat.zero_mul,
        Nat.zero_add, digit_toNat h10]
    · have hdiv : n / 10 < fuel := by omega
      have hmod : n % 10 < 10 := Nat.mod_lt _ (by decide)
      rw [decimalAux, if_neg h10, ih _ _ hdiv]
      simp only [digitsValue, List.foldl_cons, digit_toNat hmod]
      congr 1
      omega

theorem mem_decimalAux : ∀ (fuel n : Nat) (acc : Bytes), (∀ b ∈ acc, isDigit b = true) →
    ∀ b ∈ decimalAux fuel n acc, isDigit b = true := by
  intro fuel
  induction fuel with
  | zero => intro n acc h; exact h
  | succ fuel ih =>
    intro n acc h
    by_cases h10 : n < 10
    · rw [decimalAux, if_pos h10]
      exact List.forall_mem_cons.mpr ⟨isDigit_digit h10, h⟩
    · rw [decimalAux, if_neg h10]
      exact ih _ _ (List.forall_mem_cons.mpr ⟨isDigit_digit (Nat.mod_lt _ (by decide)), h⟩)

theorem decimalAux_ne_nil (fuel n : Nat) (acc : Bytes) (h : acc ≠ [] ∨ fuel ≠ 0) :
    decimalAux fuel n acc ≠ [] := by
  induction fuel generalizing n acc with
  | zero => simpa [decimalAux] using h
  | succ fuel ih =>
    rw [decimalAux]
    split
    · simp
    · exact ih _ _ (Or.inl (by simp))

theorem decimal_ne_nil (n : Nat) : decimal n ≠ [] :=
  decimalAux_ne_nil _ _ _ (Or.inr (Nat.succ_ne_zero n))

theorem isDigit_of_mem_decimal {n : Nat} {b : UInt8} (h : b ∈ decimal n) : isDigit b = true :=
  mem_decimalAux _ _ _ (by simp) b h

theorem digitsValue_decimal (n : Nat) : digitsValue 0 (decimal n) = n :=
  digitsValue_decimalAux _ _ _ (Nat.lt_succ_self n)

/-- A decimal contains no byte that is not a digit. -/
theorem not_mem_decimal {n : Nat} {b : UInt8} (h : isDigit b = false) : b ∉ decimal n := by
  intro hm
  rw [isDigit_of_mem_decimal hm] at h
  exact Bool.noConfusion h

/-- What is printed is read back, up to the first byte that is no digit. -/
theorem readUnsigned_decimal {n : Nat} {s : Bytes} (hn : n < 2 ^ 64) (hs : Stops isDigit s) :
    readUnsigned (decimal n ++ s) = some (n, s) := by
  have hdig : ∀ b ∈ decimal n, isDigit b = true := fun b hb => isDigit_of_mem_decimal hb
  have hsign : readSign (decimal n ++ s) = (false, decimal n ++ s) := by
    cases hd : decimal n with
    | nil => exact absurd hd (decimal_ne_nil n)
    | cons b w =>
      have hb : isDigit b = true := hdig b (by rw [hd]; exact List.mem_cons_self)
      have h43 : b ≠ 43 := by rintro rfl; exact absurd hb (by decide)
      have h45 : b ≠ 45 := by rintro rfl; exact absurd hb (by decide)
      rw [List.cons_append]
      unfold readSign
      split
      · rename_i heq; exact absurd (List.cons.inj heq).1 h43
      · rename_i heq; exact absurd (List.cons.inj heq).1 h45
      · rfl
  have hlt : ¬ 2 ^ 64 ≤ n := Nat.not_le_of_lt hn
  simp only [readUnsigned, hsign, takeWhile_stop hdig hs, dropWhile_stop hdig hs,
    if_neg (decimal_ne_nil n), unsignedValue, digitsValue_decimal, if_neg hlt, Bool.false_eq_true,
    if_false]

theorem stops_isSpace_decimal (n : Nat) (s : Bytes) : Stops isSpace (decimal n ++ s) := by
  cases hd : decimal n with
  | nil => exact absurd hd (decimal_ne_nil n)
  | cons b w =>
    have hb : isDigit b = true :=
      isDigit_of_mem_decimal (n := n) (by rw [hd]; exact List.mem_cons_self)
    refine stops_cons ?_
    simp only [isDigit, Bool.and_eq_true, decide_eq_true_eq, UInt8.le_iff_toNat_le] at hb
    have h48 : 48 ≤ b.toNat := hb.1
    simp only [isSpace, Bool.or_eq_false_iff, decide_eq_false_iff_not, Bool.and_eq_false_iff,
      UInt8.le_iff_toNat_le]
    refine ⟨?_, Or.inr ?_⟩
    · rintro rfl
      exact absurd h48 (by decide)
    · show ¬ b.toNat ≤ 13
      omega

/-- `%u` and `%hu` read back what `%u` printed, in the width of their argument. -/
theorem scan_unsigned {ds : List Directive} {bits n : Nat} {gap s : Bytes}
    (hgap : ∀ b ∈ gap, isSpace b = true) (hn : n < 2 ^ 64) (hs : Stops isDigit s) :
    scan (.unsigned bits :: ds) (gap ++ decimal n ++ s) = .num (n % 2 ^ bits) :: scan ds s := by
  rw [scan, List.append_assoc, dropWhile_stop hgap (stops_isSpace_decimal n s),
    readUnsigned_decimal hn hs]

end Maixii.Lib
