import Mathlib.Data.List.TakeWhile
import Maixii.Lib.Scan

/-!
# `Lib/ScanText.lean`: what a scanner reads, as text

`Lib/Scan.lean` runs a scanner; here is which texts its directives take. `%[^c]` takes what stands
before the first `c` (`cut_at`), `%s` takes the first word (`firstWord`), and `%u` takes more than
digits: white space and a sign may come before them (`NumberText`, `readUnsigned_sound`,
`readUnsigned_complete`).
-/

set_option autoImplicit false

namespace Maixii.Lib

variable {s w q rest : Bytes}

/-! ## Before a byte -/

/-- A text is cut at the first `c`, or has none. -/
theorem cut_at (c : UInt8) (s : Bytes) :
    (c ∉ s ∧ s.takeWhile (· ≠ c) = s ∧ s.dropWhile (· ≠ c) = []) ∨
      ∃ w t, s = w ++ c :: t ∧ c ∉ w ∧ s.takeWhile (· ≠ c) = w ∧ s.dropWhile (· ≠ c) = c :: t := by
  induction s with
  | nil => exact .inl ⟨by simp, rfl, rfl⟩
  | cons b s ih =>
    by_cases hb : b = c
    · subst hb
      exact .inr ⟨[], s, rfl, by simp, by simp, by simp⟩
    · rcases ih with ⟨hc, htake, hdrop⟩ | ⟨w, t, rfl, hc, htake, hdrop⟩
      · refine .inl ⟨by simpa [Ne.symm hb] using hc, ?_, ?_⟩
        · rw [List.takeWhile_cons_of_pos (by simpa using hb), htake]
        · rw [List.dropWhile_cons_of_pos (by simpa using hb), hdrop]
      · refine .inr ⟨b :: w, t, rfl, by simpa [Ne.symm hb] using hc, ?_, ?_⟩
        · rw [List.takeWhile_cons_of_pos (by simpa using hb), htake]
        · rw [List.dropWhile_cons_of_pos (by simpa using hb), hdrop]

theorem takeWhile_before {c : UInt8} (hw : c ∉ w) (t : Bytes) :
    (w ++ c :: t).takeWhile (· ≠ c) = w := by
  refine takeWhile_stop ?_ (stops_cons (by simp))
  intro b hb
  simp only [ne_eq, decide_eq_true_eq]
  rintro rfl
  exact hw hb

/-- There is one way to cut at the first `c`. -/
theorem cut_unique {c : UInt8} {w w' t t' : Bytes} (hw : c ∉ w) (hw' : c ∉ w')
    (h : w ++ c :: t = w' ++ c :: t') : w = w' ∧ t = t' := by
  have htake := takeWhile_before hw t
  rw [h, takeWhile_before hw' t'] at htake
  subst htake
  exact ⟨rfl, (List.cons.inj (List.append_cancel_left h)).2⟩

/-! ## Occurrences -/

theorem occurs_iff {pat s : Bytes} : occurs pat s = true ↔ pat <:+: s := by
  unfold occurs
  cases h : findFirst pat s with
  | none =>
    simp only [Option.isSome_none, Bool.false_eq_true, false_iff]
    rintro ⟨x, y, rfl⟩
    refine findFirst_none_iff.mp h x.length (by simp) ?_
    rw [List.append_assoc, List.drop_left]
    exact List.prefix_append _ _
  | some n =>
    simp only [Option.isSome_some, true_iff]
    obtain ⟨hp, -⟩ := findFirst_spec h
    exact hp.isInfix.trans (List.drop_suffix n s).isInfix

/-- A pattern without the byte `c` is on one side of it. -/
theorem infix_cut {pat a b : Bytes} {c : UInt8} (hc : c ∉ pat) :
    pat <:+: a ++ c :: b ↔ pat <:+: a ∨ pat <:+: b := by
  constructor
  · rintro ⟨x, y, h⟩
    rw [List.append_assoc] at h
    rcases List.append_eq_append_iff.mp h with ⟨z, rfl, hz⟩ | ⟨z, rfl, hz⟩
    · -- It begins before `c`.
      rcases List.append_eq_append_iff.mp hz with ⟨w, rfl, -⟩ | ⟨w, rfl, hw⟩
      · exact .inl ⟨x, w, List.append_assoc _ _ _⟩
      · cases w with
        | nil => exact .inl ⟨x, [], by simp⟩
        | cons d w =>
          obtain ⟨rfl, -⟩ := List.cons.inj hw
          exact absurd (by simp) hc
    · cases z with
      | nil =>
        cases pat with
        | nil => exact .inl ⟨[], a, rfl⟩
        | cons d pat =>
          obtain ⟨rfl, -⟩ := List.cons.inj hz
          exact absurd List.mem_cons_self hc
      | cons d z =>
        obtain ⟨-, rfl⟩ := List.cons.inj hz
        exact .inr ⟨z, y, List.append_assoc _ _ _⟩
  · rintro (⟨x, y, rfl⟩ | ⟨x, y, rfl⟩)
    · exact ⟨x, y ++ c :: b, by simp⟩
    · exact ⟨a ++ c :: x, y, by simp⟩

/-! ## Words -/

/-- Nothing but white space. -/
def Blank (s : Bytes) : Prop := ∀ b ∈ s, isSpace b = true

/-- No white space. -/
def Solid (s : Bytes) : Prop := ∀ b ∈ s, isSpace b = false

instance (s : Bytes) : Decidable (Blank s) := inferInstanceAs (Decidable (∀ b ∈ s, _))

instance (s : Bytes) : Decidable (Solid s) := inferInstanceAs (Decidable (∀ b ∈ s, _))

/-- What `%s` reads. -/
def firstWord (s : Bytes) : Bytes := (s.dropWhile isSpace).takeWhile fun b => !isSpace b

theorem firstWord_eq_nil : firstWord s = [] ↔ Blank s := by
  unfold firstWord Blank
  induction s with
  | nil => simp
  | cons b s ih =>
    cases hb : isSpace b with
    | true => rw [List.dropWhile_cons_of_pos hb, ih, List.forall_mem_cons, and_iff_right hb]
    | false =>
      rw [List.dropWhile_cons_of_neg (by simp [hb]), List.takeWhile_cons_of_pos (by simp [hb])]
      simp [hb]

/-- A text without white space is its own first word. -/
theorem firstWord_solid (h : Solid s) : firstWord s = s := by
  unfold firstWord
  cases s with
  | nil => rfl
  | cons b s =>
    have hb := h b List.mem_cons_self
    rw [List.dropWhile_cons_of_neg (by simp [hb])]
    simpa using takeWhile_stop (w := b :: s) (p := fun b => !isSpace b)
      (fun c hc => by simp [h c hc]) stops_nil

theorem scan_last_word (s : Bytes) :
    scan [.word] s = if firstWord s = [] then [] else [.text (firstWord s)] := rfl

/-- What stands behind the first word. -/
def behind (s : Bytes) : Bytes := (s.dropWhile isSpace).dropWhile fun b => !isSpace b

/-- White space in the format before `%s` changes nothing. -/
theorem scan_word_space (ds : List Directive) (s : Bytes) :
    scan (.space :: .word :: ds) s = scan (.word :: ds) s := by
  have hidem : (s.dropWhile isSpace).dropWhile isSpace = s.dropWhile isSpace := by
    refine dropWhile_of_stops ?_
    intro b s' hb
    have hhead := List.head?_dropWhile_not isSpace s
    rw [hb] at hhead
    simpa using hhead
  simp only [scan, hidem]

theorem scan_word_cons (ds : List Directive) (s : Bytes) :
    scan (.word :: ds) s =
      if firstWord s = [] then [] else .text (firstWord s) :: scan ds (behind s) := rfl

/-- Behind white space there is no further word. -/
theorem firstWord_behind_nil (h : firstWord s = []) : firstWord (behind s) = [] := by
  have hnil : s.dropWhile isSpace = [] := by
    rw [List.dropWhile_eq_nil_iff]
    exact firstWord_eq_nil.mp h
  unfold behind
  rw [hnil]
  rfl

/-! ## `strstr` -/

/-- How far `strstr(s, pat)` looks: to the end of the first match or to the NUL, and past
everything there is if it meets neither. -/
def strstrLooks (pat s : Bytes) : Option Nat :=
  match findFirst pat (cstr s) with
  | some pos => some (pos + pat.length)
  | none => if 0 ∈ s then some ((cstr s).length + 1) else none

theorem zero_notMem_cstr (s : Bytes) : 0 ∉ cstr s := by
  intro hm
  simpa using List.mem_takeWhile_imp hm

/-- The NUL is right behind the string. -/
theorem zero_mem_take {n : Nat} (h : 0 ∈ s) : 0 ∈ s.take n ↔ (cstr s).length < n := by
  rcases cut_at 0 s with ⟨hno, -, -⟩ | ⟨w, t, rfl, hw, htake, -⟩
  · exact absurd h hno
  · have hlen : cstr (w ++ 0 :: t) = w := htake
    rw [hlen]
    constructor
    · intro hm
      by_contra hle
      rw [List.take_append_of_le_length (Nat.not_lt.mp hle)] at hm
      exact hw (List.mem_of_mem_take hm)
    · intro hlt
      obtain ⟨k, hk⟩ := Nat.exists_eq_add_of_lt hlt
      rw [hk, Nat.add_assoc, List.take_length_add_append]
      simp

/-- Without a NUL in them, the first bytes are the first bytes of the string. -/
theorem take_cstr {n : Nat} (h : 0 ∉ s.take n) : (cstr s).take n = s.take n := by
  conv_rhs => rw [← List.take_append_drop n s]
  conv_lhs => rw [← List.take_append_drop n s, cstr_append h]
  by_cases hn : n ≤ s.length
  · have hlen : (s.take n).length = n := List.length_take_of_le hn
    rw [List.take_left' hlen, List.take_left' hlen]
  · rw [List.drop_of_length_le (by omega)]
    rfl

/-- **A scan stays in the first `n` bytes** exactly when they have a NUL or the pattern. -/
theorem strstrLooks_le {pat : Bytes} {n : Nat} :
    (∃ k, strstrLooks pat s = some k ∧ k ≤ n) ↔ 0 ∈ s.take n ∨ pat <:+: s.take n := by
  unfold strstrLooks
  constructor
  · rintro ⟨k, hlooks, hk⟩
    split at hlooks
    · rename_i pos hpos
      obtain rfl := Option.some.inj hlooks
      by_cases hzero : 0 ∈ s.take n
      · exact .inl hzero
      · right
        obtain ⟨⟨t, ht⟩, hle⟩ := findFirst_spec hpos
        rw [← take_cstr hzero]
        obtain ⟨a, ha, hlen⟩ : ∃ a, cstr s = a ++ pat ++ t ∧ (a ++ pat).length = pos + pat.length := by
          refine ⟨(cstr s).take pos, ?_, ?_⟩
          · rw [List.append_assoc, ht, List.take_append_drop]
          · rw [List.length_append, List.length_take_of_le hle]
        rw [ha, List.take_append, List.take_of_length_le (by omega)]
        exact ⟨a, _, rfl⟩
    · split at hlooks
      · rename_i hzero
        obtain rfl := Option.some.inj hlooks
        exact .inl ((zero_mem_take hzero).mpr hk)
      · simp at hlooks
  · intro h
    by_cases hzero : 0 ∈ s.take n
    · have hs : 0 ∈ s := List.mem_of_mem_take hzero
      have hlt := (zero_mem_take hs).mp hzero
      cases hpos : findFirst pat (cstr s) with
      | none => exact ⟨_, by rw [if_pos hs], hlt⟩
      | some pos =>
        refine ⟨_, rfl, ?_⟩
        obtain ⟨hp, hle⟩ := findFirst_spec hpos
        have hroom := hp.length_le
        rw [List.length_drop] at hroom
        omega
    · obtain ⟨a, c, hinfix⟩ := h.resolve_left hzero
      -- The pattern is in the string too, and the first match is no later.
      have hat : pat <+: (cstr s).drop a.length := by
        have hfront : pat <+: pat ++ c := List.prefix_append _ _
        refine hfront.trans ?_
        have htake := take_cstr hzero
        rw [← hinfix, List.append_assoc] at htake
        have hpre : a ++ (pat ++ c) <+: cstr s := by
          rw [← htake]
          exact List.take_prefix _ _
        simpa using hpre.drop a.length
      have hlen : a.length + pat.length ≤ n := by
        have hle := congrArg List.length hinfix
        simp only [List.length_append, List.length_take] at hle
        omega
      have hin : a.length ≤ (cstr s).length := by
        by_contra hlt
        rw [List.drop_of_length_le (by omega)] at hat
        obtain rfl := List.prefix_nil.mp hat
        have htake := congrArg List.length (take_cstr hzero)
        rw [← hinfix] at htake
        simp only [List.length_append, List.length_take, List.length_nil] at htake
        omega
      cases hpos : findFirst pat (cstr s) with
      | none => exact absurd hat (findFirst_none_iff.mp hpos _ hin)
      | some pos =>
        refine ⟨_, rfl, ?_⟩
        have hfirst : pos ≤ a.length := by
          by_contra hlt
          exact findFirst_lt hpos (Nat.lt_of_not_le hlt) hat
        omega

/-! ## Numbers -/

/-- What `%u` reads: white space, a sign, and at least one digit. -/
def NumberText (q : Bytes) : Prop :=
  ∃ gap sign ds, q = gap ++ sign ++ ds ∧ Blank gap ∧ sign ∈ [[], [43], [45]] ∧ ds ≠ [] ∧
    ∀ b ∈ ds, isDigit b = true

/-- Decimal digits and nothing else. -/
def Digits (q : Bytes) : Prop := q ≠ [] ∧ ∀ b ∈ q, isDigit b = true

instance (q : Bytes) : Decidable (Digits q) := inferInstanceAs (Decidable (_ ∧ _))

theorem isSpace_of_isDigit {b : UInt8} (h : isDigit b = true) : isSpace b = false := by
  simp only [isDigit, Bool.and_eq_true, decide_eq_true_eq, UInt8.le_iff_toNat_le] at h
  have h48 : 48 ≤ b.toNat := h.1
  simp only [isSpace, Bool.or_eq_false_iff, decide_eq_false_iff_not, Bool.and_eq_false_iff,
    UInt8.le_iff_toNat_le]
  refine ⟨?_, Or.inr ?_⟩
  · rintro rfl
    exact absurd h48 (by decide)
  · show ¬ b.toNat ≤ 13
    omega

/-- The sign is read, and what follows it. -/
theorem readSign_split (s : Bytes) :
    ∃ sign, sign ∈ [[], [43], [45]] ∧ s = sign ++ (readSign s).2 := by
  unfold readSign
  split
  · exact ⟨[43], by simp, rfl⟩
  · exact ⟨[45], by simp, rfl⟩
  · exact ⟨[], by simp, rfl⟩

/-- A sign in front of digits. -/
theorem readSign_digits (ds : Bytes) {sign : Bytes} (hsign : sign ∈ [[], [43], [45]])
    (hds : ∀ b ∈ ds.head?, isDigit b = true) :
    ∃ neg, readSign (sign ++ ds) = (neg, ds) ∧ (sign = [] → neg = false) := by
  simp only [List.mem_cons, List.not_mem_nil, or_false] at hsign
  rcases hsign with rfl | rfl | rfl
  · cases ds with
    | nil => exact ⟨false, rfl, fun _ => rfl⟩
    | cons b ds =>
      have hb : isDigit b = true := hds b rfl
      have h43 : b ≠ 43 := by
        rintro rfl
        exact absurd hb (by decide)
      have h45 : b ≠ 45 := by
        rintro rfl
        exact absurd hb (by decide)
      refine ⟨false, ?_, fun _ => rfl⟩
      rw [List.nil_append]
      unfold readSign
      split
      · rename_i heq
        exact absurd (List.cons.inj heq).1 h43
      · rename_i heq
        exact absurd (List.cons.inj heq).1 h45
      · rfl
  · exact ⟨false, rfl, fun _ => rfl⟩
  · exact ⟨true, rfl, fun h => by simp at h⟩

/-- **What was read is the text of a number**, and it was read to its end. -/
theorem readUnsigned_sound {n : Nat} (h : readUnsigned (s.dropWhile isSpace) = some (n, rest)) :
    ∃ q, s = q ++ rest ∧ NumberText q ∧ Stops isDigit rest := by
  obtain ⟨sign, hsign, hsplit⟩ := readSign_split (s.dropWhile isSpace)
  unfold readUnsigned at h
  generalize readSign (s.dropWhile isSpace) = r at h hsplit
  obtain ⟨neg, t⟩ := r
  dsimp only at h hsplit
  split at h
  · simp at h
  · rename_i hne
    obtain ⟨-, rfl⟩ := Prod.mk.inj (Option.some.inj h)
    refine ⟨s.takeWhile isSpace ++ sign ++ t.takeWhile isDigit, ?_, ?_, ?_⟩
    · rw [List.append_assoc, List.takeWhile_append_dropWhile, List.append_assoc, ← hsplit,
        List.takeWhile_append_dropWhile]
    · exact ⟨_, _, _, rfl, fun b hb => List.mem_takeWhile_imp hb, hsign, hne,
        fun b hb => List.mem_takeWhile_imp hb⟩
    · intro b s' hb
      have hhead := List.head?_dropWhile_not isDigit t
      rw [hb] at hhead
      simpa using hhead

/-- White space in front of something else. -/
theorem dropWhile_gap {gap : Bytes} (hgap : Blank gap) (hs : Stops isSpace s) :
    (gap ++ s).dropWhile isSpace = s := dropWhile_stop hgap hs

/-- **The text of a number is read**, up to a byte that is no digit. -/
theorem readUnsigned_complete (hq : NumberText q) (hs : Stops isDigit rest) :
    ∃ n, readUnsigned ((q ++ rest).dropWhile isSpace) = some (n, rest) := by
  obtain ⟨gap, sign, ds, rfl, hgap, hsign, hne, hds⟩ := hq
  obtain ⟨b, ds', rfl⟩ := List.exists_cons_of_ne_nil hne
  have hb := hds b List.mem_cons_self
  obtain ⟨neg, hread, -⟩ := readSign_digits (b :: ds' ++ rest) hsign (by simpa using hb)
  have hstop : Stops isSpace (sign ++ (b :: ds' ++ rest)) := by
    simp only [List.mem_cons, List.not_mem_nil, or_false] at hsign
    rcases hsign with rfl | rfl | rfl
    · exact stops_cons (isSpace_of_isDigit hb)
    · exact stops_cons (by decide)
    · exact stops_cons (by decide)
  rw [List.append_assoc, List.append_assoc, dropWhile_gap hgap hstop]
  unfold readUnsigned
  rw [hread]
  dsimp only
  rw [takeWhile_stop hds hs, dropWhile_stop hds hs, if_neg hne]
  exact ⟨_, rfl⟩

/-- Digits are read as what they are worth. -/
theorem readUnsigned_digits (hq : Digits q) (hs : Stops isDigit rest) :
    readUnsigned ((q ++ rest).dropWhile isSpace) = some (unsignedValue false q, rest) := by
  obtain ⟨hne, hds⟩ := hq
  obtain ⟨b, q', rfl⟩ := List.exists_cons_of_ne_nil hne
  have hb := hds b List.mem_cons_self
  have hnone : ([] : Bytes) ∈ [[], [43], [45]] := List.mem_cons_self
  obtain ⟨neg, hread, hneg⟩ := readSign_digits (b :: q' ++ rest) hnone (by simpa using hb)
  have hstop : Stops isSpace (b :: q' ++ rest) := stops_cons (isSpace_of_isDigit hb)
  have hblank : Blank [] := by simp [Blank]
  have hgap := dropWhile_gap hblank hstop
  rw [List.nil_append] at hgap hread
  rw [hgap]
  unfold readUnsigned
  rw [hread, hneg rfl]
  dsimp only
  rw [takeWhile_stop hds hs, dropWhile_stop hds hs, if_neg hne]

end Maixii.Lib
