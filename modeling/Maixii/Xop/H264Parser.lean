import Maixii.Lib.Bytes
import Mathlib.Data.Nat.Find
import Mathlib.Logic.Function.Basic

/-!
# `Xop/H264Parser.lean`: the first NAL unit of a byte string

`xop/H264Parser.cpp`. The search has a window of three bytes, kept in an array at rotating places,
and looks one byte ahead for the start code of four bytes. It remembers which of the two start codes
it has met first, and ends the unit **only at another of the same kind** (`findNal_iff`).

Pointers into the string are indices; a byte outside the string cannot be read.
-/

set_option autoImplicit false

namespace Maixii.Xop.H264Parser

open Maixii.Lib

/-- The locals of `findNal`: `nal.first` and `nal.second`, the array `prefix` with `pos`, and where
`data` points. -/
structure Search where
  first : Option Nat
  second : Nat
  startCode : Nat
  pos : Nat
  window : Nat → UInt8
  data : Nat

namespace Search

/-- `prefix[(pos + i) % 3]`. -/
def at' (s : Search) (i : Nat) : UInt8 := s.window ((s.pos + i) % 3)

/-- `prefix[(pos++) % 3] = *(++data)`. -/
def advance (s : Search) (next : UInt8) : Search :=
  { s with
    window := Function.update s.window (s.pos % 3) next
    pos := s.pos + 1
    data := s.data + 1 }

end Search

/-- The branches of a turn; with `true`, the loop is left. -/
def look (data : Bytes) (size : Nat) (s : Search) : Option (Bool × Search) :=
  if s.at' 0 = 0 ∧ s.at' 1 = 0 ∧ s.at' 2 = 1 then
    if s.first = none then some (false, { s with first := some (s.data + 1), startCode := 3 })
    else if s.startCode = 3 then some (true, { s with second := s.data - 3 })
    else some (false, s)
  else if s.at' 0 = 0 ∧ s.at' 1 = 0 ∧ s.at' 2 = 0 then
    data[s.data + 1]?.bind fun next =>
      if next = 1 then
        if s.first = none then
          if size ≥ 1 then some (false, { s with first := some (s.data + 2), startCode := 4 })
          else some (true, s)
        else if s.startCode = 4 then some (true, { s with second := s.data - 3 })
        else some (false, s)
      else some (false, s)
  else some (false, s)

/-- `while(size--)`. -/
def scanOn (data : Bytes) : Nat → Search → Option Search
  | 0, s => some s
  | size + 1, s =>
      (look data size s).bind fun (done, s) =>
        if done then some s
        else data[s.data + 1]?.bind fun next => scanOn data size (s.advance next)

/-- `findNal`: none, if a byte outside the string is read; else the pointers, or two null pointers. -/
def findNal (data : Bytes) : Option (Option (Nat × Nat)) :=
  if data.length < 5 then some none
  else
    data[0]?.bind fun b0 => data[1]?.bind fun b1 => data[2]?.bind fun b2 =>
      (scanOn data (data.length - 3)
        { first := none
          second := data.length - 1
          startCode := 0
          pos := 0
          window := fun i => if i = 0 then b0 else if i = 1 then b1 else b2
          data := 2 }).map fun s => s.first.map fun first => (first, s.second)

/-! ## What the search is for -/

/-- A start code of three bytes whose last is here. -/
def Three (data : Bytes) (d : Nat) : Prop :=
  data[d - 2]? = some 0 ∧ data[d - 1]? = some 0 ∧ data[d]? = some 1

/-- A start code of four bytes whose third is here. -/
def Four (data : Bytes) (d : Nat) : Prop :=
  data[d - 2]? = some 0 ∧ data[d - 1]? = some 0 ∧ data[d]? = some 0 ∧ data[d + 1]? = some 1

instance (data : Bytes) (d : Nat) : Decidable (Three data d) :=
  inferInstanceAs (Decidable (_ ∧ _ ∧ _))

instance (data : Bytes) (d : Nat) : Decidable (Four data d) :=
  inferInstanceAs (Decidable (_ ∧ _ ∧ _ ∧ _))

/-- The length of the start code that begins here, if one does. -/
def startCodeAt (data : Bytes) (i : Nat) : Option Nat :=
  if Four data (i + 2) then some 4 else if Three data (i + 2) then some 3 else none

/-- The first start code from `start` on: where it begins, and its length. -/
def FirstCode (data : Bytes) (start i k : Nat) : Prop :=
  start ≤ i ∧ startCodeAt data i = some k ∧ ∀ m, start ≤ m → m < i → startCodeAt data m = none

/-- What `findNal` shall return. -/
def IsNal (data : Bytes) : Option (Nat × Nat) → Prop
  | none => ∀ i k, startCodeAt data i = some k → data.length ≤ i + k
  | some (first, last) =>
      ∃ i k, FirstCode data 0 i k ∧ i + k < data.length ∧ first = i + k ∧
        ((∃ j l, FirstCode data (i + k) j l ∧ last = j - 1) ∨
          ((∀ m, i + k ≤ m → startCodeAt data m = none) ∧ last = data.length - 1))

/-- The unit has been found as it should, and no byte outside the string has been read. -/
def Found (data : Bytes) : Prop :=
  ∃ nal, findNal data = some nal ∧ IsNal data nal ∧
    ∀ ptrs ∈ nal, ptrs.1 < data.length ∧ ptrs.2 < data.length

/-- The start codes are such that the search works: the string is not the shortest one with a unit,
and the next start code is of the kind of the first, and if it is one of three bytes it is not the
end of the string. -/
def Uniform (data : Bytes) : Prop :=
  ∀ i k, FirstCode data 0 i k → i + k < data.length →
    5 ≤ data.length ∧
      ∀ j l, FirstCode data (i + k) j l → l = k ∧ (l = 3 → j + 3 < data.length)

/-! ## Start codes -/

section

variable {data : Bytes}

theorem startCodeAt_cases {i k : Nat} (h : startCodeAt data i = some k) :
    (k = 4 ∧ Four data (i + 2)) ∨ (k = 3 ∧ Three data (i + 2)) := by
  unfold startCodeAt at h
  split at h
  · rename_i hfour
    exact .inl ⟨(Option.some.inj h).symm, hfour⟩
  · split at h
    · rename_i hthree
      exact .inr ⟨(Option.some.inj h).symm, hthree⟩
    · cases h

theorem not_three_of_four {d : Nat} (h : Four data d) : ¬ Three data d := by
  intro h'
  exact absurd (Option.some.inj (h.2.2.1.symm.trans h'.2.2)) (by decide)

theorem startCodeAt_four {i : Nat} (h : Four data (i + 2)) : startCodeAt data i = some 4 := if_pos h

theorem startCodeAt_three {i : Nat} (h : Three data (i + 2)) : startCodeAt data i = some 3 := by
  unfold startCodeAt
  rw [if_neg fun h' => not_three_of_four h' h, if_pos h]

/-- A start code lies in the string. -/
theorem length_of_startCodeAt {i k : Nat} (h : startCodeAt data i = some k) :
    i + k ≤ data.length := by
  rcases startCodeAt_cases h with ⟨rfl, -, -, -, hlast⟩ | ⟨rfl, -, -, hlast⟩
  · obtain ⟨hlt, -⟩ := List.getElem?_eq_some_iff.mp hlast
    omega
  · obtain ⟨hlt, -⟩ := List.getElem?_eq_some_iff.mp hlast
    omega

end

/-! ## The window -/

/-- The window holds the three bytes up to `data`, with `n` more turns to go. -/
structure At (data : Bytes) (s : Search) (n : Nat) : Prop where
  place : s.data = s.pos + 2
  left : n + s.data + 1 = data.length
  zero : data[s.data - 2]? = some (s.at' 0)
  one : data[s.data - 1]? = some (s.at' 1)
  two : data[s.data]? = some (s.at' 2)

section

variable {data : Bytes} {s : Search} {n : Nat}

theorem At.next (h : At data s (n + 1)) : ∃ next, data[s.data + 1]? = some next := by
  have hleft := h.left
  exact ⟨_, List.getElem?_eq_getElem (by omega)⟩

theorem At.advance (h : At data s (n + 1)) {next : UInt8} (hnext : data[s.data + 1]? = some next) :
    At data (s.advance next) n := by
  have hplace := h.place
  have hleft := h.left
  have hold : ∀ i, 0 < i → i < 3 → (s.advance next).window ((s.pos + i) % 3) = s.at' i := by
    intro i hpos hlt
    exact Function.update_of_ne (by omega) _ _
  refine ⟨by simp only [Search.advance]; omega, by simp only [Search.advance]; omega, ?_, ?_, ?_⟩
  · show data[s.data + 1 - 2]? = some ((s.advance next).window ((s.pos + 1) % 3))
    rw [hold 1 (by omega) (by omega), show s.data + 1 - 2 = s.data - 1 by omega]
    exact h.one
  · show data[s.data + 1 - 1]? = some ((s.advance next).window ((s.pos + 1 + 1) % 3))
    rw [show s.pos + 1 + 1 = s.pos + 2 from rfl, hold 2 (by omega) (by omega), Nat.add_sub_cancel]
    exact h.two
  · show data[s.data + 1]? = some ((s.advance next).window ((s.pos + 1 + 2) % 3))
    have hsame : (s.pos + 1 + 2) % 3 = s.pos % 3 := by omega
    rw [hsame, hnext]
    exact congrArg some (Function.update_self (s.pos % 3) next s.window).symm

/-- Where the unit begins is no matter to the window. -/
theorem At.begin (h : At data s n) (f : Option Nat) (k : Nat) :
    At data { s with first := f, startCode := k } n :=
  ⟨h.place, h.left, h.zero, h.one, h.two⟩

theorem At.three_iff (h : At data s n) :
    (s.at' 0 = 0 ∧ s.at' 1 = 0 ∧ s.at' 2 = 1) ↔ Three data s.data := by
  unfold Three
  rw [h.zero, h.one, h.two]
  simp only [Option.some.injEq]

theorem At.four_iff (h : At data s n) {next : UInt8} (hnext : data[s.data + 1]? = some next) :
    ((s.at' 0 = 0 ∧ s.at' 1 = 0 ∧ s.at' 2 = 0) ∧ next = 1) ↔ Four data s.data := by
  unfold Four
  rw [h.zero, h.one, h.two, hnext]
  simp only [Option.some.injEq, and_assoc]

/-- A turn at a start code of three bytes. -/
theorem look_three (h : At data s (n + 1)) (hthree : Three data s.data) :
    look data n s = some
      (if s.first = none then (false, { s with first := some (s.data + 1), startCode := 3 })
        else if s.startCode = 3 then (true, { s with second := s.data - 3 })
        else (false, s)) := by
  unfold look
  rw [if_pos (h.three_iff.mpr hthree)]
  split
  · rfl
  · split <;> rfl

/-- A turn before the last byte of a start code of four bytes. -/
theorem look_four (h : At data s (n + 1)) (hfour : Four data s.data) :
    look data n s = some
      (if s.first = none then
          if n ≥ 1 then (false, { s with first := some (s.data + 2), startCode := 4 }) else (true, s)
        else if s.startCode = 4 then (true, { s with second := s.data - 3 })
        else (false, s)) := by
  obtain ⟨next, hnext⟩ := h.next
  obtain ⟨hzeros, hone⟩ := (h.four_iff hnext).mpr hfour
  unfold look
  rw [if_neg fun h' => not_three_of_four hfour (h.three_iff.mp h'), if_pos hzeros, hnext,
    Option.bind_some, if_pos hone]
  split
  · split <;> rfl
  · split <;> rfl

/-- A turn anywhere else. -/
theorem look_other (h : At data s (n + 1)) (hthree : ¬ Three data s.data)
    (hfour : ¬ Four data s.data) : look data n s = some (false, s) := by
  obtain ⟨next, hnext⟩ := h.next
  unfold look
  rw [if_neg fun h' => hthree (h.three_iff.mp h')]
  split
  · rename_i hzeros
    rw [hnext, Option.bind_some, if_neg fun hone => hfour ((h.four_iff hnext).mp ⟨hzeros, hone⟩)]
  · rfl

theorem scanOn_leave {s' : Search} (hlook : look data n s = some (true, s')) :
    scanOn data (n + 1) s = some s' := by
  rw [scanOn, hlook]
  rfl

theorem scanOn_go {s' : Search} {next : UInt8} (hlook : look data n s = some (false, s'))
    (hnext : data[s'.data + 1]? = some next) :
    scanOn data (n + 1) s = scanOn data n (s'.advance next) := by
  rw [scanOn, hlook, Option.bind_some]
  show (data[s'.data + 1]?.bind fun next => scanOn data n (s'.advance next)) = _
  rw [hnext, Option.bind_some]

/-! ## The second start code -/

/-- The start code that ends a unit which began with one of `k` bytes. -/
def Sees (data : Bytes) (k d : Nat) : Prop := (k = 3 ∧ Three data d) ∨ (k = 4 ∧ Four data d)

/-- How the unit ends: before the next start code of its kind that is looked at, or with the
string. -/
def Ends (data : Bytes) (k start last : Nat) : Prop :=
  (∃ d, start ≤ d ∧ d + 2 ≤ data.length ∧ Sees data k d ∧
      (∀ m, start ≤ m → m < d → ¬ Sees data k m) ∧ last = d - 3) ∨
    ((∀ m, start ≤ m → m + 2 ≤ data.length → ¬ Sees data k m) ∧ last = data.length - 1)

theorem look_second (h : At data s (n + 1)) (hfirst : s.first ≠ none)
    (hk : s.startCode = 3 ∨ s.startCode = 4) :
    (Sees data s.startCode s.data ∧ look data n s = some (true, { s with second := s.data - 3 })) ∨
      (¬ Sees data s.startCode s.data ∧ look data n s = some (false, s)) := by
  by_cases hthree : Three data s.data
  · have hfour : ¬ Four data s.data := fun h' => not_three_of_four h' hthree
    rw [look_three h hthree, if_neg hfirst]
    rcases hk with hk | hk
    · exact .inl ⟨.inl ⟨hk, hthree⟩, by rw [if_pos hk]⟩
    · refine .inr ⟨?_, by rw [if_neg (by omega)]⟩
      rintro (⟨h3, -⟩ | ⟨-, h4⟩)
      · omega
      · exact hfour h4
  · by_cases hfour : Four data s.data
    · rw [look_four h hfour, if_neg hfirst]
      rcases hk with hk | hk
      · refine .inr ⟨?_, by rw [if_neg (by omega)]⟩
        rintro (⟨-, h3⟩ | ⟨h4, -⟩)
        · exact hthree h3
        · omega
      · exact .inl ⟨.inr ⟨hk, hfour⟩, by rw [if_pos hk]⟩
    · refine .inr ⟨?_, look_other h hthree hfour⟩
      rintro (⟨-, h3⟩ | ⟨-, h4⟩)
      · exact hthree h3
      · exact hfour h4

/-- The search behind the first start code. -/
theorem scanOn_second {f : Nat} (h : At data s n) (hfirst : s.first = some f)
    (hk : s.startCode = 3 ∨ s.startCode = 4) (hlast : s.second = data.length - 1) :
    ∃ s', scanOn data n s = some s' ∧ s'.first = some f ∧
      Ends data s.startCode s.data s'.second := by
  induction n generalizing s with
  | zero =>
    have hleft := h.left
    exact ⟨s, rfl, hfirst, .inr ⟨fun m hm hm' => absurd hm' (by omega), hlast⟩⟩
  | succ n ih =>
    have hleft := h.left
    rcases look_second h (by rw [hfirst]; exact Option.some_ne_none f) hk with
      ⟨hsees, hlook⟩ | ⟨hsees, hlook⟩
    · refine ⟨_, scanOn_leave hlook, hfirst, .inl ⟨s.data, Nat.le_refl _, by omega, hsees, ?_, rfl⟩⟩
      intro m hm hm'
      omega
    · obtain ⟨next, hnext⟩ := h.next
      obtain ⟨s', hrun, hfirst', hends⟩ := ih (h.advance hnext) hfirst hk hlast
      have hahead : ∀ m, s.data ≤ m → ¬ Sees data s.startCode m ∨ s.data + 1 ≤ m := by
        intro m hm
        rcases Nat.eq_or_lt_of_le hm with rfl | hm
        · exact .inl hsees
        · exact .inr hm
      refine ⟨s', by rw [scanOn_go hlook hnext, hrun], hfirst', ?_⟩
      rcases hends with ⟨d, hd, hlen, hseen, hbefore, hsecond⟩ | ⟨hnone, hsecond⟩
      · refine .inl ⟨d, Nat.le_of_succ_le hd, hlen, hseen, ?_, hsecond⟩
        intro m hm hm'
        exact (hahead m hm).elim id fun hm => hbefore m hm hm'
      · refine .inr ⟨?_, hsecond⟩
        intro m hm hm'
        exact (hahead m hm).elim id fun hm => hnone m hm hm'

/-! ## The first start code -/

/-- The search up to the first start code that has a byte behind it. -/
theorem scanOn_first (h : At data s n) (hfirst : s.first = none) :
    (∃ i k, s.data ≤ i + 2 ∧ startCodeAt data i = some k ∧
        (∀ m, s.data ≤ m + 2 → m < i → startCodeAt data m = none) ∧ i + k < data.length ∧
        ∃ s' n', At data s' n' ∧ s'.data = i + 3 ∧ s'.first = some (i + k) ∧ s'.startCode = k ∧
          s'.second = s.second ∧ scanOn data n s = scanOn data n' s') ∨
      ((∀ i k, s.data ≤ i + 2 → startCodeAt data i = some k → data.length ≤ i + k) ∧
        ∃ s', scanOn data n s = some s' ∧ s'.first = none) := by
  induction n generalizing s with
  | zero =>
    have hleft := h.left
    refine .inr ⟨?_, s, rfl, hfirst⟩
    intro i k hi hcode
    rcases startCodeAt_cases hcode with ⟨rfl, -⟩ | ⟨rfl, -⟩ <;> omega
  | succ n ih =>
    have hplace := h.place
    have hleft := h.left
    obtain ⟨next, hnext⟩ := h.next
    have hhere : s.data - 2 + 2 = s.data := by omega
    by_cases hthree : Three data s.data
    · have hlook := look_three h hthree
      rw [if_pos hfirst] at hlook
      refine .inl ⟨s.data - 2, 3, by omega, startCodeAt_three (by rwa [hhere]), ?_, by omega, _, n,
        (h.begin (some (s.data + 1)) 3).advance hnext, by simp only [Search.advance]; omega, ?_,
        rfl, rfl, scanOn_go hlook hnext⟩
      · intro m hm hm'
        omega
      · exact congrArg some (by omega)
    · by_cases hfour : Four data s.data
      · have hlook := look_four h hfour
        rw [if_pos hfirst] at hlook
        by_cases hn : n ≥ 1
        · rw [if_pos hn] at hlook
          refine .inl ⟨s.data - 2, 4, by omega, startCodeAt_four (by rwa [hhere]), ?_, by omega,
            _, n, (h.begin (some (s.data + 2)) 4).advance hnext,
            by simp only [Search.advance]; omega, ?_, rfl, rfl, scanOn_go hlook hnext⟩
          · intro m hm hm'
            omega
          · exact congrArg some (by omega)
        · -- the start code ends the string
          rw [if_neg hn] at hlook
          refine .inr ⟨?_, s, scanOn_leave hlook, hfirst⟩
          intro i k hi hcode
          rcases startCodeAt_cases hcode with ⟨rfl, -⟩ | ⟨rfl, hthree'⟩
          · omega
          · rcases Nat.eq_or_lt_of_le hi with hi | hi
            · exact absurd (hi ▸ hthree') hthree
            · omega
      · have hnone : startCodeAt data (s.data - 2) = none := by
          unfold startCodeAt
          rw [hhere, if_neg hfour, if_neg hthree]
        have hahead : ∀ m, s.data ≤ m + 2 → startCodeAt data m = none ∨ s.data + 1 ≤ m + 2 := by
          intro m hm
          rcases Nat.eq_or_lt_of_le hm with hm | hm
          · rw [show m = s.data - 2 by omega]
            exact .inl hnone
          · exact .inr hm
        have hgo := scanOn_go (look_other h hthree hfour) hnext
        rcases ih (h.advance hnext) hfirst with
          ⟨i, k, hi, hcode, hbefore, hlen, s', n', hat, hdata, hf, hsc, hsec, hrun⟩ |
          ⟨hend, s', hrun, hf⟩
        · refine .inl ⟨i, k, Nat.le_of_succ_le hi, hcode, ?_, hlen, s', n', hat, hdata, hf, hsc, hsec,
            by rw [hgo, hrun]⟩
          intro m hm hm'
          exact (hahead m hm).elim id fun hm => hbefore m hm hm'
        · refine .inr ⟨?_, s', by rw [hgo, hrun], hf⟩
          intro i k hi hcode
          rcases hahead i hi with hnone | hi
          · rw [hcode] at hnone
            cases hnone
          · exact hend i k hi hcode

end

/-! ## The search -/

section

variable {data : Bytes}

/-- **What the search finds** in a string of five bytes or more. -/
theorem findNal_long (h : 5 ≤ data.length) :
    (∃ i k last, FirstCode data 0 i k ∧ i + k < data.length ∧
        findNal data = some (some (i + k, last)) ∧ Ends data k (i + 3) last) ∨
      ((∀ i k, startCodeAt data i = some k → data.length ≤ i + k) ∧ findNal data = some none) := by
  have h0 : data[0]? = some data[0] := List.getElem?_eq_getElem (by omega)
  have h1 : data[1]? = some data[1] := List.getElem?_eq_getElem (by omega)
  have h2 : data[2]? = some data[2] := List.getElem?_eq_getElem (by omega)
  unfold findNal
  rw [if_neg (by omega), h0, h1, h2, Option.bind_some, Option.bind_some, Option.bind_some]
  have hat : At data
      { first := none
        second := data.length - 1
        startCode := 0
        pos := 0
        window := fun i => if i = 0 then data[0] else if i = 1 then data[1] else data[2]
        data := 2 } (data.length - 3) := ⟨rfl, by dsimp only; omega, h0, h1, h2⟩
  rcases scanOn_first hat rfl with
    ⟨i, k, -, hcode, hbefore, hlen, s', n', hat', hdata, hf, hsc, hsec, hrun⟩ | ⟨hend, s', hrun, hf⟩
  · have hk : s'.startCode = 3 ∨ s'.startCode = 4 := by
      rcases startCodeAt_cases hcode with ⟨rfl, -⟩ | ⟨rfl, -⟩
      · exact .inr hsc
      · exact .inl hsc
    obtain ⟨s'', hrun', hf', hends⟩ := scanOn_second hat' hf hk hsec
    rw [hsc, hdata] at hends
    refine .inl ⟨i, k, s''.second, ⟨Nat.zero_le i, hcode, ?_⟩, hlen, ?_, hends⟩
    · intro m _ hm
      exact hbefore m (by dsimp only; omega) hm
    · rw [hrun, hrun', Option.map_some, hf', Option.map_some]
  · refine .inr ⟨?_, ?_⟩
    · intro i k hcode
      exact hend i k (by dsimp only; omega) hcode
    · rw [hrun, Option.map_some, hf, Option.map_none]

/-- A string has one first start code from a place on. -/
theorem FirstCode.unique {start i k i' k' : Nat} (h : FirstCode data start i k)
    (h' : FirstCode data start i' k') : i = i' ∧ k = k' := by
  obtain ⟨hle, hcode, hbefore⟩ := h
  obtain ⟨hle', hcode', hbefore'⟩ := h'
  have hi : i = i' := by
    rcases Nat.lt_trichotomy i i' with hlt | heq | hlt
    · rw [hbefore' i hle hlt] at hcode
      cases hcode
    · exact heq
    · rw [hbefore i' hle' hlt] at hcode'
      cases hcode'
  subst hi
  exact ⟨rfl, Option.some.inj (hcode.symm.trans hcode')⟩

/-- From a place on there is a first start code, or none. -/
theorem firstCode_or_none (data : Bytes) (start : Nat) :
    (∃ j l, FirstCode data start j l) ∨ ∀ m, start ≤ m → startCodeAt data m = none := by
  by_cases h : ∃ j, start ≤ j ∧ startCodeAt data j ≠ none
  · have hfirst := Nat.find_spec h
    obtain ⟨l, hl⟩ := Option.ne_none_iff_exists'.mp hfirst.2
    refine .inl ⟨Nat.find h, l, hfirst.1, hl, ?_⟩
    intro m hm hlt
    by_contra hne
    exact Nat.find_min h hlt ⟨hm, hne⟩
  · refine .inr fun m hm => ?_
    by_contra hne
    exact h ⟨m, hm, hne⟩

/-- A start code that is seen begins two bytes before. -/
theorem startCodeAt_of_sees {k d : Nat} (hd : 2 ≤ d) (h : Sees data k d) :
    startCodeAt data (d - 2) = some k := by
  have hback : d - 2 + 2 = d := by omega
  rcases h with ⟨rfl, h⟩ | ⟨rfl, h⟩
  · exact startCodeAt_three (by rwa [hback])
  · exact startCodeAt_four (by rwa [hback])

theorem sees_of_startCodeAt {k i : Nat} (h : startCodeAt data i = some k) : Sees data k (i + 2) := by
  rcases startCodeAt_cases h with ⟨rfl, hfour⟩ | ⟨rfl, hthree⟩
  · exact .inr ⟨rfl, hfour⟩
  · exact .inl ⟨rfl, hthree⟩

/-- Two start codes do not overlap: the one in a start code has no place in the zeros of another. -/
theorem not_sees_overlap {i k d k' : Nat} (h : startCodeAt data i = some k)
    (h' : Sees data k' d) (hd : i + 3 ≤ d) (hk : k' = k) : i + k + 2 ≤ d := by
  subst hk
  by_contra hlt
  have hone : data[i + k' - 1]? = some 1 := by
    rcases startCodeAt_cases h with ⟨rfl, -, -, -, h⟩ | ⟨rfl, -, -, h⟩
    · exact h
    · exact h
  have hzero : data[i + k' - 1]? = some 0 := by
    rcases h' with ⟨rfl, hz⟩ | ⟨rfl, hz⟩
    · rcases (by omega : i + 3 - 1 = d - 1 ∨ i + 3 - 1 = d - 2) with heq | heq
      · rw [heq]; exact hz.2.1
      · rw [heq]; exact hz.1
    · rcases (by omega : i + 4 - 1 = d ∨ i + 4 - 1 = d - 1 ∨ i + 4 - 1 = d - 2) with heq | heq | heq
      · rw [heq]; exact hz.2.2.1
      · rw [heq]; exact hz.2.1
      · rw [heq]; exact hz.1
  exact absurd (Option.some.inj (hone.symm.trans hzero)) (by decide)

/-- The unit ends where it should, just when the next start code is one the search stops at. -/
theorem ends_iff {i k last : Nat} (hcode : startCodeAt data i = some k)
    (hlen : i + k < data.length) (hends : Ends data k (i + 3) last) :
    ((∃ j l, FirstCode data (i + k) j l ∧ last = j - 1) ∨
        ((∀ m, i + k ≤ m → startCodeAt data m = none) ∧ last = data.length - 1)) ↔
      ∀ j l, FirstCode data (i + k) j l → l = k ∧ (l = 3 → j + 3 < data.length) := by
  have hk : k = 3 ∨ k = 4 := by
    rcases startCodeAt_cases hcode with ⟨rfl, -⟩ | ⟨rfl, -⟩
    · exact .inr rfl
    · exact .inl rfl
  rcases firstCode_or_none data (i + k) with ⟨j, l, hj⟩ | hnone
  · have hjlen := length_of_startCodeAt hj.2.1
    have hl : l = 3 ∨ l = 4 := by
      rcases startCodeAt_cases hj.2.1 with ⟨rfl, -⟩ | ⟨rfl, -⟩
      · exact .inr rfl
      · exact .inl rfl
    have hstart := hj.1
    -- a start code of the kind that is looked for does not begin before the next start code
    have hnot : ∀ d, i + 3 ≤ d → d < j + 2 → ¬ Sees data k d := by
      intro d hd hlt hsees
      have hfar := not_sees_overlap hcode hsees hd rfl
      have hcode' := startCodeAt_of_sees (by omega) hsees
      rw [hj.2.2 (d - 2) (by omega) (by omega)] at hcode'
      cases hcode'
    constructor
    · intro hspec j' l' hj'
      obtain ⟨rfl, rfl⟩ := hj.unique hj'
      have hlast : last = j - 1 := by
        rcases hspec with ⟨j', l', hj', hlast⟩ | ⟨hnone, -⟩
        · rw [hlast, (hj.unique hj').1]
        · have hcode' := hj.2.1
          rw [hnone j hstart] at hcode'
          cases hcode'
      rcases hends with ⟨d, hd, hdlen, hsees, -, hd'⟩ | ⟨-, hd'⟩
      · have hge : j + 2 ≤ d := by
          by_contra hlt
          exact hnot d hd (by omega) hsees
        have hdj : d = j + 2 := by omega
        have hcode' := startCodeAt_of_sees (by omega) hsees
        have hlk : l = k := by
          rw [hdj, Nat.add_sub_cancel, hj.2.1] at hcode'
          exact Option.some.inj hcode'
        exact ⟨hlk, fun _ => by omega⟩
      · clear hspec
        omega
    · intro huniform
      obtain ⟨rfl, hroom⟩ := huniform j l hj
      refine .inl ⟨j, l, hj, ?_⟩
      have hsees := sees_of_startCodeAt hj.2.1
      rcases hends with ⟨d, hd, hdlen, hseen, hbefore, hd'⟩ | ⟨hnone, -⟩
      · have hge : j + 2 ≤ d := by
          by_contra hlt
          exact hnot d hd (by omega) hseen
        have hle : d ≤ j + 2 := by
          by_contra hlt
          exact hbefore (j + 2) (by omega) (by omega) hsees
        omega
      · exact absurd hsees (hnone (j + 2) (by omega) (by omega))
  · constructor
    · intro _ j l hj
      have hcode' := hj.2.1
      rw [hnone j hj.1] at hcode'
      cases hcode'
    · intro _
      refine .inr ⟨hnone, ?_⟩
      rcases hends with ⟨d, hd, -, hsees, -⟩ | ⟨-, hlast⟩
      · have hfar := not_sees_overlap hcode hsees hd rfl
        have hcode' := startCodeAt_of_sees (by omega) hsees
        rw [hnone (d - 2) (by omega)] at hcode'
        cases hcode'
      · exact hlast

/-- The pointers are in the string. -/
theorem last_lt_of_ends {k start last : Nat} (hpos : 0 < data.length) (h : Ends data k start last) :
    last < data.length := by
  rcases h with ⟨d, -, hlen, -, -, hlast⟩ | ⟨-, hlast⟩
  · omega
  · omega

/-- A string of less than five bytes is not searched. -/
theorem findNal_short (h : data.length < 5) : findNal data = some none := if_pos h

end

/-- **The search finds the unit just when the start codes are uniform.** It looks for the end of the
unit by the kind of start code that it found first. The condition is one on the string, told without
running the search: the first code behind the unit is of that kind, and the end of the string is far
enough away for the search to look. -/
theorem findNal_iff (data : Bytes) : Found data ↔ Uniform data := by
  by_cases hshort : data.length < 5
  · unfold Found
    rw [findNal_short hshort]
    constructor
    · rintro ⟨nal, hnal, his, -⟩ i k hi hlen
      obtain rfl := Option.some.inj hnal
      exact absurd (his i k hi.2.1) (by omega)
    · intro huniform
      refine ⟨none, rfl, ?_, fun ptrs hptrs => by cases hptrs⟩
      intro i k hcode
      rcases firstCode_or_none data 0 with ⟨j, l, hj⟩ | hnone
      · by_cases hlen : j + l < data.length
        · exact absurd (huniform j l hj hlen).1 (by omega)
        · have hle : j ≤ i := by
            by_contra hlt
            rw [hj.2.2 i (Nat.zero_le i) (by omega)] at hcode
            cases hcode
          rcases Nat.eq_or_lt_of_le hle with rfl | hlt
          · obtain rfl := Option.some.inj (hcode.symm.trans hj.2.1)
            omega
          · have hjk := startCodeAt_cases hj.2.1
            have hik := startCodeAt_cases hcode
            omega
      · rw [hnone i (Nat.zero_le i)] at hcode
        cases hcode
  · rcases findNal_long (by omega : 5 ≤ data.length) with
      ⟨i, k, last, hi, hlen, hfind, hends⟩ | ⟨hnone, hfind⟩
    · have hiff := ends_iff hi.2.1 hlen hends
      unfold Found
      rw [hfind]
      constructor
      · rintro ⟨nal, hnal, his, -⟩ i' k' hi' hlen'
        obtain rfl := Option.some.inj hnal
        obtain ⟨rfl, rfl⟩ := hi.unique hi'
        obtain ⟨j, l, hj, -, hfirst, hspec⟩ := his
        obtain ⟨rfl, rfl⟩ := hi.unique hj
        exact ⟨by omega, hiff.mp hspec⟩
      · intro huniform
        refine ⟨_, rfl, ⟨i, k, hi, hlen, rfl, hiff.mpr (huniform i k hi hlen).2⟩, ?_⟩
        intro ptrs hptrs
        obtain rfl := Option.some.inj hptrs
        exact ⟨hlen, last_lt_of_ends (by omega) hends⟩
    · constructor
      · intro _ i k hi hlen
        exact absurd (hnone i k hi.2.1) (by omega)
      · intro _
        exact ⟨none, hfind, hnone, fun ptrs hptrs => by cases hptrs⟩

/-- A unit behind three bytes of start code, and one behind four. -/
def mixed : Bytes := [0, 0, 1, 0x65, 0, 0, 0, 1, 0x68]

/-- The first unit is given the zero byte of the second start code. -/
theorem not_found_mixed : ¬ ∀ data : Bytes, Found data := by
  intro h
  obtain ⟨nal, hfind, his, -⟩ := h mixed
  have hrun : findNal mixed = some (some (3, 4)) := by decide
  obtain rfl := Option.some.inj (hrun.symm.trans hfind)
  have hfirst : FirstCode mixed 0 0 3 := ⟨Nat.le_refl 0, by decide, fun m _ hm => by omega⟩
  have hnext : FirstCode mixed 3 4 4 := by
    refine ⟨by omega, by decide, fun m hm hm' => ?_⟩
    obtain rfl : m = 3 := by omega
    decide
  obtain ⟨i, k, hi, -, -, hlast⟩ := his
  obtain ⟨rfl, rfl⟩ := hi.unique hfirst
  rcases hlast with ⟨j, l, hj, hlast⟩ | ⟨hnone, -⟩
  · obtain ⟨rfl, rfl⟩ := hj.unique hnext
    omega
  · exact absurd (hnone 4 (by omega)) (by decide)

end Maixii.Xop.H264Parser
