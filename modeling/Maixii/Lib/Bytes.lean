import Mathlib.Data.Int.Bitwise
import Mathlib.Data.List.Infix

/-!
# `Lib/Bytes.lean`: byte strings and substring search

C and C++ text handling is byte handling: a `std::string`, a `char` array and a socket buffer
are all lists of bytes here. The part with content is the search. `std::search`,
`std::find_end`, `std::string::find` and `strstr` are one function each way round, `findFirst`
and `findLast`, and what the parsers need of them is said once:

* `findFirst_append`: an occurrence that is known to be the first one is the one found;
* `findFirst_none_iff`: nothing is found exactly when there is no occurrence.
-/

set_option autoImplicit false

namespace Maixii

/-- A byte string. -/
abbrev Bytes := List UInt8

/-- The bytes of an ASCII literal. -/
def ascii (s : String) : Bytes := s.toList.map fun c => UInt8.ofNat c.toNat

/-- `\r\n`. -/
def crlf : Bytes := [13, 10]

namespace Lib

/-- Decided byte by byte. -/
theorem forall_mem_of_all {p : UInt8 → Prop} [DecidablePred p] {s : Bytes}
    (h : s.all (fun b => decide (p b)) = true) : ∀ b ∈ s, p b := by
  intro b hb
  exact of_decide_eq_true (List.all_eq_true.mp h b hb)

section Search

variable {α : Type} [DecidableEq α]

/-- Index of the first occurrence of `pat` (`std::search`, `std::string::find`). -/
def findFirst (pat : List α) : List α → Option Nat
  | [] => if pat = [] then some 0 else none
  | c :: s => if pat.isPrefixOf (c :: s) then some 0 else (findFirst pat s).map (· + 1)

/-- Index of the last occurrence of `pat` (`std::find_end`). -/
def findLast (pat : List α) : List α → Option Nat
  | [] => if pat = [] then some 0 else none
  | c :: s =>
      match findLast pat s with
      | some n => some (n + 1)
      | none => if pat.isPrefixOf (c :: s) then some 0 else none

/-- Whether `pat` occurs (`find` or `rfind` compared with `npos`). -/
def occurs (pat s : List α) : Bool := (findFirst pat s).isSome

attribute [local simp] findFirst findLast

/-- What is found is an occurrence. -/
theorem findFirst_spec {pat : List α} : ∀ {s : List α} {n : Nat}, findFirst pat s = some n →
    pat <+: s.drop n ∧ n ≤ s.length := by
  intro s
  induction s with
  | nil =>
    intro n h
    simp only [findFirst] at h
    split at h
    · simp only [Option.some.injEq] at h
      subst h
      rename_i hp
      simp [hp]
    · simp at h
  | cons c s ih =>
    intro n h
    simp only [findFirst] at h
    split at h
    · rename_i hp
      simp only [Option.some.injEq] at h
      subst h
      exact ⟨by simpa using hp, Nat.zero_le _⟩
    · simp only [Option.map_eq_some_iff] at h
      obtain ⟨m, hm, rfl⟩ := h
      obtain ⟨h1, h2⟩ := ih hm
      exact ⟨by simpa using h1, by simpa using h2⟩

/-- Nothing is found exactly when `pat` is nowhere a prefix. -/
theorem findFirst_none_iff {pat s : List α} :
    findFirst pat s = none ↔ ∀ n, n ≤ s.length → ¬ pat <+: s.drop n := by
  induction s with
  | nil =>
    simp only [findFirst, List.length_nil, Nat.le_zero_eq, List.drop_nil, List.prefix_nil]
    constructor
    · intro h n _ hp
      simp [hp] at h
    · intro h
      simp [h 0 rfl]
  | cons c s ih =>
    simp only [findFirst]
    constructor
    · intro h n hn hp
      split at h
      · simp at h
      · rename_i hc
        simp only [Option.map_eq_none_iff] at h
        cases n with
        | zero => exact hc (by simpa using hp)
        | succ n => exact ih.mp h n (by simpa using hn) (by simpa using hp)
    · intro h
      have h0 : ¬ (pat.isPrefixOf (c :: s) = true) := by
        intro hp
        exact h 0 (Nat.zero_le _) (by simpa using hp)
      rw [if_neg h0, Option.map_eq_none_iff, ih]
      intro n hn hp
      exact h (n + 1) (by simpa using hn) (by simpa using hp)

/-- The first occurrence is the one that no earlier position has. -/
theorem findFirst_eq_some {pat s : List α} {n : Nat} (hn : n ≤ s.length)
    (hp : pat <+: s.drop n) (hfirst : ∀ m, m < n → ¬ pat <+: s.drop m) :
    findFirst pat s = some n := by
  induction s generalizing n with
  | nil =>
    have hn0 : n = 0 := by simpa using hn
    subst hn0
    simpa [findFirst] using hp
  | cons c s ih =>
    simp only [findFirst]
    cases n with
    | zero => rw [if_pos (by simpa using hp)]
    | succ n =>
      have h0 : ¬ (pat.isPrefixOf (c :: s) = true) := by
        intro h
        exact hfirst 0 (Nat.succ_pos n) (by simpa using h)
      rw [if_neg h0, ih (by simpa using hn) (by simpa using hp) (fun m hm hpm => ?_)]
      · rfl
      · exact hfirst (m + 1) (Nat.succ_lt_succ hm) (by simpa using hpm)

/-- No earlier position has the pattern that was found. -/
theorem findFirst_lt {pat : List α} : ∀ {s : List α} {n m : Nat}, findFirst pat s = some n →
    m < n → ¬ pat <+: s.drop m := by
  intro s
  induction s with
  | nil =>
    intro n m h hm
    have := (findFirst_spec h).2
    simp only [List.length_nil] at this
    omega
  | cons c s ih =>
    intro n m h hm hp
    simp only [findFirst] at h
    split at h
    · simp only [Option.some.injEq] at h
      omega
    · rename_i hc
      simp only [Option.map_eq_some_iff] at h
      obtain ⟨k, hk, rfl⟩ := h
      cases m with
      | zero => exact hc (by simpa using hp)
      | succ m => exact ih hk (Nat.lt_of_succ_lt_succ hm) (by simpa using hp)

/-- A pattern that begins with a letter `a` is found where `a` is first met. -/
theorem findFirst_append_of_head {a : α} {pat pre post : List α} (hpre : a ∉ pre) :
    findFirst (a :: pat) (pre ++ (a :: pat) ++ post) = some pre.length := by
  refine findFirst_eq_some (by simp) (by simp [List.append_assoc]) (fun m hm hp => ?_)
  have hd : (pre ++ (a :: pat) ++ post).drop m = pre.drop m ++ ((a :: pat) ++ post) := by
    rw [List.append_assoc, List.drop_append_of_le_length (Nat.le_of_lt hm)]
  rw [hd] at hp
  cases hq : pre.drop m with
  | nil =>
    have := congrArg List.length hq
    simp only [List.length_drop, List.length_nil] at this
    omega
  | cons x xs =>
    rw [hq, List.cons_append, List.cons_prefix_cons] at hp
    exact hpre (hp.1 ▸ List.mem_of_mem_drop (i := m) (by rw [hq]; exact List.mem_cons_self))

/-- The last occurrence found is an occurrence. -/
theorem findLast_spec {pat : List α} : ∀ {s : List α} {n : Nat}, findLast pat s = some n →
    pat <+: s.drop n ∧ n ≤ s.length := by
  intro s
  induction s with
  | nil =>
    intro n h
    simp only [findLast] at h
    split at h
    · simp only [Option.some.injEq] at h
      subst h
      rename_i hp
      simp [hp]
    · simp at h
  | cons c s ih =>
    intro n h
    simp only [findLast] at h
    cases hl : findLast pat s with
    | some m =>
      rw [hl] at h
      simp only [Option.some.injEq] at h
      subst h
      obtain ⟨h1, h2⟩ := ih hl
      exact ⟨by simpa using h1, by simpa using h2⟩
    | none =>
      rw [hl] at h
      dsimp only at h
      split at h
      · rename_i hp
        simp only [Option.some.injEq] at h
        subst h
        exact ⟨by simpa using hp, Nat.zero_le _⟩
      · simp at h

/-- Searching forwards or backwards, an absent pattern is absent. -/
theorem findLast_none_iff {pat s : List α} :
    findLast pat s = none ↔ ∀ n, n ≤ s.length → ¬ pat <+: s.drop n := by
  induction s with
  | nil =>
    simp only [findLast, List.length_nil, Nat.le_zero_eq, List.drop_nil, List.prefix_nil]
    constructor
    · intro h n _ hp
      simp [hp] at h
    · intro h
      simp [h 0 rfl]
  | cons c s ih =>
    simp only [findLast]
    constructor
    · intro h n hn hp
      cases hl : findLast pat s with
      | some m => rw [hl] at h; simp at h
      | none =>
        rw [hl] at h
        dsimp only at h
        split at h
        · simp at h
        · rename_i hc
          cases n with
          | zero => exact hc (by simpa using hp)
          | succ n => exact ih.mp hl n (by simpa using hn) (by simpa using hp)
    · intro h
      have h0 : ¬ (pat.isPrefixOf (c :: s) = true) := by
        intro hp
        exact h 0 (Nat.zero_le _) (by simpa using hp)
      have hl : findLast pat s = none := by
        rw [ih]
        intro n hn hp
        exact h (n + 1) (by simpa using hn) (by simpa using hp)
      rw [hl]
      simp [h0]

/-- No later position has the pattern that was found. -/
theorem findLast_gt {pat : List α} : ∀ {s : List α} {n m : Nat}, findLast pat s = some n →
    n < m → m ≤ s.length → ¬ pat <+: s.drop m := by
  intro s
  induction s with
  | nil =>
    intro n m _ hm hle
    exact absurd hm (by simp only [List.length_nil, Nat.le_zero_eq] at hle; omega)
  | cons c s ih =>
    intro n m h hm hle hp
    obtain ⟨k, rfl⟩ : ∃ k, m = k + 1 := ⟨m - 1, by omega⟩
    rw [List.length_cons] at hle
    rw [List.drop_succ_cons] at hp
    simp only [findLast] at h
    cases hl : findLast pat s with
    | none => exact findLast_none_iff.mp hl k (Nat.le_of_succ_le_succ hle) hp
    | some l =>
      rw [hl] at h
      obtain rfl := Option.some.inj h
      exact ih hl (Nat.lt_of_succ_lt_succ hm) (Nat.le_of_succ_le_succ hle) hp

theorem findLast_none_iff_findFirst {pat s : List α} :
    findLast pat s = none ↔ findFirst pat s = none := by
  rw [findLast_none_iff, findFirst_none_iff]

end Search

end Lib

end Maixii
