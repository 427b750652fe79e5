import Mathlib.Data.Int.Bitwise
import Mathlib.Data.List.Basic

/-!
# `Lib/Regions.lean`: regions of memory, and lists threaded through them

A region is where it starts and how long it is. **Regions in regions that are apart are apart**, and
so are the places of an array. A list is threaded through memory when each of its elements says
where the next one is, up to the null pointer: what is changed outside of it does not matter
(`Threaded.congr`), and it is pushed to and popped from in front.
-/

set_option autoImplicit false

namespace Maixii.Lib

/-! ## Regions -/

/-- A start and a length. -/
abbrev Region := Nat × Nat

/-- One ends before the other starts. -/
def Apart (r s : Region) : Prop := r.1 + r.2 ≤ s.1 ∨ s.1 + s.2 ≤ r.1

instance (r s : Region) : Decidable (Apart r s) :=
  inferInstanceAs (Decidable (r.1 + r.2 ≤ s.1 ∨ s.1 + s.2 ≤ r.1))

/-- One lies in the other. -/
def Within (r s : Region) : Prop := s.1 ≤ r.1 ∧ r.1 + r.2 ≤ s.1 + s.2

section

variable {r r' s s' : Region} {base stride i k n : Nat}

theorem Apart.symm (h : Apart r s) : Apart s r := Or.symm h

theorem Apart.mono (h : Apart r s) (hr : Within r' r) (hs : Within s' s) : Apart r' s' := by
  obtain ⟨hr₁, hr₂⟩ := hr
  obtain ⟨hs₁, hs₂⟩ := hs
  rcases h with h | h
  · exact Or.inl (by omega)
  · exact Or.inr (by omega)

theorem Within.refl (r : Region) : Within r r := ⟨Nat.le_refl _, Nat.le_refl _⟩

/-- What starts in one of them and is not empty starts elsewhere than the other. -/
theorem Apart.start_ne (h : Apart r s) (hr : 0 < r.2) (hs : 0 < s.2) : r.1 ≠ s.1 := by
  rcases h with h | h <;> omega

/-- A place of an array is in it. -/
theorem within_array (hi : i < n) : Within (base + i * stride, stride) (base, n * stride) := by
  have hmul : (i + 1) * stride ≤ n * stride := Nat.mul_le_mul_right _ hi
  rw [Nat.succ_mul] at hmul
  exact ⟨Nat.le_add_right _ _, by omega⟩

/-- Two places of an array are apart. -/
theorem apart_array (hne : i ≠ k) : Apart (base + i * stride, stride) (base + k * stride, stride) := by
  rcases Nat.lt_or_gt_of_ne hne with h | h
  · have hmul : (i + 1) * stride ≤ k * stride := Nat.mul_le_mul_right _ h
    rw [Nat.succ_mul] at hmul
    exact Or.inl (by omega)
  · have hmul : (k + 1) * stride ≤ i * stride := Nat.mul_le_mul_right _ h
    rw [Nat.succ_mul] at hmul
    exact Or.inr (by omega)

end

/-! ## Threaded lists -/

section

variable {α : Type} {next next' : α → α} {null head a : α} {l : List α}

/-- From `head` on there are these, and no more. -/
def Threaded (next : α → α) (null : α) : α → List α → Prop
  | head, [] => head = null
  | head, a :: l => head = a ∧ a ≠ null ∧ Threaded next null (next a) l

theorem Threaded.congr (h : Threaded next null head l) (heq : ∀ a ∈ l, next' a = next a) :
    Threaded next' null head l := by
  induction l generalizing head with
  | nil => exact h
  | cons a l ih =>
    obtain ⟨hhead, hne, hrest⟩ := h
    refine ⟨hhead, hne, ?_⟩
    rw [heq a List.mem_cons_self]
    exact ih hrest fun b hb => heq b (List.mem_cons_of_mem _ hb)

/-- **One more in front.** -/
theorem Threaded.push (h : Threaded next null head l) (hne : a ≠ null) (ha : next' a = head)
    (heq : ∀ b ∈ l, next' b = next b) : Threaded next' null a (a :: l) :=
  ⟨rfl, hne, by rw [ha]; exact h.congr heq⟩

/-- **The one in front is taken.** -/
theorem Threaded.pop (h : Threaded next null head l) (hne : head ≠ null) :
    ∃ rest, l = head :: rest ∧ Threaded next null (next head) rest := by
  cases l with
  | nil => exact absurd h hne
  | cons a rest =>
    obtain ⟨rfl, -, hrest⟩ := h
    exact ⟨rest, rfl, hrest⟩

end

end Maixii.Lib
