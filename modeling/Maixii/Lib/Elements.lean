import Maixii.Lib.OutFile

/-!
# `Lib/Elements.lean`: a byte string as an array of elements

Elements of one size, one behind the other. A patch that begins with an element and is as long as
some elements replaces just those (`elemAt_patch`).
-/

set_option autoImplicit false

namespace Maixii.Lib

/-- Element `i` of an array. -/
def elemAt (size : Nat) (s : Bytes) (i : Nat) : Bytes := readAt s (i * size) size

/-- The first `n` elements of an array. -/
def elements (size : Nat) (s : Bytes) (n : Nat) : List Bytes := (List.range n).map (elemAt size s)

variable {size : Nat} {s bs : Bytes} {i k m n p : Nat}

@[simp] theorem length_elements : (elements size s n).length = n := by
  rw [elements, List.length_map, List.length_range]

theorem getElem?_elements (h : i < n) : (elements size s n)[i]? = some (elemAt size s i) := by
  rw [elements, List.getElem?_map, List.getElem?_range h, Option.map_some]

/-- Where an element ends. -/
theorem mul_add_le (h : i < n) : i * size + size ≤ n * size := by
  rw [← Nat.succ_mul]
  exact Nat.mul_le_mul_right size h

/-- An element of a part. -/
theorem elemAt_readAt (h : i < m) :
    elemAt size (readAt s (p * size) (m * size)) i = elemAt size s (p + i) := by
  have hle : i * size + size ≤ m * size := mul_add_le h
  unfold elemAt readAt
  rw [List.drop_take, List.drop_drop, List.take_take, Nat.add_mul]
  congr 1
  omega

/-- **The elements of a patch.** -/
theorem elemAt_patch (hbs : bs.length = m * size) (hfits : (p + m) * size ≤ s.length) :
    (p ≤ k → k < p + m → elemAt size (patch s (p * size) bs) k = elemAt size bs (k - p)) ∧
      (k < p ∨ p + m ≤ k → elemAt size (patch s (p * size) bs) k = elemAt size s k) := by
  have hp : p * size ≤ s.length := by
    rw [Nat.add_mul] at hfits
    omega
  constructor
  · intro hle hlt
    have hself : readAt (patch s (p * size) bs) (p * size) (m * size) = bs :=
      readAt_patch_self hp hbs.symm
    have hpart : elemAt size (readAt (patch s (p * size) bs) (p * size) (m * size)) (k - p) =
        elemAt size (patch s (p * size) bs) (p + (k - p)) := elemAt_readAt (by omega)
    rw [hself, Nat.add_sub_cancel' hle] at hpart
    exact hpart.symm
  · intro hout
    refine readAt_patch hp ?_
    rw [hbs]
    rcases hout with hout | hout
    · left
      exact mul_add_le hout
    · right
      rw [← Nat.add_mul]
      exact Nat.mul_le_mul_right size hout

/-- A part of an array is its elements. -/
theorem readAt_elements : readAt s (p * size) (m * size) =
    ((List.range m).map fun i => elemAt size s (p + i)).flatten := by
  induction m with
  | zero => rw [Nat.zero_mul, readAt, List.take_zero, List.range_zero, List.map_nil, List.flatten_nil]
  | succ m ih =>
    rw [List.range_succ, List.map_append, List.flatten_append, ← ih, List.map_singleton,
      List.flatten_singleton, elemAt, readAt, readAt, readAt, Nat.succ_mul, List.take_add,
      List.drop_drop, Nat.add_mul]

end Maixii.Lib
