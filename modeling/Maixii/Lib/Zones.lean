import Maixii.Lib.Ring

/-!
# `Lib/Zones.lean`: a queue of three zones in a ring

An element is put into a ring, is taken from it but stays where it is, and is given back: its slot is
free only then. Of all that was ever put in, in order, the first `out` have been given back, those
that are `held` have been taken, and the rest waits. Element number `k` is in slot `k`, modulo the
size of the ring, until it is given back, and so **the next one goes into no slot that is held or
waited in** (`fresh`), and **nothing is lost, doubled or out of order** (`inOrder`).
-/

set_option autoImplicit false

namespace Maixii.Lib

variable {α : Type} {cap out : Nat} {slots slots' : Nat → α} {all : List α}
  {held rest : List (Nat × α)}

/-- **What the three zones hold.** What is held is known with its slot. -/
structure Zones (cap : Nat) (slots : Nat → α) (all : List α) (out : Nat)
    (held : List (Nat × α)) : Prop where
  window : Window cap (fun i => some (slots i)) (out % cap) (all.drop out)
  le : out + held.length ≤ all.length
  heldAt : ∀ j x, held[j]? = some x → all[out + j]? = some x.2 ∧ x.1 = (out + j) % cap

theorem zones_nil (hcap : 0 < cap) : Zones cap slots [] 0 [] where
  window := window_nil (by rwa [Nat.zero_mod])
  le := Nat.le_refl _
  heldAt j x hj := by simp at hj

namespace Zones

/-- An element that is not given back is in its slot. -/
theorem slot (h : Zones cap slots all out held) {k : Nat} {a : α} (hk : out ≤ k)
    (ha : all[k]? = some a) : slots (k % cap) = a := by
  have hdrop : (all.drop out)[k - out]? = some a := by
    rw [List.getElem?_drop, Nat.add_sub_cancel' hk]
    exact ha
  have hslot := h.window.holds _ _ hdrop
  rw [Nat.mod_add_mod, Nat.add_sub_cancel' hk] at hslot
  exact Option.some.inj hslot

theorem length_le (h : Zones cap slots all out held) : all.length ≤ out + cap := by
  have hfits := h.window.fits
  rw [List.length_drop] at hfits
  omega

/-- Only what the slots hold matters. -/
theorem congr (h : Zones cap slots all out held) (heq : ∀ i, slots' i = slots i) :
    Zones cap slots' all out held := by
  obtain rfl : slots' = slots := funext heq
  exact h

/-- **Something is put in.** -/
theorem put (h : Zones cap slots all out held) {a : α} (hroom : all.length < out + cap)
    (hnew : slots' (all.length % cap) = a)
    (hold : ∀ i, i ≠ all.length % cap → slots' i = slots i) :
    Zones cap slots' (all ++ [a]) out held := by
  have hout : out ≤ all.length := Nat.le_trans (Nat.le_add_right _ _) h.le
  have hplace : (out % cap + (all.drop out).length) % cap = all.length % cap := by
    rw [List.length_drop, Nat.mod_add_mod, Nat.add_sub_cancel' hout]
  constructor
  · rw [List.drop_append_of_le_length hout]
    apply (h.window.push a (by rw [List.length_drop]; omega)).congr
    intro j _
    rw [hplace]
    split
    · rename_i heq
      rw [heq, hnew]
    · rename_i hne
      rw [hold _ hne]
  · rw [List.length_append]
    exact Nat.le_trans h.le (Nat.le_add_right _ _)
  · intro j x hx
    obtain ⟨hat, hslot⟩ := h.heldAt j x hx
    refine ⟨?_, hslot⟩
    rw [List.getElem?_append_left (List.getElem?_eq_some_iff.mp hat).1]
    exact hat

/-- **The element that has waited longest is taken.** -/
theorem take (h : Zones cap slots all out held) (hwaits : out + held.length < all.length) :
    Zones cap slots all out
      (held ++ [((out + held.length) % cap, slots ((out + held.length) % cap))]) where
  window := h.window
  le := by
    rw [List.length_append]
    exact hwaits
  heldAt := by
    intro j x hx
    by_cases hj : j < held.length
    · rw [List.getElem?_append_left hj] at hx
      exact h.heldAt j x hx
    · have hlast : j = held.length := by
        have hlt := (List.getElem?_eq_some_iff.mp hx).1
        rw [List.length_append, List.length_singleton] at hlt
        omega
      rw [hlast, List.getElem?_append_right (Nat.le_refl _), Nat.sub_self] at hx
      obtain rfl := Option.some.inj hx
      rw [hlast, h.slot (Nat.le_add_right _ _) (List.getElem?_eq_getElem hwaits)]
      exact ⟨List.getElem?_eq_getElem hwaits, rfl⟩

/-- **The element that is held longest is given back.** -/
theorem give {x : Nat × α} (h : Zones cap slots all out (x :: rest)) :
    Zones cap slots all (out + 1) rest where
  window := by
    have hdrop := h.window.drop 1
    rwa [Nat.mod_add_mod, List.drop_drop] at hdrop
  le := by
    have hle := h.le
    rw [List.length_cons] at hle
    omega
  heldAt := by
    intro j y hy
    have hnext := h.heldAt (j + 1) y hy
    rwa [Nat.add_assoc, Nat.add_comm 1 j]

theorem give_eq {x : Nat × α} (h : Zones cap slots all out (x :: rest)) :
    all[out]? = some x.2 ∧ x.1 = out % cap := h.heldAt 0 x rfl

theorem take_add_one {x : Nat × α} (h : Zones cap slots all out (x :: rest)) :
    all.take (out + 1) = all.take out ++ [x.2] := by
  rw [List.take_add_one, h.give_eq.1]
  rfl

/-- What is held is still there. -/
theorem intact (h : Zones cap slots all out held) : ∀ x ∈ held, slots x.1 = x.2 := by
  intro x hx
  obtain ⟨j, hj⟩ := List.mem_iff_getElem?.mp hx
  obtain ⟨hat, hslot⟩ := h.heldAt j x hj
  rw [hslot]
  exact h.slot (Nat.le_add_right _ _) hat

/-- What waits. -/
theorem waiting_eq (h : Zones cap slots all out held) {n : Nat}
    (hn : out + held.length + n = all.length) :
    ((List.range n).map fun i => slots ((out + held.length + i) % cap)) =
      all.drop (out + held.length) := by
  refine List.ext_getElem? fun i => ?_
  by_cases hi : i < n
  · have hlt : out + held.length + i < all.length := by omega
    rw [List.getElem?_map, List.getElem?_range hi, List.getElem?_drop,
      List.getElem?_eq_getElem hlt, Option.map_some]
    exact congrArg some (h.slot (by omega) (List.getElem?_eq_getElem hlt))
  · rw [List.getElem?_eq_none, List.getElem?_eq_none]
    · rw [List.length_drop]
      omega
    · rw [List.length_map, List.length_range]
      exact Nat.le_of_not_lt hi

theorem held_eq (h : Zones cap slots all out held) :
    held.map Prod.snd = (all.drop out).take held.length := by
  refine List.ext_getElem? fun j => ?_
  by_cases hj : j < held.length
  · obtain ⟨hat, -⟩ := h.heldAt j held[j] (List.getElem?_eq_getElem hj)
    rw [List.getElem?_map, List.getElem?_eq_getElem hj, List.getElem?_take_of_lt hj,
      List.getElem?_drop, hat]
    rfl
  · have hshort := Nat.le_of_not_lt hj
    rw [List.getElem?_eq_none (by rwa [List.length_map]), List.getElem?_eq_none]
    exact (List.length_take_le _ _).trans hshort

/-- **All that was put in, in order.** -/
theorem inOrder (h : Zones cap slots all out held) {n : Nat}
    (hn : out + held.length + n = all.length) :
    all = all.take out ++ held.map Prod.snd ++
      (List.range n).map fun i => slots ((out + held.length + i) % cap) := by
  rw [h.waiting_eq hn, h.held_eq, ← List.drop_drop, List.append_assoc, List.take_append_drop,
    List.take_append_drop]

/-- An element that is not given back is not where the next one goes. -/
theorem next_ne (h : Zones cap slots all out held) (hroom : all.length < out + cap) {k : Nat}
    (hk : out ≤ k) (hlt : k < all.length) : k % cap ≠ all.length % cap := by
  have hout : out ≤ all.length := Nat.le_trans (Nat.le_add_right _ _) h.le
  intro heq
  rw [← Nat.add_sub_cancel' hk, ← Nat.add_sub_cancel' hout] at heq
  have := ring_inj (by omega) (by omega) heq
  omega

/-- **The next one goes into no slot that is held or waited in.** -/
theorem fresh (h : Zones cap slots all out held) (hroom : all.length < out + cap) :
    (∀ x ∈ held, x.1 ≠ all.length % cap) ∧
      ∀ i, out + held.length + i < all.length →
        (out + held.length + i) % cap ≠ all.length % cap := by
  refine ⟨fun x hx => ?_, fun i hi => h.next_ne hroom (by omega) hi⟩
  obtain ⟨j, hj⟩ := List.mem_iff_getElem?.mp hx
  obtain ⟨hat, hslot⟩ := h.heldAt j x hj
  rw [hslot]
  exact h.next_ne hroom (Nat.le_add_right _ _) (List.getElem?_eq_some_iff.mp hat).1

end Zones

end Maixii.Lib
