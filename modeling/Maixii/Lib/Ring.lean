import Mathlib.Data.Int.Bitwise
import Mathlib.Data.List.Basic
import Mathlib.Data.Nat.ModEq

/-!
# `Lib/Ring.lean`: a window of a ring

An array of `cap` places whose indices go round. `Window` says that from the index `front` on it
holds a list, element by element; it is what is known of a ring buffer whatever its counters say.
Putting something behind the window and dropping something off its front are the two lemmas, and
reading a stretch that does not go round is the third.
-/

set_option autoImplicit false

namespace Maixii.Lib

variable {α : Type} {cap front : Nat} {slots slots' : Nat → Option α} {l : List α}

/-- **From `front` on, the ring holds these.** -/
structure Window (cap : Nat) (slots : Nat → Option α) (front : Nat) (l : List α) : Prop where
  fits : l.length ≤ cap
  front_lt : front < cap
  holds : ∀ j a, l[j]? = some a → slots ((front + j) % cap) = some a

theorem window_nil (h : front < cap) : Window cap slots front [] where
  fits := Nat.zero_le _
  front_lt := h
  holds j a hj := by simp at hj

/-- Two places less than a round apart are two places. -/
theorem ring_inj {i j : Nat} (hi : i < cap) (hj : j < cap)
    (h : (front + i) % cap = (front + j) % cap) : i = j := by
  have hmod : i ≡ j [MOD cap] := Nat.ModEq.add_left_cancel' front h
  rwa [Nat.ModEq, Nat.mod_eq_of_lt hi, Nat.mod_eq_of_lt hj] at hmod

/-- Of three places on the way around, the middle one is in between, the way the ring goes. -/
theorem ring_between {h u : Nat} (hfront : front < cap) (hle : h ≤ u) (hpos : 0 < u)
    (hu : u < cap) :
    (front + u) % cap ≠ front ∧
      (front < (front + u) % cap → front ≤ (front + h) % cap ∧
        (front + h) % cap ≤ (front + u) % cap) ∧
      ((front + u) % cap < front → front ≤ (front + h) % cap ∨
        (front + h) % cap ≤ (front + u) % cap) := by
  have hround : ∀ k, k < cap →
      (front + k) % cap = if front + k < cap then front + k else front + k - cap := by
    intro k hk
    split
    · rename_i hlt
      exact Nat.mod_eq_of_lt hlt
    · rename_i hge
      rw [Nat.mod_eq_sub_mod (Nat.le_of_not_lt hge), Nat.mod_eq_of_lt]
      omega
  rw [hround h (by omega), hround u hu]
  split <;> split <;> omega

/-- Only the places of the window matter. -/
theorem Window.congr (h : Window cap slots front l)
    (heq : ∀ j < l.length, slots' ((front + j) % cap) = slots ((front + j) % cap)) :
    Window cap slots' front l where
  fits := h.fits
  front_lt := h.front_lt
  holds := by
    intro j a hj
    rw [heq j (List.getElem?_eq_some_iff.mp hj).1]
    exact h.holds j a hj

/-- **Something is put behind the window.** -/
theorem Window.push (h : Window cap slots front l) (a : α) (hroom : l.length < cap) :
    Window cap (fun i => if i = (front + l.length) % cap then some a else slots i) front
      (l ++ [a]) where
  fits := by
    rw [List.length_append]
    exact hroom
  front_lt := h.front_lt
  holds := by
    intro j b hj
    by_cases hlast : j = l.length
    · subst hlast
      rw [if_pos rfl]
      simpa using hj
    · have hlt : j < l.length := by
        have := (List.getElem?_eq_some_iff.mp hj).1
        rw [List.length_append, List.length_singleton] at this
        omega
      rw [if_neg (fun he => hlast (ring_inj (Nat.lt_trans hlt hroom) hroom he))]
      rw [List.getElem?_append_left hlt] at hj
      exact h.holds j b hj

/-- **A list is put behind the window**, and nothing else is changed. -/
theorem Window.append (h : Window cap slots front l) {es : List α}
    (hroom : l.length + es.length ≤ cap)
    (hnew : ∀ i a, es[i]? = some a → slots' ((front + l.length + i) % cap) = some a)
    (hold : ∀ k < cap, (∀ i < es.length, k ≠ (front + l.length + i) % cap) →
      slots' k = slots k) : Window cap slots' front (l ++ es) where
  fits := by
    rw [List.length_append]
    exact hroom
  front_lt := h.front_lt
  holds := by
    intro j a hj
    by_cases hlt : j < l.length
    · rw [List.getElem?_append_left hlt] at hj
      rw [hold _ (Nat.mod_lt _ (Nat.zero_lt_of_lt h.front_lt))]
      · exact h.holds j a hj
      · intro i hi heq
        rw [Nat.add_assoc] at heq
        have := ring_inj (by omega) (by omega) heq
        omega
    · have hge : l.length ≤ j := Nat.le_of_not_lt hlt
      rw [List.getElem?_append_right hge] at hj
      have hslot := hnew _ a hj
      rwa [Nat.add_assoc, Nat.add_sub_cancel' hge] at hslot

/-- **Something is dropped off its front.** -/
theorem Window.drop (h : Window cap slots front l) (n : Nat) :
    Window cap slots ((front + n) % cap) (l.drop n) where
  fits := by
    rw [List.length_drop]
    exact Nat.le_trans (Nat.sub_le _ _) h.fits
  front_lt := Nat.mod_lt _ (Nat.zero_lt_of_lt h.front_lt)
  holds := by
    intro j a hj
    rw [List.getElem?_drop] at hj
    rw [Nat.mod_add_mod, Nat.add_assoc]
    exact h.holds (n + j) a hj

theorem Window.head {a : α} (h : Window cap slots front (a :: l)) : slots front = some a := by
  have hfirst := h.holds 0 a rfl
  rwa [Nat.add_zero, Nat.mod_eq_of_lt h.front_lt] at hfirst

/-- **The front is moved out**, and its slot is empty from then on. -/
theorem Window.pop {a : α} (h : Window cap slots front (a :: l)) :
    Window cap (fun i => if i = front then none else slots i) ((front + 1) % cap) l := by
  have hrest : Window cap slots ((front + 1) % cap) l := h.drop 1
  apply hrest.congr
  intro j hj
  have hfits := h.fits
  rw [List.length_cons] at hfits
  -- The slot moved from is a round away.
  rw [if_neg]
  intro heq
  rw [Nat.mod_add_mod, Nat.add_assoc] at heq
  have hfront : front = (front + 0) % cap := (Nat.mod_eq_of_lt h.front_lt).symm
  have hzero : 1 + j = 0 := ring_inj (by omega) (by omega) (heq.trans hfront)
  omega

/-- **From `front` on, the ring holds these and nothing else.** -/
structure Filled (cap : Nat) (slots : Nat → Option α) (front : Nat) (l : List α) : Prop where
  window : Window cap slots front l
  vacant : ∀ j, l.length ≤ j → j < cap → slots ((front + j) % cap) = none

theorem filled_nil (h : front < cap) : Filled cap (fun _ => (none : Option α)) front [] where
  window := window_nil h
  vacant _ _ _ := rfl

/-- The place behind them is empty. -/
theorem Filled.back (h : Filled cap slots front l) (hroom : l.length < cap) :
    slots ((front + l.length) % cap) = none := h.vacant _ (Nat.le_refl _) hroom

theorem Filled.push (h : Filled cap slots front l) (a : α) (hroom : l.length < cap) :
    Filled cap (fun i => if i = (front + l.length) % cap then some a else slots i) front
      (l ++ [a]) where
  window := h.window.push a hroom
  vacant := by
    intro j hj hcap
    rw [List.length_append, List.length_singleton] at hj
    rw [if_neg]
    · exact h.vacant j (Nat.le_of_succ_le hj) hcap
    · intro heq
      have := ring_inj hcap hroom heq
      omega

theorem Filled.pop {a : α} (h : Filled cap slots front (a :: l)) :
    Filled cap (fun i => if i = front then none else slots i) ((front + 1) % cap) l where
  window := h.window.pop
  vacant := by
    intro j hj hcap
    rw [Nat.mod_add_mod, Nat.add_assoc, Nat.add_comm 1 j]
    by_cases hround : j + 1 < cap
    · have hold := h.vacant (j + 1) (by rw [List.length_cons]; omega) hround
      rw [hold, ite_self]
    · -- The last place is the one that was moved from.
      have hlast : j + 1 = cap := by omega
      rw [hlast, Nat.add_mod_right, Nat.mod_eq_of_lt h.window.front_lt, if_pos rfl]

/-- **A stretch that does not go round** is read as it is. -/
theorem Window.read (h : Window cap slots front l) {n : Nat} (hn : n ≤ l.length)
    (hstraight : front + n ≤ cap) :
    ((List.range n).map fun k => slots (front + k)) = (l.take n).map some := by
  refine List.ext_getElem? ?_
  intro k
  by_cases hk : k < n
  · have hkl : k < l.length := Nat.lt_of_lt_of_le hk hn
    have hin := h.holds k l[k] (List.getElem?_eq_getElem hkl)
    rw [Nat.mod_eq_of_lt (by omega)] at hin
    rw [List.getElem?_map, List.getElem?_range hk, List.getElem?_map, List.getElem?_take_of_lt hk,
      List.getElem?_eq_getElem hkl, Option.map_some, Option.map_some, hin]
  · have hleft : n ≤ k := Nat.le_of_not_lt hk
    rw [List.getElem?_eq_none (by simpa using hleft), List.getElem?_eq_none (by
      rw [List.length_map, List.length_take]
      omega)]

end Maixii.Lib
