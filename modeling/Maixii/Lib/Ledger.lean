import Mathlib.Data.Int.Bitwise
import Mathlib.Data.List.Perm.Basic
import Mathlib.Data.List.Nodup

/-!
# `Lib/Ledger.lean`: things acquired and released

A history of acquiring and releasing things that have names (descriptors, buffers, locks), and
two questions about it: does it release only what is held (`sound`), and does it acquire only
what is not held already (`fresh`)? The second is a promise of whoever hands the names out, the
first is the duty of whoever uses them; what is held at the end is `held`.
-/

set_option autoImplicit false

namespace Maixii.Lib

inductive Use (α : Type)
  | acquire (a : α)
  | release (a : α)
  deriving DecidableEq, Repr

section Ledger

variable {α : Type} [DecidableEq α]

/-- What is held after the history, starting from `l`. -/
def held : List α → List (Use α) → List α
  | l, [] => l
  | l, .acquire a :: us => held (a :: l) us
  | l, .release a :: us => held (l.erase a) us

/-- Nothing is acquired while it is held. -/
def fresh : List α → List (Use α) → Bool
  | _, [] => true
  | l, .acquire a :: us => decide (a ∉ l) && fresh (a :: l) us
  | l, .release a :: us => fresh (l.erase a) us

/-- Nothing is released that is not held. -/
def sound : List α → List (Use α) → Bool
  | _, [] => true
  | l, .acquire a :: us => sound (a :: l) us
  | l, .release a :: us => decide (a ∈ l) && sound (l.erase a) us

theorem held_append (l : List α) (us vs : List (Use α)) :
    held l (us ++ vs) = held (held l us) vs := by
  induction us generalizing l with
  | nil => rfl
  | cons u us ih => cases u <;> exact ih _

theorem fresh_append (l : List α) (us vs : List (Use α)) :
    fresh l (us ++ vs) = (fresh l us && fresh (held l us) vs) := by
  induction us generalizing l with
  | nil => simp [fresh, held]
  | cons u us ih => cases u <;> simp [fresh, held, ih, Bool.and_assoc]

theorem sound_append (l : List α) (us vs : List (Use α)) :
    sound l (us ++ vs) = (sound l us && sound (held l us) vs) := by
  induction us generalizing l with
  | nil => simp [sound, held]
  | cons u us ih => cases u <;> simp [sound, held, ih, Bool.and_assoc]

/-- What is held is held once. -/
theorem held_nodup {l : List α} {us : List (Use α)} (hl : l.Nodup) (hf : fresh l us = true) :
    (held l us).Nodup := by
  induction us generalizing l with
  | nil => exact hl
  | cons u us ih =>
    cases u with
    | acquire a =>
      simp only [fresh, Bool.and_eq_true, decide_eq_true_eq] at hf
      exact ih (List.nodup_cons.mpr ⟨hf.1, hl⟩) hf.2
    | release a => exact ih (hl.erase a) hf

/-- **Releasing exactly what is held**, in any order, is sound and leaves nothing. -/
theorem release_all {l m : List α} (h : l.Perm m) :
    sound l (m.map .release) = true ∧ held l (m.map .release) = [] := by
  induction m generalizing l with
  | nil => exact ⟨rfl, h.eq_nil⟩
  | cons a m ih =>
    have ha : a ∈ l := h.symm.subset List.mem_cons_self
    have hp : (l.erase a).Perm m := (List.cons_perm_iff_perm_erase.mp h.symm).2.symm
    obtain ⟨h1, h2⟩ := ih hp
    exact ⟨by simp [sound, ha, h1], by simpa [held] using h2⟩

end Ledger

end Maixii.Lib
