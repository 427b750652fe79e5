import Mathlib.Data.Int.Bitwise
import Mathlib.Data.List.Basic

/-!
# `Lib/Mutex.lean`: calls under way, and one lock

Many threads are in the code of one object. What is known of them is the list of the calls that
have begun, each at its point of the code, and who holds the object's lock. `critical` says which
points lie between `lock` and `unlock`.

`Locked` is the discipline: the holder is the one call at a critical point. It is kept by the four
things a call does (it begins, goes on, takes the lock, gives it back), and that is all a proof
about the object has to know of the lock.
-/

set_option autoImplicit false

namespace Maixii.Lib

variable {α : Type} {critical : α → Bool} {calls : List α} {mutex : Option Nat} {i : Nat} {a b : α}

/-- **The calls and the lock agree**: the holder is a call, and the only one at a critical point. -/
structure Locked (critical : α → Bool) (calls : List α) (mutex : Option Nat) : Prop where
  lock : ∀ i a, calls[i]? = some a → (critical a = true ↔ mutex = some i)
  holder : ∀ i, mutex = some i → ∃ a, calls[i]? = some a

/-- Who is where once one call has gone on. -/
theorem getElem?_set_call (ha : calls[i]? = some a) (j : Nat) :
    (calls.set i b)[j]? = if j = i then some b else calls[j]? := by
  by_cases hj : j = i
  · subst hj
    rw [if_pos rfl, List.getElem?_set_self (List.getElem?_eq_some_iff.mp ha).1]
  · rw [if_neg hj, List.getElem?_set_ne (Ne.symm hj)]

theorem getElem?_set_self_call (ha : calls[i]? = some a) : (calls.set i b)[i]? = some b := by
  rw [getElem?_set_call ha, if_pos rfl]

/-- Who is where once another call has begun. -/
theorem getElem?_begin {j : Nat} : (calls ++ [b])[j]? = some a ↔
    calls[j]? = some a ∨ (j = calls.length ∧ a = b) := by
  rw [List.getElem?_append]
  by_cases hj : j < calls.length
  · rw [if_pos hj]
    exact ⟨.inl, fun h => h.resolve_right fun h' => Nat.ne_of_lt hj h'.1⟩
  · have hnone : calls[j]? = none := List.getElem?_eq_none (Nat.le_of_not_lt hj)
    rw [if_neg hj, hnone, List.getElem?_singleton]
    constructor
    · intro h
      split at h
      · exact .inr ⟨by omega, (Option.some.inj h).symm⟩
      · simp at h
    · rintro (h | ⟨rfl, rfl⟩)
      · simp at h
      · simp

/-- No call has begun. -/
theorem locked_nil : Locked critical [] none where
  lock i a h := by simp at h
  holder i h := by simp at h

/-- A call begins. -/
theorem Locked.begin (h : Locked critical calls mutex) (hb : critical b = false) :
    Locked critical (calls ++ [b]) mutex where
  lock := by
    intro j x hx
    rcases getElem?_begin.mp hx with hx | ⟨rfl, rfl⟩
    · exact h.lock j x hx
    · rw [hb]
      refine ⟨fun hf => absurd hf Bool.false_ne_true, ?_⟩
      intro hm
      obtain ⟨y, hy⟩ := h.holder _ hm
      exact absurd (List.getElem?_eq_some_iff.mp hy).1 (Nat.lt_irrefl _)
  holder := by
    intro j hj
    obtain ⟨x, hx⟩ := h.holder j hj
    exact ⟨x, getElem?_begin.mpr (.inl hx)⟩

/-- A call goes on, and stays on its side of the lock. -/
theorem Locked.goOn (h : Locked critical calls mutex) (ha : calls[i]? = some a)
    (hab : critical b = critical a) : Locked critical (calls.set i b) mutex where
  lock := by
    intro j x hx
    rw [getElem?_set_call ha] at hx
    split at hx
    · rename_i hj
      rw [hj, ← Option.some.inj hx, hab]
      exact h.lock i a ha
    · exact h.lock j x hx
  holder := by
    intro j hj
    rw [getElem?_set_call ha]
    split
    · exact ⟨b, rfl⟩
    · exact h.holder j hj

/-- A call takes the lock. -/
theorem Locked.acquire (h : Locked critical calls none) (ha : calls[i]? = some a)
    (hb : critical b = true) : Locked critical (calls.set i b) (some i) where
  lock := by
    intro j x hx
    rw [getElem?_set_call ha] at hx
    split at hx
    · rename_i hj
      rw [hj, ← Option.some.inj hx, hb]
      exact ⟨fun _ => rfl, fun _ => rfl⟩
    · rename_i hj
      rw [h.lock j x hx]
      simp [Ne.symm hj]
  holder := by
    intro j hj
    obtain rfl := Option.some.inj hj
    exact ⟨b, getElem?_set_self_call ha⟩

/-- The holder gives the lock back. -/
theorem Locked.release (h : Locked critical calls mutex) (ha : calls[i]? = some a)
    (hcrit : critical a = true) (hb : critical b = false) :
    Locked critical (calls.set i b) none where
  lock := by
    intro j x hx
    rw [getElem?_set_call ha] at hx
    split at hx
    · rw [← Option.some.inj hx, hb]
      simp
    · rename_i hj
      rw [h.lock j x hx, (h.lock i a ha).mp hcrit]
      simp [Ne.symm hj]
  holder := by
    intro j hj
    simp at hj

/-- With no call at a critical point, the lock is free. -/
theorem Locked.free (h : Locked critical calls mutex) (hout : ∀ x ∈ calls, critical x = false) :
    mutex = none := by
  cases mutex with
  | none => rfl
  | some j =>
    obtain ⟨x, hx⟩ := h.holder j rfl
    have hcrit := (h.lock j x hx).mpr rfl
    rw [hout x (List.mem_of_getElem? hx)] at hcrit
    exact absurd hcrit Bool.false_ne_true

end Maixii.Lib
