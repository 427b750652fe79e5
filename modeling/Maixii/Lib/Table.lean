/-!
# `Lib/Table.lean`: maps with one entry changed

A map of the source is a function to `Option` here. `setAt` writes or erases an entry, and
`emplaceAt` is `std::map::emplace`, which leaves a key that is there as it is.
-/

set_option autoImplicit false

namespace Maixii.Lib

variable {κ α : Type} [DecidableEq κ] {m : κ → Option α} {k x : κ}

/-- A map with one entry more, or one less. -/
def setAt (m : κ → Option α) (k : κ) (v : Option α) : κ → Option α :=
  fun x => if x = k then v else m x

/-- `emplace`: a key that is there stays as it is. -/
def emplaceAt (m : κ → Option α) (k : κ) (v : α) : κ → Option α :=
  if (m k).isSome then m else setAt m k (some v)

@[simp] theorem setAt_self (v : Option α) : setAt m k v k = v := if_pos rfl

theorem setAt_ne {v : Option α} (h : x ≠ k) : setAt m k v x = m x := if_neg h

theorem emplaceAt_new {v : α} (h : m k = none) : emplaceAt m k v = setAt m k (some v) := by
  rw [emplaceAt, h]
  exact if_neg (by simp)

theorem emplaceAt_old {v w : α} (h : m k = some w) : emplaceAt m k v = m := by
  rw [emplaceAt, h]
  exact if_pos rfl

end Maixii.Lib
