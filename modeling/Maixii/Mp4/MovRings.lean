import Maixii.Mp4.MovPacket

/-!
# `Mp4/MovRings.lean`: seven rings in one allocation

What an operation on one ring does to it and to the six others. `Holds` is a ring between two
stores, `Pending` one that has a word more and has not been settled; a word stored in one ring is in
no other since the rings lie apart.
-/

set_option autoImplicit false

namespace Maixii.Mp4

open Maixii.Lib

theorem Table.paged (t : Table) : Paged t.cacheSize tinyPageSize := by
  rcases t with (_ | _) | (_ | _) | (_ | _) | _ <;> exact ⟨by decide, by decide, by decide⟩

/-- **No two rings have a place in common.** -/
theorem Table.apart {t u : Table} (h : t ≠ u) :
    t.start + t.cacheSize ≤ u.start ∨ u.start + u.cacheSize ≤ t.start := by
  rcases t with (_ | _) | (_ | _) | (_ | _) | _ <;> rcases u with (_ | _) | (_ | _) | (_ | _) | _ <;>
    first
    | exact absurd rfl h
    | decide

namespace MovContext

variable {mov mov' : MovContext} {t u trk : Table} {l : List UInt32} {v : UInt32}

/-- **The table `l` in the ring `t`**, between two stores. -/
structure Holds (mov : MovContext) (t : Table) (l : List UInt32) : Prop where
  start_eq : (mov.cache t).startPtr = t.start
  end_eq : (mov.cache t).endPtr = t.start + t.cacheSize - 1
  kept : Kept t.start t.cacheSize tinyPageSize mov.movInfCache (mov.fd t) (mov.cache t).writePtr
    (mov.cache t).readPtr (mov.cache t).cacheSize l

/-- The same with one word more, which is counted but not settled. -/
structure Pending (mov : MovContext) (t : Table) (l : List UInt32) (v : UInt32) : Prop where
  start_eq : (mov.cache t).startPtr = t.start
  end_eq : (mov.cache t).endPtr = t.start + t.cacheSize - 1
  stored : Stored t.start t.cacheSize tinyPageSize mov.movInfCache (mov.fd t)
    (mov.cache t).writePtr (mov.cache t).readPtr (mov.cache t).cacheSize l v

/-- What is needed to read a table back: its first `p` pages are in the file. -/
structure Readable (mov : MovContext) (t : Table) (p : Nat) (l : List UInt32) : Prop where
  start_eq : (mov.cache t).startPtr = t.start
  end_eq : (mov.cache t).endPtr = t.start + t.cacheSize - 1
  spilled : Spilled t.start t.cacheSize tinyPageSize mov.movInfCache (mov.fd t) p l
  read_eq : (mov.cache t).readPtr = t.start + p * tinyPageSize % t.cacheSize

/-- Nothing of the ring `t` is different. -/
structure SameRing (mov mov' : MovContext) (t : Table) : Prop where
  mem : ∀ a, t.start ≤ a → a < t.start + t.cacheSize → mov'.movInfCache a = mov.movInfCache a
  cache : mov'.cache t = mov.cache t
  fd : mov'.fd t = mov.fd t

theorem SameRing.holds (h : SameRing mov mov' t) (hl : mov.Holds t l) : mov'.Holds t l where
  start_eq := by rw [h.cache, hl.start_eq]
  end_eq := by rw [h.cache, hl.end_eq]
  kept := by
    rw [h.cache, h.fd]
    exact hl.kept.congr h.mem

theorem SameRing.pending (h : SameRing mov mov' t) (hl : mov.Pending t l v) :
    mov'.Pending t l v where
  start_eq := by rw [h.cache, hl.start_eq]
  end_eq := by rw [h.cache, hl.end_eq]
  stored := by
    rw [h.cache, h.fd]
    exact hl.stored.congr h.mem

theorem SameRing.trans {mov'' : MovContext} (h : SameRing mov mov' t) (h' : SameRing mov' mov'' t) :
    SameRing mov mov'' t where
  mem := by
    intro a hlo hhi
    rw [h'.mem a hlo hhi, h.mem a hlo hhi]
  cache := h'.cache.trans h.cache
  fd := h'.fd.trans h.fd

theorem holds_opened (mem keys page : Nat → UInt32) (t : Table) :
    (opened mem keys page).Holds t [] where
  start_eq := rfl
  end_eq := (Nat.add_sub_assoc t.paged.cap_pos t.start).symm
  kept := kept_nil t.paged mem

theorem Holds.readable (h : mov.Holds t l) :
    mov.Readable t (pagesGone t.cacheSize tinyPageSize l.length) l :=
  ⟨h.start_eq, h.end_eq, h.kept.spilled, h.kept.read_eq⟩

/-! ## A word is stored -/

/-- What `store` leaves when the pointer is within its ring. -/
def stored (mov : MovContext) (t : Table) (v : UInt32) : MovContext :=
  { mov with
    movInfCache := Function.update mov.movInfCache (mov.cache t).writePtr v
    cache := Function.update mov.cache t
      { mov.cache t with writePtr := (mov.cache t).writePtr + 1 } }

/-- **The pointer is always within its ring.** -/
theorem Holds.store (h : mov.Holds t l) (v : UInt32) : mov.store t v = some (mov.stored t v) := by
  refine if_pos ?_
  rw [h.start_eq, h.end_eq]
  exact h.kept.write_mem t.paged

theorem Holds.pending (h : mov.Holds t l) (v : UInt32) :
    ((mov.stored t v).counted t).Pending t l v where
  start_eq := by
    simp only [counted, stored, Function.update_self]
    exact h.start_eq
  end_eq := by
    simp only [counted, stored, Function.update_self]
    exact h.end_eq
  stored := by
    simp only [counted, MovContext.stored, Function.update_self]
    exact h.kept.store t.paged v

/-- A last word, which nothing settles. -/
theorem Holds.readable_stored (h : mov.Holds t l) (v : UInt32) :
    (mov.stored t v).Readable t (pagesGone t.cacheSize tinyPageSize l.length) (l ++ [v]) where
  start_eq := by
    simp only [stored, Function.update_self]
    exact h.start_eq
  end_eq := by
    simp only [stored, Function.update_self]
    exact h.end_eq
  spilled := (h.kept.store t.paged v).spilled
  read_eq := by
    simp only [stored, Function.update_self]
    exact h.kept.read_eq

theorem Holds.sameRing_stored (h : mov.Holds t l) (v : UInt32) (hu : u ≠ t) :
    SameRing mov (mov.stored t v) u where
  mem := by
    intro a hlo hhi
    obtain ⟨hstart, hend⟩ := h.kept.write_mem t.paged
    have hcap := t.paged.cap_pos
    have hne : a ≠ (mov.cache t).writePtr := by
      rcases Table.apart hu with hapart | hapart <;> omega
    exact Function.update_of_ne hne ..
  cache := Function.update_of_ne hu ..
  fd := rfl

theorem sameRing_counted (mov : MovContext) (hu : u ≠ t) : SameRing mov (mov.counted t) u where
  mem _ _ _ := rfl
  cache := Function.update_of_ne hu ..
  fd := rfl

/-! ## A ring is settled -/

theorem sameRing_settle (mov : MovContext) (trk : Table) (hu : u ≠ t) :
    SameRing mov (mov.settle t trk) u := by
  unfold settle spill
  by_cases hfull : t.cacheSize ≤ ((mov.wrapWrite t).cache t).cacheSize
  · rw [if_pos hfull]
    refine ⟨fun _ _ _ => rfl, ?_, Function.update_of_ne hu ..⟩
    exact (Function.update_of_ne hu ..).trans (Function.update_of_ne hu ..)
  · rw [if_neg hfull]
    exact ⟨fun _ _ _ => rfl, Function.update_of_ne hu .., rfl⟩

/-- **Settling ends a store.** -/
theorem Pending.settle (h : mov.Pending t l v)
    (hpages : mov.tinyPages trk = pagesGone t.cacheSize tinyPageSize l.length) :
    (mov.settle t trk).Holds t (l ++ [v]) := by
  have hstart := h.start_eq
  have hend := h.end_eq
  have hstored := h.stored
  unfold MovContext.settle spill
  by_cases hfull : t.cacheSize ≤ (mov.cache t).cacheSize
  · rw [if_pos (by simpa [wrapWrite] using hfull)]
    refine ⟨?_, ?_, ?_⟩
    · simpa [wrapWrite] using hstart
    · simpa [wrapWrite] using hend
    · simp only [wrapWrite, Function.update_self, hstart, hend, hpages]
      exact hstored.spill t.paged hfull
  · rw [if_neg (by simpa [wrapWrite] using hfull)]
    refine ⟨?_, ?_, ?_⟩
    · simpa [wrapWrite] using hstart
    · simpa [wrapWrite] using hend
    · simp only [wrapWrite, Function.update_self, hstart, hend]
      exact hstored.room t.paged (Nat.lt_of_not_le hfull)

/-- **The counter that is moved** says how many pages of this ring are gone. -/
theorem Pending.tinyPages_settle (h : mov.Pending t l v)
    (hpages : mov.tinyPages trk = pagesGone t.cacheSize tinyPageSize l.length) :
    (mov.settle t trk).tinyPages =
      Function.update mov.tinyPages trk (pagesGone t.cacheSize tinyPageSize (l.length + 1)) := by
  have hheld := h.stored.held_eq
  unfold MovContext.settle spill
  by_cases hfull : t.cacheSize ≤ (mov.cache t).cacheSize
  · rw [if_pos (by simpa [wrapWrite] using hfull), t.paged.gone_full (hheld ▸ hfull), ← hpages]
    rfl
  · rw [if_neg (by simpa [wrapWrite] using hfull),
      t.paged.gone_room (hheld ▸ Nat.lt_of_not_le hfull), ← hpages, Function.update_eq_self]
    rfl

end MovContext

end Maixii.Mp4
