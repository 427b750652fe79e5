import Maixii.Lib.Ring

/-!
# `Net/RingBuffer.lean`: the ring of the trigger events

`net/RingBuffer.h`. `PushData` fills a slot, moves `put_pos_` on and then counts; `Pop` moves a
slot out, moves `get_pos_` on and then counts. The two ends run in different threads, so the halves
before and after the count are operations of their own. `Holds` is what the slots say, which the
count follows only once both ends are through.
-/

set_option autoImplicit false

namespace Maixii.Net

open Maixii.Lib

/-- `RingBuffer`, with slots that are `none` once they have been moved from. -/
structure RingBuffer (α : Type) where
  capacity : Nat
  numDatas : Nat
  putPos : Nat
  getPos : Nat
  buffer : Nat → Option α

namespace RingBuffer

variable {α : Type}

def new (capacity : Nat) : RingBuffer α := ⟨capacity, 0, 0, 0, fun _ => none⟩

/-- `Add`. -/
def add (r : RingBuffer α) (pos : Nat) : Nat := if pos + 1 = r.capacity then 0 else pos + 1

/-- `PushData` up to the count: the slot is filled and `put_pos_` goes on. -/
def store (r : RingBuffer α) (data : α) : RingBuffer α :=
  { r with
    buffer := fun i => if i = r.putPos then some data else r.buffer i
    putPos := r.add r.putPos }

/-- `Pop` up to the count: the slot is moved from and `get_pos_` goes on. -/
def take (r : RingBuffer α) : RingBuffer α :=
  { r with
    buffer := fun i => if i = r.getPos then none else r.buffer i
    getPos := r.add r.getPos }

/-- `num_datas_++`. -/
def countUp (r : RingBuffer α) : RingBuffer α := { r with numDatas := r.numDatas + 1 }

/-- `num_datas_--`. -/
def countDown (r : RingBuffer α) : RingBuffer α := { r with numDatas := r.numDatas - 1 }

/-! ## What the ring holds -/

/-- The ring holds these, in order: between `get_pos_` and `put_pos_`. -/
structure Holds (r : RingBuffer α) (l : List α) : Prop where
  window : Window r.capacity r.buffer r.getPos l
  back : r.putPos = (r.getPos + l.length) % r.capacity

theorem add_eq {r : RingBuffer α} {pos : Nat} (h : pos < r.capacity) :
    r.add pos = (pos + 1) % r.capacity := by
  unfold add
  split
  · rename_i he
    rw [he, Nat.mod_self]
  · rw [Nat.mod_eq_of_lt (by omega)]

theorem holds_new {capacity : Nat} (h : 0 < capacity) :
    (new capacity : RingBuffer α).Holds [] where
  window := window_nil h
  back := (Nat.zero_mod capacity).symm

variable {r : RingBuffer α} {l : List α}

theorem Holds.store (h : r.Holds l) (a : α) (hroom : l.length < r.capacity) :
    (r.store a).Holds (l ++ [a]) where
  window := by
    have hw := h.window.push a hroom
    rw [← h.back] at hw
    exact hw
  back := by
    have hlt : r.putPos < r.capacity := by
      rw [h.back]
      exact Nat.mod_lt _ (Nat.zero_lt_of_lt hroom)
    show r.add r.putPos = (r.getPos + (l ++ [a]).length) % r.capacity
    rw [add_eq hlt, h.back, Nat.mod_add_mod, List.length_append, List.length_singleton,
      Nat.add_assoc]

theorem Holds.head {a : α} (h : r.Holds (a :: l)) : r.buffer r.getPos = some a := h.window.head

theorem Holds.take {a : α} (h : r.Holds (a :: l)) : r.take.Holds l where
  window := by
    have hw := h.window.pop
    rw [← add_eq h.window.front_lt] at hw
    exact hw
  back := by
    show r.putPos = (r.add r.getPos + l.length) % r.capacity
    rw [h.back, add_eq h.window.front_lt, Nat.mod_add_mod, List.length_cons]
    congr 1
    omega

end RingBuffer

end Maixii.Net
