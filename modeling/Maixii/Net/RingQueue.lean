import Maixii.Lib.Run
import Maixii.Net.RingBuffer

/-!
# `Net/RingQueue.lean`: one producer and one consumer

`net/RingBuffer.h` between two threads. `Push` and `Pop` are four steps each: the count is tested,
the item is moved, the index goes on, the count changes; and the two threads take their steps in
any order. What holds the two apart is that each of them tests the count first and changes it
last, so an item in flight is counted as stored by the one who could overwrite it and as missing
by the one who could read it (`Turn`).

`Push(const T&)` names a function that does not exist and is never instantiated; this is
`Push(T&&)`.
-/

set_option autoImplicit false

namespace Maixii.Net

open Maixii.Lib

/-- Where the producer is in `Push(data)`. -/
inductive Pushing (α : Type)
  | idle
  | tested (data : α)
  | moved (data : α)
  | advanced (data : α)

/-- Where the consumer is in `Pop(data)`; what it has moved out is `none` if the slot was empty. -/
inductive Popping (α : Type)
  | idle
  | tested
  | moved (data : Option α)
  | advanced (data : Option α)

namespace RingBuffer

variable {α : Type}

/-- `buffer_[put_pos_] = std::forward<F>(data)`. -/
def moveIn (r : RingBuffer α) (data : α) : RingBuffer α :=
  { r with buffer := fun i => if i = r.putPos then some data else r.buffer i }

/-- `Add(put_pos_)`. -/
def addPut (r : RingBuffer α) : RingBuffer α := { r with putPos := r.add r.putPos }

/-- `std::move(buffer_[get_pos_])`. -/
def moveOut (r : RingBuffer α) : RingBuffer α :=
  { r with buffer := fun i => if i = r.getPos then none else r.buffer i }

/-- `Add(get_pos_)`. -/
def addGet (r : RingBuffer α) : RingBuffer α := { r with getPos := r.add r.getPos }

/-- The two halves of `store` and of `take`. -/
theorem store_eq (r : RingBuffer α) (data : α) : r.store data = (r.moveIn data).addPut := rfl

theorem take_eq (r : RingBuffer α) : r.take = r.moveOut.addGet := rfl

end RingBuffer

/-! ## Runs -/

/-- One step of one of the two threads. -/
inductive RingStep (α : Type)
  /-- `Push(data)` is called, and tests the count. -/
  | push (data : α)
  | moveIn
  | addPut
  | countUp
  /-- `Pop` is called, and tests the count. -/
  | pop
  | moveOut
  | addGet
  | countDown

/-- The ring, the two threads, the items whose `Push` has returned `true`, and what the `Pop`s that
have returned `true` have handed out. -/
structure RingRun (α : Type) where
  ring : RingBuffer α
  producer : Pushing α
  consumer : Popping α
  pushed : List α
  popped : List (Option α)

namespace RingRun

variable {α : Type}

def start (capacity : Nat) : RingRun α := ⟨RingBuffer.new capacity, .idle, .idle, [], []⟩

/-- One step; `none` if the thread is somewhere else. -/
def step (s : RingRun α) : RingStep α → Option (RingRun α)
  | .push data =>
      match s.producer with
      | .idle =>
          if s.ring.numDatas < s.ring.capacity then some { s with producer := .tested data }
          else some s
      | _ => none
  | .moveIn =>
      match s.producer with
      | .tested data => some { s with ring := s.ring.moveIn data, producer := .moved data }
      | _ => none
  | .addPut =>
      match s.producer with
      | .moved data => some { s with ring := s.ring.addPut, producer := .advanced data }
      | _ => none
  | .countUp =>
      match s.producer with
      | .advanced data =>
          some { s with ring := s.ring.countUp, producer := .idle, pushed := s.pushed ++ [data] }
      | _ => none
  | .pop =>
      match s.consumer with
      | .idle => if 0 < s.ring.numDatas then some { s with consumer := .tested } else some s
      | _ => none
  | .moveOut =>
      match s.consumer with
      | .tested =>
          some { s with ring := s.ring.moveOut, consumer := .moved (s.ring.buffer s.ring.getPos) }
      | _ => none
  | .addGet =>
      match s.consumer with
      | .moved data => some { s with ring := s.ring.addGet, consumer := .advanced data }
      | _ => none
  | .countDown =>
      match s.consumer with
      | .advanced data =>
          some { s with ring := s.ring.countDown, consumer := .idle, popped := s.popped ++ [data] }
      | _ => none

def system (capacity : Nat) : System (RingRun α) (RingStep α) :=
  System.ofStep (fun s => s = start capacity) step

/-! ## The property -/

/-- What is promised of every state of a ring of `n` slots. -/
structure BoundedQueue (n : Nat) (s : RingRun α) : Prop where
  capacity : s.ring.capacity = n
  /-- What was popped is what was pushed, in order. -/
  fifo : s.popped <+: s.pushed.map some
  count_le : s.ring.numDatas ≤ n
  /-- The count is not taken below 0. -/
  count_pos : ∀ data, s.consumer = .advanced data → 0 < s.ring.numDatas
  put_lt : s.ring.putPos < n
  get_lt : s.ring.getPos < n
  /-- The slot that is written next holds nothing. -/
  write : ∀ data, s.producer = .tested data → s.ring.buffer s.ring.putPos = none
  /-- The slot that is read next holds something. -/
  read : s.consumer = .tested → (s.ring.buffer s.ring.getPos).isSome = true
  /-- Between calls the ring holds what was pushed and not popped. -/
  quiet : s.producer = .idle → s.consumer = .idle →
    s.ring.putPos = (s.ring.getPos + s.ring.numDatas) % n ∧
    s.pushed.length = s.popped.length + s.ring.numDatas ∧
    Filled n s.ring.buffer s.ring.getPos (s.pushed.drop s.popped.length)

/-! ## The invariant -/

/-- What the producer has stored and not counted. -/
def stored (s : RingRun α) : List α :=
  match s.producer with
  | .moved data => [data]
  | .advanced data => [data]
  | _ => []

/-- What the consumer has moved out and not counted. -/
def out (s : RingRun α) : List (Option α) :=
  match s.consumer with
  | .moved data => [data]
  | .advanced data => [data]
  | _ => []

/-- Where the contents begin. -/
def front (s : RingRun α) : Nat :=
  match s.consumer with
  | .moved _ => s.ring.add s.ring.getPos
  | _ => s.ring.getPos

/-- Where they end. -/
def back (s : RingRun α) : Nat :=
  match s.producer with
  | .moved _ => s.ring.add s.ring.putPos
  | _ => s.ring.putPos

/-- **The invariant**: the ring holds `m`, which is pushed and not popped, and then what the
producer has in flight. -/
structure Turn (n : Nat) (s : RingRun α) (m : List α) : Prop where
  capacity : s.ring.capacity = n
  filled : Filled n s.ring.buffer s.front (m ++ s.stored)
  back : s.back = (s.front + (m ++ s.stored).length) % n
  count : s.ring.numDatas = m.length + s.out.length
  story : s.pushed.map some = s.popped ++ s.out ++ m.map some
  put_lt : s.ring.putPos < n
  get_lt : s.ring.getPos < n
  count_le : s.ring.numDatas ≤ n
  /-- The test of `Push` stays true until it counts. -/
  room : s.producer ≠ .idle → s.ring.numDatas < n
  /-- So does the test of `Pop`. -/
  busy : s.consumer ≠ .idle → 0 < s.ring.numDatas

variable {n : Nat} {s s' : RingRun α} {m : List α}

theorem turn_start (hn : 0 < n) : Turn n (start n : RingRun α) [] where
  capacity := rfl
  filled := filled_nil hn
  back := (Nat.zero_mod n).symm
  count := rfl
  story := rfl
  put_lt := hn
  get_lt := hn
  count_le := Nat.zero_le n
  room h := absurd rfl h
  busy h := absurd rfl h

theorem Turn.add_lt (h : Turn n s m) (pos : Nat) (hpos : pos < n) : s.ring.add pos < n := by
  rw [RingBuffer.add_eq (by rw [h.capacity]; exact hpos), h.capacity]
  exact Nat.mod_lt _ (Nat.zero_lt_of_lt hpos)

/-! ### The producer -/

theorem Turn.push (h : Turn n s m) (hp : s.producer = .idle) {data : α}
    (hroom : s.ring.numDatas < s.ring.capacity) :
    Turn n { s with producer := .tested data } m := by
  obtain ⟨ring, producer, consumer, pushed, popped⟩ := s
  obtain rfl : producer = .idle := hp
  exact { h with room := fun _ => h.capacity ▸ hroom }

theorem Turn.moveIn (h : Turn n s m) {data : α} (hp : s.producer = .tested data) :
    Turn n { s with ring := s.ring.moveIn data, producer := .moved data } m := by
  obtain ⟨ring, producer, consumer, pushed, popped⟩ := s
  obtain rfl : producer = .tested data := hp
  have hlt : ring.numDatas < n := h.room (by simp)
  have hcount : ring.numDatas = m.length + _ := h.count
  have hcap : ring.capacity = n := h.capacity
  have hput : ring.putPos < n := h.put_lt
  have hfilled := h.filled
  have hback := h.back
  simp only [stored, RingRun.back, List.append_nil] at hfilled hback
  have hroom : m.length < n := by omega
  refine { h with filled := ?_, back := ?_, room := fun _ => hlt }
  · have hpushed := hfilled.push data hroom
    rw [← hback] at hpushed
    exact hpushed
  · show ring.add ring.putPos = (front _ + (m ++ [data]).length) % n
    rw [RingBuffer.add_eq (by omega), hcap, hback, Nat.mod_add_mod, List.length_append,
      List.length_singleton, Nat.add_assoc]
    rfl

theorem Turn.addPut (h : Turn n s m) {data : α} (hp : s.producer = .moved data) :
    Turn n { s with ring := s.ring.addPut, producer := .advanced data } m := by
  obtain ⟨ring, producer, consumer, pushed, popped⟩ := s
  obtain rfl : producer = .moved data := hp
  exact { h with put_lt := h.add_lt _ h.put_lt, room := fun _ => h.room (by simp) }

theorem Turn.countUp (h : Turn n s m) {data : α} (hp : s.producer = .advanced data) :
    Turn n { s with ring := s.ring.countUp, producer := .idle, pushed := s.pushed ++ [data] }
      (m ++ [data]) := by
  obtain ⟨ring, producer, consumer, pushed, popped⟩ := s
  obtain rfl : producer = .advanced data := hp
  have hlt : ring.numDatas < n := h.room (by simp)
  have hcount : ring.numDatas = m.length + _ := h.count
  have hstory : pushed.map Option.some = _ := h.story
  refine { h with filled := ?_, back := ?_, count := ?_, story := ?_, count_le := hlt,
                  room := fun hne => absurd rfl hne, busy := fun _ => Nat.succ_pos _ }
  · show Filled n _ _ ((m ++ [data]) ++ [])
    rw [List.append_nil]
    exact h.filled
  · show _ = (_ + ((m ++ [data]) ++ []).length) % n
    rw [List.append_nil]
    exact h.back
  · show ring.numDatas + 1 = (m ++ [data]).length + _
    rw [hcount, List.length_append, List.length_singleton, Nat.add_right_comm]
    rfl
  · show (pushed ++ [data]).map Option.some = _
    rw [List.map_append, hstory, List.map_append, List.append_assoc]
    rfl

/-! ### The consumer -/

theorem Turn.pop (h : Turn n s m) (hc : s.consumer = .idle) (hsome : 0 < s.ring.numDatas) :
    Turn n { s with consumer := .tested } m := by
  obtain ⟨ring, producer, consumer, pushed, popped⟩ := s
  obtain rfl : consumer = .idle := hc
  exact { h with busy := fun _ => hsome }

/-- A tested consumer finds the oldest item. -/
theorem Turn.oldest (h : Turn n s m) (hc : s.consumer = .tested) :
    ∃ a m', m = a :: m' ∧ s.ring.buffer s.ring.getPos = Option.some a := by
  have hpos := h.busy (by rw [hc]; simp)
  have hcount := h.count
  have hout : s.out = [] := by simp [out, hc]
  have hfront : s.front = s.ring.getPos := by simp [front, hc]
  cases m with
  | nil =>
    rw [hcount, hout] at hpos
    exact absurd hpos (Nat.lt_irrefl 0)
  | cons a m' =>
    have hw := h.filled.window
    rw [hfront] at hw
    exact ⟨a, m', rfl, hw.head⟩

theorem Turn.moveOut (h : Turn n s m) (hc : s.consumer = .tested) :
    ∃ m', Turn n { s with
        ring := s.ring.moveOut, consumer := .moved (s.ring.buffer s.ring.getPos) } m' := by
  obtain ⟨a, m', rfl, hbuffer⟩ := h.oldest hc
  obtain ⟨ring, producer, consumer, pushed, popped⟩ := s
  obtain rfl : consumer = .tested := hc
  have hcap : ring.capacity = n := h.capacity
  have hget : ring.getPos < n := h.get_lt
  have hadd : ring.add ring.getPos = (ring.getPos + 1) % n := by
    rw [RingBuffer.add_eq (by omega), hcap]
  have hbuffer : ring.buffer ring.getPos = Option.some a := hbuffer
  rw [hbuffer]
  refine ⟨m', { h with filled := ?_, back := ?_, count := ?_, story := ?_,
                       busy := fun _ => h.busy (by simp) }⟩
  · show Filled n _ (ring.add ring.getPos) _
    rw [hadd]
    exact h.filled.pop
  · show _ = (ring.add ring.getPos + _) % n
    rw [hadd, Nat.mod_add_mod, Nat.add_right_comm]
    exact h.back
  · exact h.count
  · have hstory := h.story
    simp only [out, List.append_nil] at hstory
    simpa [out] using hstory

theorem Turn.addGet (h : Turn n s m) {data : Option α} (hc : s.consumer = .moved data) :
    Turn n { s with ring := s.ring.addGet, consumer := .advanced data } m := by
  obtain ⟨ring, producer, consumer, pushed, popped⟩ := s
  obtain rfl : consumer = .moved data := hc
  exact { h with get_lt := h.add_lt _ h.get_lt, busy := fun _ => h.busy (by simp) }

theorem Turn.countDown (h : Turn n s m) {data : Option α} (hc : s.consumer = .advanced data) :
    Turn n { s with ring := s.ring.countDown, consumer := .idle, popped := s.popped ++ [data] }
      m := by
  obtain ⟨ring, producer, consumer, pushed, popped⟩ := s
  obtain rfl : consumer = .advanced data := hc
  have hcount : ring.numDatas = m.length + 1 := h.count
  have hle : ring.numDatas ≤ n := h.count_le
  have hdown : ring.numDatas - 1 = m.length := by omega
  refine { h with count := hdown, story := ?_, count_le := ?_, room := ?_,
                  busy := fun hne => absurd rfl hne }
  · have hstory := h.story
    simp only [out] at hstory
    simpa [out] using hstory
  · show ring.numDatas - 1 ≤ n
    omega
  · intro hne
    have hlt : ring.numDatas < n := h.room hne
    show ring.numDatas - 1 < n
    omega

/-! ### Every step -/

/-- **One step** of either thread keeps the invariant. -/
theorem Turn.step (h : Turn n s m) {i : RingStep α} (hstep : s.step i = some s') :
    ∃ m', Turn n s' m' := by
  cases i with
  | push data =>
    simp only [RingRun.step] at hstep
    split at hstep
    · rename_i hp
      split at hstep
      · rename_i hroom
        obtain rfl := Option.some.inj hstep
        exact ⟨m, h.push hp hroom⟩
      · obtain rfl := Option.some.inj hstep
        exact ⟨m, h⟩
    · simp at hstep
  | moveIn =>
    simp only [RingRun.step] at hstep
    split at hstep
    · rename_i data hp
      obtain rfl := Option.some.inj hstep
      exact ⟨m, h.moveIn hp⟩
    · simp at hstep
  | addPut =>
    simp only [RingRun.step] at hstep
    split at hstep
    · rename_i data hp
      obtain rfl := Option.some.inj hstep
      exact ⟨m, h.addPut hp⟩
    · simp at hstep
  | countUp =>
    simp only [RingRun.step] at hstep
    split at hstep
    · rename_i data hp
      obtain rfl := Option.some.inj hstep
      exact ⟨m ++ [data], h.countUp hp⟩
    · simp at hstep
  | pop =>
    simp only [RingRun.step] at hstep
    split at hstep
    · rename_i hc
      split at hstep
      · rename_i hsome
        obtain rfl := Option.some.inj hstep
        exact ⟨m, h.pop hc hsome⟩
      · obtain rfl := Option.some.inj hstep
        exact ⟨m, h⟩
    · simp at hstep
  | moveOut =>
    simp only [RingRun.step] at hstep
    split at hstep
    · rename_i hc
      obtain rfl := Option.some.inj hstep
      exact h.moveOut hc
    · simp at hstep
  | addGet =>
    simp only [RingRun.step] at hstep
    split at hstep
    · rename_i data hc
      obtain rfl := Option.some.inj hstep
      exact ⟨m, h.addGet hc⟩
    · simp at hstep
  | countDown =>
    simp only [RingRun.step] at hstep
    split at hstep
    · rename_i data hc
      obtain rfl := Option.some.inj hstep
      exact ⟨m, h.countDown hc⟩
    · simp at hstep

/-- **What the invariant says** of a state. -/
theorem Turn.boundedQueue (h : Turn n s m) : BoundedQueue n s where
  capacity := h.capacity
  fifo := by
    rw [h.story, List.append_assoc]
    exact List.prefix_append _ _
  count_le := h.count_le
  count_pos data hc := h.busy (by rw [hc]; simp)
  put_lt := h.put_lt
  get_lt := h.get_lt
  write := by
    intro data hp
    have hlt := h.room (by rw [hp]; simp)
    have hcount := h.count
    have hfilled := h.filled
    have hback := h.back
    simp only [stored, RingRun.back, hp, List.append_nil] at hfilled hback
    rw [hback]
    exact hfilled.back (by omega)
  read := by
    intro hc
    obtain ⟨a, m', -, hbuffer⟩ := h.oldest hc
    rw [hbuffer]
    rfl
  quiet := by
    intro hp hc
    have hfilled := h.filled
    have hback := h.back
    have hcount := h.count
    have hstory := h.story
    simp only [stored, RingRun.back, front, out, hp, hc, List.append_nil, List.length_nil,
      Nat.add_zero] at hfilled hback hcount hstory
    have hlen := congrArg List.length hstory
    rw [List.length_append, List.length_map, List.length_map, ← hcount] at hlen
    -- What is left of the pushed items is what the ring holds.
    have hrest : s.pushed.drop s.popped.length = m := by
      have hdrop := congrArg (List.drop s.popped.length) hstory
      rw [List.drop_left, ← List.map_drop] at hdrop
      exact List.map_injective_iff.mpr (Option.some_injective α) hdrop
    rw [hcount, hrest]
    rw [hcount] at hlen
    exact ⟨hback, hlen, hfilled⟩

/-- **The ring is a bounded queue** under every interleaving of its two threads. `Push` and `Pop`
are taken apart where the other thread may come in between, above all before and after the counter
changes; there is no condition, because one producer and one consumer never write the same index. -/
theorem ring_is_queue (n : Nat) (hn : 1 ≤ n) (s : RingRun α)
    (h : Reach (system n) (anyStep _ _) s) : BoundedQueue n s := by
  obtain ⟨m, hm⟩ : ∃ m, Turn n s m := by
    refine h.inv (P := fun s => ∃ m, Turn n s m) ?_ ?_
    · rintro s rfl
      exact ⟨[], turn_start hn⟩
    · rintro s i s' ⟨m, hm⟩ _ hstep
      exact hm.step hstep
  exact hm.boundedQueue

/-- A ring of one slot: the second `Push` finds it full while the first item is being moved out. -/
theorem ring_is_queue_one : ∃ s : RingRun Nat, Reach (system 1) (anyStep _ _) s ∧
    BoundedQueue 1 s ∧ (s.pushed, s.popped) = ([7], [some 7]) := by
  have hstart : (system 1).start (start 1 : RingRun Nat) := rfl
  obtain ⟨s, hs, hg⟩ := reach_of_runFrom step (anyStep _ _) (start 1)
    [.push 7, .moveIn, .addPut, .countUp, .pop, .moveOut, .push 8, .addGet, .countDown, .pop]
    (fun s => (s.pushed, s.popped)) ([7], [some 7]) hstart (by decide)
  exact ⟨s, hs, ring_is_queue 1 (Nat.le_refl 1) s hs, hg⟩

end RingRun

end Maixii.Net
