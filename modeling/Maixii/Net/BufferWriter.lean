import Maixii.Lib.Bytes

/-!
# `Net/BufferWriter.lean`: the TCP send queue

`net/BufferWriter.cpp`. A queue of packets, each with the index of its first byte that the
socket has not taken yet. `Append` refuses an empty rest (`size <= index`) and a full queue;
`Send` offers the head's rest to `::send`, drops the head once all of it is taken and then goes
on with the next one, and stops at the first partial write, would-block or error.

The bytes handed to `Append` are `data` (its length is the source's `size`). A `Packet` carries
the proof that some byte of it is still to be written, which is what `size <= index` in `Append`
and `pkt.size == pkt.writeIndex` in `Send` keep true.
-/

set_option autoImplicit false

namespace Maixii.Net

/-- What one `::send` reports: a count (never more than it was offered), `EINTR`/`EAGAIN`, or
any other error. -/
inductive SendResult
  | accepted (n : Nat)
  | wouldBlock
  | error
  deriving DecidableEq, Repr

structure Packet where
  data : Bytes
  writeIndex : Nat
  pending : writeIndex < data.length
  deriving DecidableEq

/-- The bytes of a queued packet the socket has not taken. -/
def Packet.rest (p : Packet) : Bytes := p.data.drop p.writeIndex

structure BufferWriter where
  buffer : List Packet
  maxQueueLength : Int
  deriving DecidableEq

namespace BufferWriter

/-- `BufferWriter(int capacity)`. -/
def new (capacity : Int) : BufferWriter := ⟨[], capacity⟩

def isEmpty (w : BufferWriter) : Bool := w.buffer.isEmpty

def isFull (w : BufferWriter) : Bool := decide (w.maxQueueLength ≤ w.buffer.length)

/-- `Append(std::shared_ptr<char>, uint32_t size, uint32_t index)`. -/
def append (w : BufferWriter) (data : Bytes) (index : Nat) : Bool × BufferWriter :=
  if h : data.length ≤ index then (false, w)
  else if w.isFull then (false, w)
  else (true, { w with buffer := w.buffer ++ [⟨data, index, Nat.lt_of_not_le h⟩] })

/-- `Append(const char*, uint32_t size, uint32_t index)`: the same, over a private copy of the
bytes. The copy gets `size+512` bytes of memory; that this wraps in a `uint32_t` when the data is
within 512 bytes of 4 GB, and the copy is then written behind its memory, is left out. -/
def appendCopy (w : BufferWriter) (data : Bytes) (index : Nat) : Bool × BufferWriter :=
  w.append data index

/-- The `do ... while (count > 0)` of `Send`: the value returned, the queue left, and the bytes
the socket took. The results of the `::send` calls are given in order; when they run out the
socket takes nothing more. -/
def sendLoop : List Packet → List SendResult → Int × List Packet × Bytes
  | [], _ => (0, [], [])
  | p :: ps, [] => (0, p :: ps, [])
  | p :: ps, .wouldBlock :: _ => (0, p :: ps, [])
  | p :: ps, .error :: _ => (-1, p :: ps, [])
  | p :: ps, .accepted n :: rs =>
      if n = 0 then (0, p :: ps, [])
      else if h : p.writeIndex + n < p.data.length then
        (n, { p with writeIndex := p.writeIndex + n, pending := h } :: ps, p.rest.take n)
      else
        let (ret, qs, out) := sendLoop ps rs
        (ret, qs, p.rest ++ out)

/-- `Send(SOCKET, int timeout)` with the timeout 0 that every caller passes. -/
def send (w : BufferWriter) (rs : List SendResult) : Int × BufferWriter × Bytes :=
  let (ret, qs, out) := sendLoop w.buffer rs
  (ret, { w with buffer := qs }, out)

/-! ## What the two operations do, once -/

/-- All the bytes waiting in the queue, in the order they will be offered. -/
def pendingBytes (w : BufferWriter) : Bytes := w.buffer.flatMap Packet.rest

theorem append_cases (w : BufferWriter) (data : Bytes) (index : Nat) :
    (w.append data index = (false, w) ∧ (data.length ≤ index ∨ w.isFull = true)) ∨
    (∃ h : index < data.length, w.isFull = false ∧
      w.append data index = (true, { w with buffer := w.buffer ++ [⟨data, index, h⟩] })) := by
  unfold append
  by_cases h : data.length ≤ index
  · exact Or.inl ⟨by rw [dif_pos h], Or.inl h⟩
  · rw [dif_neg h]
    cases hf : w.isFull with
    | true => exact Or.inl ⟨by simp, Or.inr rfl⟩
    | false => exact Or.inr ⟨Nat.lt_of_not_le h, rfl, by simp⟩

/-- **What `Send` does**: it takes whole packets off the front, then possibly a part of the next
one, and what the socket took is exactly what is no longer waiting. -/
theorem sendLoop_spec : ∀ (ps : List Packet) (rs : List SendResult),
    ∃ (done : List Packet) (tail : List Packet) (part : Bytes),
      ps = done ++ tail ∧
      (sendLoop ps rs).2.2 = done.flatMap Packet.rest ++ part ∧
      ((sendLoop ps rs).2.1 = tail ∧ part = [] ∨
        ∃ (p p' : Packet) (tl : List Packet), tail = p :: tl ∧ (sendLoop ps rs).2.1 = p' :: tl ∧
          p'.data = p.data ∧ p.writeIndex ≤ p'.writeIndex ∧ p.rest = part ++ p'.rest) := by
  intro ps
  induction ps with
  | nil => intro rs; exact ⟨[], [], [], by simp [sendLoop]⟩
  | cons p ps ih =>
    intro rs
    rcases rs with _ | ⟨r, rs⟩
    · exact ⟨[], p :: ps, [], by simp [sendLoop]⟩
    · cases r with
      | wouldBlock => exact ⟨[], p :: ps, [], by simp [sendLoop]⟩
      | error => exact ⟨[], p :: ps, [], by simp [sendLoop]⟩
      | accepted n =>
        by_cases h0 : n = 0
        · exact ⟨[], p :: ps, [], by simp [sendLoop, h0]⟩
        · by_cases hlt : p.writeIndex + n < p.data.length
          · refine ⟨[], p :: ps, p.rest.take n, rfl, by simp [sendLoop, h0, hlt], Or.inr ?_⟩
            refine ⟨p, { p with writeIndex := p.writeIndex + n, pending := hlt }, ps, rfl,
              by simp [sendLoop, h0, hlt], rfl, Nat.le_add_right _ _, ?_⟩
            have hdrop : p.data.drop (p.writeIndex + n) = p.rest.drop n := by
              rw [Packet.rest, List.drop_drop]
            show p.rest = p.rest.take n ++ p.data.drop (p.writeIndex + n)
            rw [hdrop, List.take_append_drop]
          · obtain ⟨done, tail, part, h1, h2, h3⟩ := ih rs
            refine ⟨p :: done, tail, part, by rw [h1, List.cons_append], ?_, ?_⟩
            · simp [sendLoop, h0, hlt, h2]
            · simpa [sendLoop, h0, hlt] using h3

/-- What was offered is what was taken and what is left. -/
theorem sendLoop_balance (ps : List Packet) (rs : List SendResult) :
    (sendLoop ps rs).2.2 ++ (sendLoop ps rs).2.1.flatMap Packet.rest =
      ps.flatMap Packet.rest := by
  obtain ⟨done, tail, part, hq, hout, hcase⟩ := sendLoop_spec ps rs
  have hleft : part ++ (sendLoop ps rs).2.1.flatMap Packet.rest = tail.flatMap Packet.rest := by
    rcases hcase with ⟨ht, hp⟩ | ⟨p, p', tl, ht, hb, -, -, hrest⟩
    · rw [ht, hp, List.nil_append]
    · rw [hb, ht, List.flatMap_cons, List.flatMap_cons, hrest, List.append_assoc]
  rw [hout, List.append_assoc, hleft]
  conv_rhs => rw [hq, List.flatMap_append]

theorem send_balance (w : BufferWriter) (rs : List SendResult) :
    (w.send rs).2.2 ++ (w.send rs).2.1.pendingBytes = w.pendingBytes :=
  sendLoop_balance w.buffer rs

/-- What `Append` accepts waits at the end. -/
theorem pendingBytes_append (w : BufferWriter) (data : Bytes) :
    (w.append data 0).2.pendingBytes =
      w.pendingBytes ++ if (w.append data 0).1 then data else [] := by
  rcases w.append_cases data 0 with ⟨he, -⟩ | ⟨hlt, -, he⟩
  · simp [he]
  · simp [he, pendingBytes, Packet.rest]

/-- `Send` never makes the queue longer. -/
theorem sendLoop_length (ps : List Packet) (rs : List SendResult) :
    (sendLoop ps rs).2.1.length ≤ ps.length := by
  obtain ⟨done, tail, part, h1, -, h3⟩ := sendLoop_spec ps rs
  rcases h3 with ⟨ht, -⟩ | ⟨p, p', tl, ht, hq, -⟩
  · rw [ht, h1, List.length_append]
    omega
  · rw [hq, h1, ht, List.length_append, List.length_cons, List.length_cons]
    omega

end BufferWriter

end Maixii.Net
