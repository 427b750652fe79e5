import Maixii.Lib.Run
import Maixii.Net.BufferReader

/-!
# `Net/ReadQueue.lean`: the receive buffer is a byte queue

`BufferReader.lean` says what each operation does to the readable bytes. Here are the rest of the
operations (`Read` when `recv` fails, `ReadAll`, `ReadUntilCrlf`), and runs of all of them: beside
the buffer stands the queue it is meant to be, what has come in since the last `RetrieveAll` and
what has been taken from the front, and **the two agree in every state** (`byte_queue`).
-/

set_option autoImplicit false

namespace Maixii.Net

open Maixii.Lib

/-- What `recv` returned: bytes, 0 for a peer that has closed, or −1. -/
inductive Recv
  | data (c : Chunk)
  | closed
  | error

namespace BufferReader

/-- `BufferReader(uint32_t initial_size)`. -/
def ofSize (initialSize : UInt32) : BufferReader :=
  ⟨List.replicate initialSize.toNat 0, 0, 0, new.reader_le, Nat.zero_le _⟩

/-- `buffer_.resize` in `Read`. -/
def resized (r : BufferReader) : BufferReader :=
  { r with
    buffer := r.grown
    writer_le := Nat.le_trans (Nat.le_add_right _ _) r.room }

/-- `Read(sockfd)`, with its return value, whatever `recv` returns. -/
def readFrom (r : BufferReader) : Recv → Int × BufferReader
  | .data c =>
      match r.read c with
      | some r' => (c.bytes.length, r')
      | none => (0, r)
  | .closed => if r.canRead then (0, r.resized) else (0, r)
  | .error => if r.canRead then (-1, r.resized) else (0, r)

/-- What `Read` has got, by the value it returned. -/
def got (r : BufferReader) : Recv → Bytes
  | .data c => if 0 < (r.readFrom (.data c)).1 then c.bytes else []
  | _ => []

/-- `ReadAll(data)`: its value, `data` if it is assigned, and the buffer after it. -/
def readAll (r : BufferReader) : Nat × Option Bytes × BufferReader :=
  if 0 < r.readableBytes then (r.readableBytes, some r.readable, r.retrieveAll)
  else (r.readableBytes, none, r)

/-- `ReadUntilCrlf(data)`. -/
def readUntilCrlf (r : BufferReader) : Nat × Option Bytes × BufferReader :=
  match r.findLastCrlf with
  | none => (0, none, r)
  | some crlf =>
      let size := crlf + 2
      (size, some (r.readable.take size), r.retrieve size)

/-! ## What the operations do to the queue -/

@[simp] theorem readable_ofSize (n : UInt32) : (ofSize n).readable = [] := by
  simp [ofSize, readable]

@[simp] theorem readable_resized (r : BufferReader) : r.resized.readable = r.readable := by
  show (r.grown.take r.writerIndex).drop r.readerIndex = _
  rw [grown_take]
  rfl

/-- **`Read` appends what it has got**, whatever `recv` returns. -/
theorem readable_readFrom (r : BufferReader) (c : Recv) :
    (r.readFrom c).2.readable = r.readable ++ r.got c := by
  cases c with
  | data c =>
    cases h : r.read c with
    | none => simp [readFrom, got, h]
    | some r' =>
      have hpos : 0 < c.bytes.length := List.length_pos_of_ne_nil c.nonempty
      simp [readFrom, got, h, readable_read h, hpos]
  | closed =>
    simp only [readFrom, got, List.append_nil]
    split
    · exact r.readable_resized
    · rfl
  | error =>
    simp only [readFrom, got, List.append_nil]
    split
    · exact r.readable_resized
    · rfl

/-- **`ReadAll` hands out everything.** -/
theorem readable_readAll (r : BufferReader) :
    r.readAll.2.1.getD [] ++ r.readAll.2.2.readable = r.readable := by
  unfold readAll
  split
  · simp
  · simp

/-- **`ReadUntilCrlf` hands out the front.** -/
theorem readable_readUntilCrlf (r : BufferReader) :
    r.readUntilCrlf.2.1.getD [] ++ r.readUntilCrlf.2.2.readable = r.readable := by
  unfold readUntilCrlf
  split
  · simp
  · simp

end BufferReader

/-! ## Runs -/

/-- A call of one of the operations that move the indices. -/
inductive ReadCall
  | read (c : Recv)
  | retrieve (len : Nat)
  /-- By the offset of `end` from `Peek()`. -/
  | retrieveUntil (stop : Nat)
  | retrieveAll
  | readAll
  | readUntilCrlf

/-- The buffer, and the queue beside it: what has come in since the last `RetrieveAll`, and what
has been taken. -/
structure ReadRun where
  reader : BufferReader
  received : Bytes
  taken : Bytes

namespace ReadRun

def start (initialSize : UInt32) : ReadRun := ⟨.ofSize initialSize, [], []⟩

/-- One call. Lengths go up to the readable bytes, and pointers are inside them. -/
def step (s : ReadRun) : ReadCall → Option ReadRun
  | .read c =>
      some { s with
        reader := (s.reader.readFrom c).2
        received := s.received ++ s.reader.got c }
  | .retrieve len =>
      if len ≤ s.reader.readableBytes then
        some { s with
          reader := s.reader.retrieve len
          taken := s.taken ++ s.reader.readable.take len }
      else none
  | .retrieveUntil stop =>
      if stop ≤ s.reader.readableBytes then
        some { s with
          reader := s.reader.retrieve stop
          taken := s.taken ++ s.reader.readable.take stop }
      else none
  | .retrieveAll => some ⟨s.reader.retrieveAll, [], []⟩
  | .readAll =>
      some { s with
        reader := s.reader.readAll.2.2
        taken := s.taken ++ s.reader.readAll.2.1.getD [] }
  | .readUntilCrlf =>
      some { s with
        reader := s.reader.readUntilCrlf.2.2
        taken := s.taken ++ s.reader.readUntilCrlf.2.1.getD [] }

def system : System ReadRun ReadCall := System.ofStep (fun s => ∃ n, s = start n) step

/-! ## The property -/

/-- CR LF stands at `n`. -/
def PairAt (s : Bytes) (n : Nat) : Prop := s[n]? = some 13 ∧ s[n + 1]? = some 10

/-- The first CR LF pair, or `none` if there is none. -/
def FirstPair (s : Bytes) : Option Nat → Prop
  | some n => PairAt s n ∧ ∀ m, PairAt s m → n ≤ m
  | none => ∀ m, ¬ PairAt s m

/-- The last CR LF pair, or `none` if there is none. -/
def LastPair (s : Bytes) : Option Nat → Prop
  | some n => PairAt s n ∧ ∀ m, PairAt s m → m ≤ n
  | none => ∀ m, ¬ PairAt s m

/-- What is promised of every state. -/
structure ByteQueue (s : ReadRun) : Prop where
  reader_le : s.reader.readerIndex ≤ s.reader.writerIndex
  writer_le : s.reader.writerIndex ≤ s.reader.buffer.length
  /-- Whenever `Read` calls `recv`, a full read fits behind the writer index. -/
  room : s.reader.canRead = true →
    s.reader.writerIndex + maxBytesPerRead ≤ s.reader.resized.buffer.length
  /-- What was taken and what is readable is what has come in. -/
  queue : s.taken ++ s.reader.readable = s.received
  first : FirstPair s.reader.readable s.reader.findFirstCrlf
  last : LastPair s.reader.readable s.reader.findLastCrlf

/-! ## The pairs -/

theorem pairAt_iff {s : Bytes} {n : Nat} : PairAt s n ↔ n ≤ s.length ∧ crlf <+: s.drop n := by
  have hget : ∀ i, (s.drop n)[i]? = s[n + i]? := fun i => List.getElem?_drop
  have h0 := hget 0
  have h1 := hget 1
  rw [Nat.add_zero] at h0
  constructor
  · rintro ⟨h13, h10⟩
    refine ⟨Nat.le_of_lt (List.getElem?_eq_some_iff.mp h13).1, ?_⟩
    rw [h13] at h0
    rw [h10] at h1
    cases hd : s.drop n with
    | nil =>
      rw [hd] at h0
      simp at h0
    | cons a t =>
      cases t with
      | nil =>
        rw [hd] at h1
        simp at h1
      | cons b t =>
        rw [hd] at h0 h1
        simp only [List.getElem?_cons_zero, List.getElem?_cons_succ, Option.some.injEq] at h0 h1
        rw [h0, h1]
        exact ⟨t, rfl⟩
  · rintro ⟨-, t, ht⟩
    rw [← ht] at h0 h1
    exact ⟨h0.symm, h1.symm⟩

theorem firstPair_findFirst (s : Bytes) : FirstPair s (findFirst crlf s) := by
  cases h : findFirst crlf s with
  | none =>
    intro m hm
    obtain ⟨hle, hp⟩ := pairAt_iff.mp hm
    exact findFirst_none_iff.mp h m hle hp
  | some n =>
    obtain ⟨hp, hle⟩ := findFirst_spec h
    refine ⟨pairAt_iff.mpr ⟨hle, hp⟩, ?_⟩
    intro m hm
    by_contra hlt
    exact findFirst_lt h (Nat.lt_of_not_le hlt) (pairAt_iff.mp hm).2

theorem lastPair_findLast (s : Bytes) : LastPair s (findLast crlf s) := by
  cases h : findLast crlf s with
  | none =>
    intro m hm
    obtain ⟨hle, hp⟩ := pairAt_iff.mp hm
    exact findLast_none_iff.mp h m hle hp
  | some n =>
    obtain ⟨hp, hle⟩ := findLast_spec h
    refine ⟨pairAt_iff.mpr ⟨hle, hp⟩, ?_⟩
    intro m hm
    obtain ⟨hm, hp⟩ := pairAt_iff.mp hm
    by_contra hlt
    exact findLast_gt h (Nat.lt_of_not_le hlt) hm hp

/-! ## The queue -/

variable {s s' : ReadRun} {c : ReadCall}

/-- **One call** keeps the queue. -/
theorem queue_step (h : s.taken ++ s.reader.readable = s.received) (hstep : s.step c = some s') :
    s'.taken ++ s'.reader.readable = s'.received := by
  have htaken : ∀ len, (s.taken ++ s.reader.readable.take len) ++ (s.reader.retrieve len).readable =
      s.received := by
    intro len
    rw [BufferReader.readable_retrieve, List.append_assoc, List.take_append_drop, h]
  cases c with
  | read c =>
    obtain rfl := Option.some.inj hstep
    show s.taken ++ (s.reader.readFrom c).2.readable = s.received ++ s.reader.got c
    rw [BufferReader.readable_readFrom, ← List.append_assoc, h]
  | retrieve len =>
    obtain ⟨-, heq⟩ := Option.ite_none_right_eq_some.mp hstep
    obtain rfl := Option.some.inj heq
    exact htaken len
  | retrieveUntil stop =>
    obtain ⟨-, heq⟩ := Option.ite_none_right_eq_some.mp hstep
    obtain rfl := Option.some.inj heq
    exact htaken stop
  | retrieveAll =>
    obtain rfl := Option.some.inj hstep
    exact BufferReader.readable_retrieveAll s.reader
  | readAll =>
    obtain rfl := Option.some.inj hstep
    show (s.taken ++ s.reader.readAll.2.1.getD []) ++ s.reader.readAll.2.2.readable = s.received
    rw [List.append_assoc, BufferReader.readable_readAll, h]
  | readUntilCrlf =>
    obtain rfl := Option.some.inj hstep
    show (s.taken ++ s.reader.readUntilCrlf.2.1.getD []) ++ s.reader.readUntilCrlf.2.2.readable =
      s.received
    rw [List.append_assoc, BufferReader.readable_readUntilCrlf, h]

/-- **The receive buffer is a byte queue**, in every state of every run, whatever its first size.
The queue beside it is what has come in and what was taken since the buffer was last emptied as a
whole, and the readable bytes are the difference. That a read of full length fits behind the writer
index holds before every `recv`, which is where the code relies on it. -/
theorem byte_queue (s : ReadRun) (h : Reach system (anyStep _ _) s) : ByteQueue s where
  reader_le := s.reader.reader_le
  writer_le := s.reader.writer_le
  room _ := s.reader.room
  queue := by
    refine h.inv (P := fun s => s.taken ++ s.reader.readable = s.received) ?_ ?_
    · rintro s ⟨n, rfl⟩
      exact BufferReader.readable_ofSize n
    · intro s c s' hs _ hstep
      exact queue_step hs hstep
  first := firstPair_findFirst _
  last := lastPair_findLast _

/-- Five bytes come in and three of them are taken. -/
theorem byte_queue_five : ∃ s, Reach system (anyStep _ _) s ∧ ByteQueue s ∧
    (s.received, s.taken) = ([65, 13, 10, 66, 67], [65, 13, 10]) := by
  have hstart : system.start (start 0) := ⟨0, rfl⟩
  obtain ⟨s, hs, hg⟩ := reach_of_runFrom step (anyStep _ _) (start 0)
    [.read (.data ⟨[65, 13, 10, 66, 67], by decide, by decide⟩), .readUntilCrlf, .read .error]
    (fun s => (s.received, s.taken)) ([65, 13, 10, 66, 67], [65, 13, 10]) hstart
    (by decide +kernel)
  exact ⟨s, hs, byte_queue s hs, hg⟩

end ReadRun

end Maixii.Net
