import Maixii.Lib.Bytes

/-!
# `Net/BufferReader.lean`: the receive buffer

`net/BufferReader.{h,cpp}`: a growing vector with a reader and a writer index. What lies between
the two is what a parser sees (`readable`), and every operation is described by what it does to
that: `Read` appends what `recv` returned, `Retrieve` drops from the front. The indices only
matter for one thing, `Read`'s refusal to grow past `MAX_BUFFER_SIZE`.

That the reader index never passes the writer index is carried by the structure.
-/

set_option autoImplicit false

namespace Maixii.Net

open Maixii.Lib

def maxBytesPerRead : Nat := 4096

def maxBufferSize : Nat := 1024 * 100000

/-- What one `recv` of at most `MAX_BYTES_PER_READ` bytes returned. -/
structure Chunk where
  bytes : Bytes
  nonempty : bytes ≠ []
  length_le : bytes.length ≤ maxBytesPerRead

structure BufferReader where
  buffer : Bytes
  readerIndex : Nat
  writerIndex : Nat
  reader_le : readerIndex ≤ writerIndex
  writer_le : writerIndex ≤ buffer.length

namespace BufferReader

/-- `BufferReader(uint32_t initial_size = 2048)`. -/
def new : BufferReader := ⟨List.replicate 2048 0, 0, 0, Nat.le_refl _, Nat.zero_le _⟩

def readableBytes (r : BufferReader) : Nat := r.writerIndex - r.readerIndex

def writableBytes (r : BufferReader) : Nat := r.buffer.length - r.writerIndex

/-- `[Peek(), BeginWrite())`. -/
def readable (r : BufferReader) : Bytes := (r.buffer.take r.writerIndex).drop r.readerIndex

/-- `FindFirstCrlf() - Peek()`. -/
def findFirstCrlf (r : BufferReader) : Option Nat := findFirst crlf r.readable

/-- `FindLastCrlf() - Peek()`. -/
def findLastCrlf (r : BufferReader) : Option Nat := findLast crlf r.readable

def retrieveAll (r : BufferReader) : BufferReader :=
  { r with readerIndex := 0, writerIndex := 0, reader_le := Nat.le_refl _,
           writer_le := Nat.zero_le _ }

/-- `Retrieve(len)`; `RetrieveUntil(end)` is `Retrieve(end - Peek())`. -/
def retrieve (r : BufferReader) (len : Nat) : BufferReader :=
  if h : len ≤ r.readableBytes then
    if r.readerIndex + len = r.writerIndex then r.retrieveAll
    else
      { r with
        readerIndex := r.readerIndex + len
        reader_le := by have := r.reader_le; unfold readableBytes at h; omega }
  else r.retrieveAll

/-- The check in `Read` that keeps the buffer from growing for ever. -/
def canRead (r : BufferReader) : Bool :=
  decide (maxBytesPerRead ≤ r.writableBytes ∨ r.buffer.length ≤ maxBufferSize)

/-- The buffer `Read` hands to `recv`. -/
def grown (r : BufferReader) : Bytes :=
  if r.writableBytes < maxBytesPerRead then r.buffer ++ List.replicate maxBytesPerRead 0
  else r.buffer

theorem room (r : BufferReader) : r.writerIndex + maxBytesPerRead ≤ r.grown.length := by
  have := r.writer_le
  unfold grown writableBytes
  split
  · rw [List.length_append, List.length_replicate]
    omega
  · omega

/-- `Read(sockfd)` when `recv` returns data; `none` is its return value 0 for a full buffer. -/
def read (r : BufferReader) (c : Chunk) : Option BufferReader :=
  if r.canRead then
    some
      { buffer := r.grown.take r.writerIndex ++ c.bytes ++
          r.grown.drop (r.writerIndex + c.bytes.length)
        readerIndex := r.readerIndex
        writerIndex := r.writerIndex + c.bytes.length
        reader_le := Nat.le_trans r.reader_le (Nat.le_add_right _ _)
        writer_le := by
          have := r.room
          have := c.length_le
          simp only [List.length_append, List.length_take, List.length_drop]
          omega }
  else none

/-! ## What the operations do to the readable bytes -/

theorem length_readable (r : BufferReader) : r.readable.length = r.readableBytes := by
  have := r.writer_le
  simp only [readable, readableBytes, List.length_drop, List.length_take]
  omega

@[simp] theorem readable_new : new.readable = [] := by
  simp only [new, readable, List.take_zero, List.drop_nil]

@[simp] theorem readable_retrieveAll (r : BufferReader) : r.retrieveAll.readable = [] := by
  simp [retrieveAll, readable]

/-- **`Retrieve` drops from the front**, and asking for more than there is drops everything. -/
@[simp] theorem readable_retrieve (r : BufferReader) (len : Nat) :
    (r.retrieve len).readable = r.readable.drop len := by
  have hlen := r.length_readable
  unfold retrieve
  split
  · rename_i h
    split
    · rename_i he
      rw [readable_retrieveAll]
      refine (List.drop_eq_nil_of_le ?_).symm
      rw [hlen]
      unfold readableBytes
      omega
    · simp only [readable, List.drop_drop]
  · rw [readable_retrieveAll]
    refine (List.drop_eq_nil_of_le ?_).symm
    omega

theorem grown_take (r : BufferReader) :
    r.grown.take r.writerIndex = r.buffer.take r.writerIndex := by
  unfold grown
  split
  · exact List.take_append_of_le_length r.writer_le
  · rfl

/-- **`Read` appends what `recv` returned.** -/
theorem readable_read {r r' : BufferReader} {c : Chunk} (h : r.read c = some r') :
    r'.readable = r.readable ++ c.bytes := by
  have hw := r.writer_le
  have hr := r.reader_le
  unfold read at h
  split at h
  · simp only [Option.some.injEq] at h
    subst h
    have hl : (r.buffer.take r.writerIndex).length = r.writerIndex := by
      rw [List.length_take]
      omega
    simp only [readable, grown_take]
    rw [List.take_append_of_le_length (by rw [List.length_append, hl]),
      List.take_of_length_le (by rw [List.length_append, hl]),
      List.drop_append_of_le_length (by omega)]
  · simp at h

theorem read_isSome {r : BufferReader} (c : Chunk) (h : r.canRead = true) :
    ∃ r', r.read c = some r' := by
  simp [read, h]

/-- A buffer that `Retrieve` empties starts over. -/
theorem writerIndex_retrieve {r : BufferReader} {len : Nat} (h : (r.retrieve len).readable = []) :
    (r.retrieve len).writerIndex = 0 := by
  have hlen := (r.retrieve len).length_readable
  rw [h, List.length_nil] at hlen
  by_cases h₁ : len ≤ r.readableBytes
  · by_cases h₂ : r.readerIndex + len = r.writerIndex
    · simp only [retrieve, dif_pos h₁, if_pos h₂]
      rfl
    · simp only [retrieve, dif_pos h₁, if_neg h₂] at hlen
      change 0 = r.writerIndex - (r.readerIndex + len) at hlen
      have := r.reader_le
      unfold readableBytes at h₁
      omega
  · simp only [retrieve, dif_neg h₁]
    rfl

/-- A buffer that has started over is not full. -/
theorem canRead_of_empty {r : BufferReader} (h : r.writerIndex = 0) : r.canRead = true := by
  simp only [canRead, writableBytes, h, Nat.sub_zero, maxBytesPerRead, maxBufferSize,
    decide_eq_true_eq]
  omega

theorem readable_of_empty {r : BufferReader} (h : r.writerIndex = 0) : r.readable = [] := by
  simp [readable, h]

end BufferReader

end Maixii.Net
