import Maixii.Lib.Runs
import Maixii.Mp4.MovPacket

/-!
# `Mp4/Chunks.lean`: what the tables are to say

The tables in terms of the packets alone: a chunk is a maximal run of packets of one stream, and it
lies where the data of the packets before it ends. Every notion comes with what one packet more
makes of it.
-/

set_option autoImplicit false

namespace Maixii.Mp4

open Maixii.Lib

section

variable (s : AVFormatContext) (st : StreamType) (pkts : List AVPacket)

/-- The chunks. -/
def chunkPackets : List (List AVPacket) := runs AVPacket.streamIndex pkts

/-- Is the chunk of this stream? -/
def ofStream (chunk : List AVPacket) : Bool := chunk.head?.any fun p => p.streamIndex == st

/-- The data of some packets in `mdat`. -/
def sampleData : Bytes := pkts.flatMap (written s)

/-- The chunks with their offsets, the first of them at `pos`. -/
def placed (pos : Nat) : List (List AVPacket) → List (Nat × List AVPacket)
  | [] => []
  | chunk :: chunks => (pos, chunk) :: placed (pos + (sampleData s chunk).length) chunks

/-- The offsets in the file of the chunks of a stream. -/
def chunkOffsets : List Nat :=
  ((placed s mdatStartPos (chunkPackets pkts)).filter fun c => ofStream st c.2).map Prod.fst

/-- The samples of a packet: one, but PCM has one in every frame of its data. -/
def sampleCount (p : AVPacket) : Nat :=
  let enc := s.codec p.streamIndex
  if enc.codecId = .pcm then packetSize s p / (enc.channels * (enc.bitsPerSample / 8)) else 1

/-- The samples of some packets. -/
def sampleCounts : Nat := (pkts.map (sampleCount s)).sum

/-- The samples in each of these chunks that is of the stream. -/
def chunkCounts (chunks : List (List AVPacket)) : List Nat :=
  (chunks.filter (ofStream st)).map (sampleCounts s)

/-- The samples in the last chunk. -/
def openCount : Nat := sampleCounts s ((chunkPackets pkts).getLast?.getD [])

/-- The packets of a stream. -/
def packetsOf : List AVPacket := pkts.filter fun p => p.streamIndex = st

/-- Their sizes. -/
def sampleSizes : List Nat := (packetsOf st pkts).map (packetSize s)

/-- The durations of the frames. -/
def durations : List UInt32 := (packetsOf .video pkts).map AVPacket.duration

/-- Is the frame with this index a key frame? The type is in the fifth byte, H.265 is told by a flag,
and of JPEGs every 25th counts. -/
def KeyFrame (p : AVPacket) (index : Nat) : Bool :=
  let fifth : Option UInt8 := (p.data0 ++ p.data1)[4]?
  match (s.codec .video).codecId with
  | .h264 => fifth.any fun b : UInt8 => b &&& 0x1f == 5
  | .h265 => p.key
  | .mpeg4 => fifth.any fun b : UInt8 => b >>> 6 == 0
  | .mjpeg => index % 25 == 0
  | _ => false

/-- The numbers of the key frames, counted from one. -/
def keyNumbers : List Nat :=
  ((packetsOf .video pkts).zipIdx.filter fun p => KeyFrame s p.1 p.2).map fun p => p.2 + 1

/-- `p` is of another stream than the packet before it. -/
def BeginsChunk (p : AVPacket) : Prop := ∀ x ∈ pkts.getLast?, x.streamIndex ≠ p.streamIndex

end

variable {s : AVFormatContext} {st : StreamType} {pkts : List AVPacket} {p : AVPacket}

/-! ## One packet more -/

theorem chunkPackets_new (h : BeginsChunk pkts p) :
    chunkPackets (pkts ++ [p]) = chunkPackets pkts ++ [[p]] := runs_snoc_new h

/-- A list with a packet has a last chunk. -/
theorem chunkPackets_last (h : pkts ≠ []) : ∃ R r, chunkPackets pkts = R ++ [r] ∧ r ≠ [] ∧
    ∀ x ∈ pkts.getLast?, ∀ y ∈ r, x.streamIndex = y.streamIndex := by
  have hne : chunkPackets pkts ≠ [] := fun hnil => h (runs_eq_nil.mp hnil)
  obtain ⟨R, r, hR⟩ : ∃ R r, chunkPackets pkts = R ++ [r] :=
    ⟨_, _, (List.dropLast_append_getLast hne).symm⟩
  have hmem : r ∈ runs AVPacket.streamIndex pkts := by
    rw [show runs AVPacket.streamIndex pkts = R ++ [r] from hR]
    exact List.mem_append_right _ (List.mem_singleton_self r)
  refine ⟨R, r, hR, ne_nil_of_mem_runs hmem, ?_⟩
  intro x hx y hy
  rw [getLast_of_runs hR] at hx
  exact eq_of_mem_run hmem (List.mem_of_getLast? hx) hy

/-- A packet that begins no chunk is put into the last one. -/
theorem chunkPackets_same (h : ¬ BeginsChunk pkts p) : ∃ R r, chunkPackets pkts = R ++ [r] ∧
    r ≠ [] ∧ (∀ y ∈ r, y.streamIndex = p.streamIndex) ∧
    chunkPackets (pkts ++ [p]) = R ++ [r ++ [p]] := by
  have hne : pkts ≠ [] := by
    intro hnil
    subst hnil
    exact h fun x hx => by simp at hx
  obtain ⟨R, r, hR, hr, hall⟩ := chunkPackets_last hne
  obtain ⟨x, hx, heq⟩ : ∃ x ∈ pkts.getLast?, x.streamIndex = p.streamIndex := by
    unfold BeginsChunk at h
    push Not at h
    exact h
  have hsame : ∀ y ∈ r, y.streamIndex = p.streamIndex := fun y hy => (hall x hx y hy).symm.trans heq
  refine ⟨R, r, hR, hr, hsame, runs_snoc_same hR ?_⟩
  intro y hy
  exact hsame y (List.mem_of_getLast? hy)

theorem placed_append (pos : Nat) (R Q : List (List AVPacket)) :
    placed s pos (R ++ Q) =
      placed s pos R ++ placed s (pos + (sampleData s R.flatten).length) Q := by
  induction R generalizing pos with
  | nil => simp [placed, sampleData]
  | cons r R ih =>
    rw [List.cons_append, placed, placed, ih]
    simp [sampleData, Nat.add_assoc]

theorem ofStream_eq {chunk : List AVPacket} (hne : chunk ≠ [])
    (h : ∀ y ∈ chunk, y.streamIndex = p.streamIndex) :
    ofStream st chunk = (p.streamIndex == st) := by
  cases chunk with
  | nil => exact absurd rfl hne
  | cons y ys => exact congrArg (· == st) (h y List.mem_cons_self)

/-- **A new chunk lies behind all data.** -/
theorem chunkOffsets_new (h : BeginsChunk pkts p) :
    chunkOffsets s st (pkts ++ [p]) = chunkOffsets s st pkts ++
      if p.streamIndex = st then [mdatStartPos + (sampleData s pkts).length] else [] := by
  have hflat : (chunkPackets pkts).flatten = pkts := flatten_runs _ _
  have hof : ofStream st [p] = (p.streamIndex == st) := rfl
  rw [chunkOffsets, chunkPackets_new h, placed_append, hflat, List.filter_append, List.map_append]
  refine congrArg (chunkOffsets s st pkts ++ ·) ?_
  by_cases hst : p.streamIndex = st
  · simp [placed, hof, hst]
  · simp [placed, hof, hst]

theorem chunkOffsets_same (h : ¬ BeginsChunk pkts p) :
    chunkOffsets s st (pkts ++ [p]) = chunkOffsets s st pkts := by
  obtain ⟨R, r, hR, hr, hsame, hsnoc⟩ := chunkPackets_same h
  have hof : ofStream st (r ++ [p]) = ofStream st r := by
    cases r with
    | nil => exact absurd rfl hr
    | cons y ys => rfl
  rw [chunkOffsets, chunkOffsets, hsnoc, hR, placed_append, placed_append]
  simp only [List.filter_append, List.map_append, placed, List.filter_cons, List.filter_nil, hof]
  split <;> rfl

/-- The chunks that are over when another begins are all there were. -/
theorem closed_new (h : BeginsChunk pkts p) :
    (chunkPackets (pkts ++ [p])).dropLast = chunkPackets pkts := by
  rw [chunkPackets_new h, List.dropLast_concat]

theorem closed_same (h : ¬ BeginsChunk pkts p) :
    (chunkPackets (pkts ++ [p])).dropLast = (chunkPackets pkts).dropLast := by
  obtain ⟨R, r, hR, -, -, hsnoc⟩ := chunkPackets_same h
  rw [hsnoc, hR, List.dropLast_concat, List.dropLast_concat]

/-- **All chunks are those that are over and the last.** -/
theorem chunkCounts_last {x : AVPacket} (hx : x ∈ pkts.getLast?) :
    chunkCounts s st (chunkPackets pkts) = chunkCounts s st (chunkPackets pkts).dropLast ++
      if x.streamIndex = st then [openCount s pkts] else [] := by
  have hne : pkts ≠ [] := by
    intro hnil
    subst hnil
    simp at hx
  obtain ⟨R, r, hR, hr, hall⟩ := chunkPackets_last hne
  have hof : ofStream st r = (x.streamIndex == st) :=
    ofStream_eq hr fun y hy => (hall x hx y hy).symm
  have hopen : openCount s pkts = sampleCounts s r := by
    rw [openCount, hR, List.getLast?_concat, Option.getD_some]
  rw [hopen, hR, List.dropLast_concat, chunkCounts, chunkCounts, List.filter_append,
    List.map_append]
  by_cases hst : x.streamIndex = st
  · simp [hof, hst]
  · simp [hof, hst]

theorem sampleCounts_snoc (ps : List AVPacket) (p : AVPacket) :
    sampleCounts s (ps ++ [p]) = sampleCounts s ps + sampleCount s p := by
  rw [sampleCounts, List.map_append, List.sum_append]
  rfl

theorem openCount_new (h : BeginsChunk pkts p) : openCount s (pkts ++ [p]) = sampleCount s p := by
  rw [openCount, chunkPackets_new h, List.getLast?_concat, Option.getD_some]
  exact Nat.add_zero _

theorem openCount_same (h : ¬ BeginsChunk pkts p) :
    openCount s (pkts ++ [p]) = openCount s pkts + sampleCount s p := by
  obtain ⟨R, r, hR, -, -, hsnoc⟩ := chunkPackets_same h
  rw [openCount, openCount, hsnoc, hR, List.getLast?_concat, List.getLast?_concat,
    Option.getD_some, Option.getD_some, sampleCounts_snoc]

theorem packetsOf_snoc (st : StreamType) (pkts : List AVPacket) (p : AVPacket) :
    packetsOf st (pkts ++ [p]) = packetsOf st pkts ++ if p.streamIndex = st then [p] else [] := by
  rw [packetsOf, packetsOf, List.filter_append]
  by_cases hst : p.streamIndex = st
  · simp [hst]
  · simp [hst]

theorem sampleData_snoc (s : AVFormatContext) (pkts : List AVPacket) (p : AVPacket) :
    sampleData s (pkts ++ [p]) = sampleData s pkts ++ written s p := by
  rw [sampleData, sampleData, List.flatMap_append]
  simp

/-- **A frame more** is a key frame with the next number or none. -/
theorem keyNumbers_snoc (h : p.streamIndex = .video) :
    keyNumbers s (pkts ++ [p]) = keyNumbers s pkts ++
      if KeyFrame s p (packetsOf .video pkts).length then [(packetsOf .video pkts).length + 1]
      else [] := by
  rw [keyNumbers, packetsOf_snoc, if_pos h, List.zipIdx_append, List.filter_append,
    List.map_append]
  refine congrArg (keyNumbers s pkts ++ ·) ?_
  by_cases hkey : KeyFrame s p (packetsOf .video pkts).length
  · simp [hkey]
  · simp [hkey]

end Maixii.Mp4
