import Maixii.Avi.AviLayout
import Maixii.Avi.AviObject
import Maixii.Lib.Run

/-!
# `Avi/AviRecording.lean`: runs of the writer

A recording is a writer that was configured and opened, and that has accepted some chunks since.
What the file consists of at any time is one invariant (`Layout`), about the sections, the chunks
in each of them and the two size fields that are still open; a new section and a new chunk keep
it (`Layout.newSection`, `Layout.writeChunk`).
-/

set_option autoImplicit false

namespace Maixii.Avi

open Maixii.Lib

/-! ## Configurations -/

/-- What is set before an `open` that returns `true`: any configuration calls, for any streams, in
any order and as often as wanted. -/
structure AviConfig where
  settings : List AviSetting
  opens : (AviObject.new.configure settings).open.1 = true

namespace AviConfig

variable (c : AviConfig)

/-- The object before `open`. -/
def object : AviObject := AviObject.new.configure c.settings

/-- Its members. -/
def writer : AviWriter := c.object.w

/-- The streams it has. -/
abbrev streams : List AviStream := c.writer.streams

def openDML : Bool := c.writer.openDML

/-- The chunk id of the data of a stream. -/
def chunkId (i : Nat) : FourCC :=
  AviWriter.dataFcc ((c.streams[i]?.map AviStream.streamType).getD .unknown) i

/-- How many standard indexes a super index has room for. -/
def slots : Nat := numStdIndexes c.writer.reservedFrames

end AviConfig

/-! ## Recordings -/

/-- A chunk that was accepted: its stream, the number of the section it went to, where its first
data byte is, and the data. -/
structure Placement where
  stream : Nat
  riff : Nat
  offset : Nat
  data : Bytes
  deriving DecidableEq

/-- An object that is recording, and what it has accepted so far. -/
structure Recording where
  o : AviObject
  placed : List Placement
  deriving DecidableEq

namespace Recording

/-- The members of the object. -/
abbrev w (r : Recording) : AviWriter := r.o.w

/-- A call of `write_data` for a stream that was declared, which returns `true`. -/
def write (r : Recording) (call : UInt8 × Buffer) : Option Recording :=
  if call.1.toNat < r.w.streams.length then
    match r.o.writeData call.1 call.2 with
    | some (true, o) => some ⟨o, r.placed ++
        [⟨call.1.toNat, o.w.riffIdx, o.w.f.pos - call.2.val.length, call.2.val⟩]⟩
    | _ => none
  else none

/-- The chunks of one stream, in order. -/
def chunksOf (r : Recording) (i : Nat) : List Placement := r.placed.filter fun p => p.stream = i

end Recording

/-- All recordings with one configuration, from `open` on. -/
def recordings (c : AviConfig) : System Recording (UInt8 × Buffer) :=
  System.ofStep (fun r => r = ⟨c.object.open.2, []⟩) Recording.write

/-! ## What a call does -/

namespace AviWriter

/-- What an accepted call does, apart from a new section. -/
theorem writeData_cases {w w' : AviWriter} {i : Nat} {data : Bytes}
    (h : w.writeData i data = some (true, w')) :
    w.totalFrames < w.reservedFrames ∧ ∃ s w₁, w.streams[i]? = some s ∧
      (w.sectionFull data.length = true ∧ w.newSection = some w₁ ∨
        w.sectionFull data.length = false ∧ w₁ = w) ∧
      w' = w₁.writeChunk i s (AviWriter.dataFcc s.streamType i) data := by
  unfold writeData at h
  split at h
  · simp at h
  · rename_i hroom
    rw [Option.bind_eq_some_iff] at h
    obtain ⟨s, hs, h⟩ := h
    rw [Option.map_eq_some_iff] at h
    obtain ⟨w₁, hw₁, heq⟩ := h
    refine ⟨by omega, s, w₁, hs, ?_, ?_⟩
    · split at hw₁
      · rename_i hfull
        exact .inl ⟨hfull, hw₁⟩
      · rename_i hfull
        exact .inr ⟨by simpa using hfull, (Option.some.inj hw₁).symm⟩
    · simp only [Prod.mk.injEq, true_and] at heq
      exact heq.symm

end AviWriter

theorem Recording.write_cases {r r' : Recording} {i : UInt8} {data : Buffer}
    (h : r.write (i, data) = some r') :
    r.w.totalFrames < r.w.reservedFrames ∧ ∃ s w₁,
      r.w.streams[i.toNat]? = some s ∧
      (r.w.sectionFull data.val.length = true ∧ r.w.newSection = some w₁ ∨
        r.w.sectionFull data.val.length = false ∧ w₁ = r.w) ∧
      r' = ⟨⟨w₁.writeChunk i.toNat s (AviWriter.dataFcc s.streamType i.toNat) data.val,
          insert i.toNat r.o.declared, r.o.opened⟩,
        r.placed ++ [⟨i.toNat, w₁.riffIdx, w₁.f.pos + 8, data.val⟩]⟩ := by
  unfold Recording.write at h
  split at h
  · rename_i hlt
    unfold AviObject.writeData at h
    rw [AviWriter.pad_of_le hlt] at h
    split at h
    · rename_i o heq
      split at heq
      · cases heq
      · obtain ⟨⟨ok, w⟩, hw, heq⟩ := Option.map_eq_some_iff.mp heq
        obtain ⟨rfl, rfl⟩ := Prod.mk.inj heq
        obtain ⟨hroom, s, w₁, hs, hw₁, rfl⟩ := AviWriter.writeData_cases hw
        have hpos : (w₁.writeChunk i.toNat s (AviWriter.dataFcc s.streamType i.toNat)
            data.val).f.pos - data.val.length = w₁.f.pos + 8 := by
          show w₁.f.pos + 4 + (le 4 data.val.length).length + data.val.length -
            data.val.length = _
          rw [length_le_bytes]
          omega
        refine ⟨hroom, s, w₁, hs, hw₁, ?_⟩
        rw [← Option.some.inj h]
        simp only [hpos]
        rfl
    · cases h
  · cases h

/-! ## The file so far -/

/-- A data chunk as `write_data` writes it. -/
def rawChunk (id : FourCC) (data : Bytes) : Bytes := id.bytes ++ le 4 data.length ++ data

theorem length_rawChunk (id : FourCC) (data : Bytes) :
    (rawChunk id data).length = 8 + data.length := by
  simp only [rawChunk, List.length_append, FourCC.length_bytes, length_le_bytes]

/-- The chunks of one section. -/
def body (id : Nat → FourCC) (placed : List Placement) (k : Nat) : Bytes :=
  (placed.filter fun p => p.riff = k).flatMap fun p => rawChunk (id p.stream) p.data

/-- The old index. -/
def idx1 (old : List AVIOLDINDEX) : Bytes :=
  (fourcc "idx1").bytes ++ le 4 (old.length * sizeofOldIndex) ++ old.flatMap AVIOLDINDEX.toBytes

/-- The beginning of a later section. -/
def avixHeader (riff movi : Nat) : Bytes :=
  (fourcc "RIFF").bytes ++ le 4 riff ++ (fourcc "AVIX").bytes ++ (fourcc "LIST").bytes ++
    le 4 movi ++ (fourcc "movi").bytes

/-- A later section, with its sizes. -/
def avix (b : Bytes) : Bytes := avixHeader (16 + b.length) (4 + b.length) ++ b

theorem length_idx1 (old : List AVIOLDINDEX) :
    (idx1 old).length = 8 + old.length * sizeofOldIndex := by
  have hentries : (old.flatMap AVIOLDINDEX.toBytes).length = old.length * sizeofOldIndex := by
    induction old with
    | nil => rfl
    | cons e es ih =>
      rw [List.flatMap_cons, List.length_append, ih, AVIOLDINDEX.length_toBytes, List.length_cons]
      unfold sizeofOldIndex
      omega
  simp only [idx1, List.length_append, FourCC.length_bytes, length_le_bytes, hentries]

theorem length_avixHeader (riff movi : Nat) : (avixHeader riff movi).length = 24 := by
  simp only [avixHeader, List.length_append, FourCC.length_bytes, length_le_bytes]

theorem length_avix (b : Bytes) : (avix b).length = 24 + b.length := by
  rw [avix, List.length_append, length_avixHeader]

/-- The head once the sizes of the first section are filled in. -/
def firstHead (h : Head) (old : List AVIOLDINDEX) (b : Bytes) : Head :=
  { h with riff := h.bytes.length + b.length + (idx1 old).length - 8, movi := 4 + b.length }

/-- What stands behind the head when the sections up to `n` are finished. -/
def finishedPart (old : List AVIOLDINDEX) (body : Nat → Bytes) : Nat → Bytes
  | 0 => body 0 ++ idx1 old
  | n + 1 => finishedPart old body n ++ avix (body (n + 1))

/-- The head while section `n` is written. -/
def headSoFar (h : Head) (old : List AVIOLDINDEX) (body : Nat → Bytes) : Nat → Head
  | 0 => h
  | _ + 1 => firstHead h old (body 0)

/-- What stands behind the head while section `n` is written, up to its chunks. -/
def openPart (old : List AVIOLDINDEX) (body : Nat → Bytes) : Nat → Bytes
  | 0 => []
  | n + 1 => finishedPart old body n ++ avixHeader 0 0

theorem length_headSoFar (h : Head) (old : List AVIOLDINDEX) (body : Nat → Bytes) (n : Nat) :
    (headSoFar h old body n).bytes.length = h.bytes.length := by
  rw [Head.length_bytes, Head.length_bytes]
  cases n <;> rfl

theorem finishedPart_congr {old : List AVIOLDINDEX} {b b' : Nat → Bytes} {n : Nat}
    (h : ∀ k, k ≤ n → b' k = b k) : finishedPart old b' n = finishedPart old b n := by
  induction n with
  | zero => rw [finishedPart, finishedPart, h 0 (Nat.le_refl _)]
  | succ n ih =>
    rw [finishedPart, finishedPart, ih (fun k hk => h k (Nat.le_succ_of_le hk)),
      h (n + 1) (Nat.le_refl _)]

theorem openPart_congr {old : List AVIOLDINDEX} {b b' : Nat → Bytes} {n : Nat}
    (h : ∀ k, k < n → b' k = b k) : openPart old b' n = openPart old b n := by
  cases n with
  | zero => rfl
  | succ n => rw [openPart, openPart, finishedPart_congr (fun k hk => h k (Nat.lt_succ_of_le hk))]

/-! ## New sections -/

namespace AviWriter

variable {w w' : AviWriter}

/-- **`finish_old`** fills in the sizes of the first section and appends the old index. -/
theorem finishOld_bytes {h : Head} {b : Bytes} (hb : w.f.bytes = h.bytes ++ b)
    (hr : w.posRIFFSize = 4) (hm : w.posMoviListSize = h.bytes.length - 8) :
    w.finishOld.f.bytes =
      (firstHead h w.oldIndexEntries b).bytes ++ (b ++ idx1 w.oldIndexEntries) := by
  have h12 : 12 ≤ h.bytes.length := by
    rw [h.length_bytes]
    omega
  -- The size of the `movi` list.
  have hsize : w.f.seekEnd.pos - w.posMoviListSize - 4 = 4 + b.length := by
    rw [OutFile.pos_seekEnd, hb, hm, List.length_append]
    omega
  have hmovi : patch w.f.bytes w.posMoviListSize (le 4 (w.f.seekEnd.pos - w.posMoviListSize - 4)) =
      { h with movi := 4 + b.length }.bytes ++ b := by
    rw [hsize, hb, hm, patch_append_left (by rw [length_le_bytes]; omega), h.patch_movi]
  -- The old index behind it.
  have hfold : ∀ f : OutFile, f.AtEnd → w.oldIndexEntries.foldl (fun f e => f.write e.toBytes) f =
      f.write (w.oldIndexEntries.flatMap AVIOLDINDEX.toBytes) := by
    intro f hf
    exact OutFile.foldl_write _ _ (Nat.le_of_eq hf)
  let f₁ := (w.f.seekEnd.seek w.posMoviListSize).write
    (le 4 (w.f.seekEnd.pos - w.posMoviListSize - 4))
  have h₁ : f₁.seekEnd.AtEnd := OutFile.atEnd_seekEnd
  have h₂ := atEnd_writeFcc h₁ "idx1"
  have h₃ := h₂.1.write (le 4 (w.oldIndexEntries.length * sizeofOldIndex))
  have hall : (((writeFcc f₁.seekEnd "idx1").write
      (le 4 (w.oldIndexEntries.length * sizeofOldIndex))).write
        (w.oldIndexEntries.flatMap AVIOLDINDEX.toBytes)).bytes =
      { h with movi := 4 + b.length }.bytes ++ (b ++ idx1 w.oldIndexEntries) := by
    rw [h₃.bytes_write, h₂.1.bytes_write, h₂.2]
    show patch w.f.bytes w.posMoviListSize _ ++ _ ++ _ ++ _ = _
    rw [hmovi, idx1]
    simp only [List.append_assoc]
  show patch (w.oldIndexEntries.foldl (fun f e => f.write e.toBytes) ((writeFcc f₁.seekEnd
      "idx1").write (le 4 (w.oldIndexEntries.length * sizeofOldIndex)))).bytes w.posRIFFSize
      (le 4 ((w.oldIndexEntries.foldl (fun f e => f.write e.toBytes) ((writeFcc f₁.seekEnd
      "idx1").write (le 4 (w.oldIndexEntries.length * sizeofOldIndex)))).bytes.length - 8)) = _
  have hlen : { h with movi := 4 + b.length }.bytes.length = h.bytes.length := by
    rw [Head.length_bytes, Head.length_bytes]
  rw [hfold _ h₃, hall, hr, patch_append_left (by rw [length_le_bytes, hlen]; omega),
    Head.patch_riff, List.length_append, List.length_append, hlen]
  unfold firstHead
  rw [Nat.add_assoc]

/-- **`finish_avix`** fills in the sizes of a later section. -/
theorem finishAvix_bytes {a b : Bytes} (hb : w.f.bytes = a ++ avixHeader 0 0 ++ b)
    (hr : w.posRIFFSize = a.length + 4) (hm : w.posMoviListSize = a.length + 16) :
    w.finishAvix.f.bytes = a ++ avix b := by
  have hend : w.f.seekEnd.pos = a.length + 24 + b.length := by
    rw [OutFile.pos_seekEnd, hb, List.length_append, List.length_append, length_avixHeader]
  have hriff : w.f.seekEnd.pos - w.posRIFFSize - 4 = 16 + b.length := by omega
  have hmovi : w.f.seekEnd.pos - w.posMoviListSize - 4 = 4 + b.length := by omega
  have hcut : w.f.bytes = (a ++ (fourcc "RIFF").bytes) ++ le 4 0 ++ ((fourcc "AVIX").bytes ++
      (fourcc "LIST").bytes ++ le 4 0 ++ (fourcc "movi").bytes ++ b) := by
    rw [hb, avixHeader]
    simp only [List.append_assoc]
  have hpr : w.posRIFFSize = (a ++ (fourcc "RIFF").bytes).length := by
    rw [hr, List.length_append, FourCC.length_bytes]
  have hcut' : (a ++ (fourcc "RIFF").bytes) ++ le 4 (16 + b.length) ++ ((fourcc "AVIX").bytes ++
      (fourcc "LIST").bytes ++ le 4 0 ++ (fourcc "movi").bytes ++ b) =
      (a ++ (fourcc "RIFF").bytes ++ le 4 (16 + b.length) ++ (fourcc "AVIX").bytes ++
        (fourcc "LIST").bytes) ++ le 4 0 ++ ((fourcc "movi").bytes ++ b) := by
    simp only [List.append_assoc]
  have hpm : w.posMoviListSize = (a ++ (fourcc "RIFF").bytes ++ le 4 (16 + b.length) ++
      (fourcc "AVIX").bytes ++ (fourcc "LIST").bytes).length := by
    rw [hm]
    simp only [List.length_append, FourCC.length_bytes, length_le_bytes]
  show patch (patch w.f.bytes w.posRIFFSize (le 4 (w.f.seekEnd.pos - w.posRIFFSize - 4)))
    w.posMoviListSize (le 4 (w.f.seekEnd.pos - w.posMoviListSize - 4)) = _
  rw [hriff, hmovi, hcut, patch_middle _ _ _ hpr (by rw [length_le_bytes, length_le_bytes]), hcut',
    patch_middle _ _ _ hpm (by rw [length_le_bytes, length_le_bytes]), avix, avixHeader]
  simp only [List.append_assoc]

/-- The next section is empty. -/
theorem beginSection_eq (w : AviWriter) :
    w.beginSection = { w with
      f := ⟨w.f.bytes ++ avixHeader 0 0, w.f.bytes.length + 24⟩
      posRIFFSize := w.f.bytes.length + 4
      posMoviListSize := w.f.bytes.length + 16
      riffIdx := w.riffIdx + 1
      riffSize := 24 } := by
  have h₀ : w.f.seekEnd.AtEnd := OutFile.atEnd_seekEnd
  have h₁ := atEnd_writeFcc h₀ "RIFF"
  have h₂ := h₁.1.write (le 4 0)
  have h₃ := atEnd_writeFcc h₂ "AVIX"
  have h₄ := atEnd_writeFcc h₃.1 "LIST"
  have h₅ := h₄.1.write (le 4 0)
  have h₆ := atEnd_writeFcc h₅ "movi"
  have hbytes : (writeFcc ((writeFcc (writeFcc ((writeFcc w.f.seekEnd "RIFF").write (le 4 0))
      "AVIX") "LIST").write (le 4 0)) "movi").bytes = w.f.bytes ++ avixHeader 0 0 := by
    rw [h₆.2, h₄.1.bytes_write, h₄.2, h₃.2, h₁.1.bytes_write, h₁.2, OutFile.bytes_seekEnd,
      avixHeader]
    simp only [List.append_assoc]
  have hf := OutFile_eq h₆.1 hbytes
  rw [List.length_append, length_avixHeader] at hf
  have hriff : (writeFcc w.f.seekEnd "RIFF").pos = w.f.bytes.length + 4 := rfl
  have hmovi : (writeFcc (writeFcc ((writeFcc w.f.seekEnd "RIFF").write (le 4 0)) "AVIX")
      "LIST").pos = w.f.bytes.length + 16 := rfl
  unfold beginSection
  dsimp only
  rw [hf, hriff, hmovi]

theorem finishOld_eq (w : AviWriter) : w.finishOld = { w with f := w.finishOld.f } := rfl

theorem finishAvix_eq (w : AviWriter) : w.finishAvix = { w with f := w.finishAvix.f } := rfl

/-- What a new section changes. -/
theorem newSection_eq (h : w.newSection = some w') :
    w' = AviWriter.beginSection { w with
      currMaxRIFFSize := if w.riffIdx = 0 then 4 * 1000 * 1000 * 1000 else w.currMaxRIFFSize
      f := if w.riffIdx = 0 then w.finishOld.f else w.finishAvix.f } := by
  unfold newSection at h
  by_cases hz : w.riffIdx = 0
  · simp only [if_pos hz] at h ⊢
    rw [finishOld_eq] at h
    split at h
    · simp at h
    · exact (Option.some.inj h).symm
  · simp only [if_neg hz] at h ⊢
    rw [finishAvix_eq] at h
    split at h
    · simp at h
    · exact (Option.some.inj h).symm

end AviWriter

/-! ## What `open` leaves -/

namespace AviConfig

variable (c : AviConfig)

/-- Nothing has been recorded yet. -/
structure Fresh (w : AviWriter) : Prop where
  riffIdx : w.riffIdx = 0
  oldIndexEntries : w.oldIndexEntries = []
  currMaxRIFFSize : w.currMaxRIFFSize = 1000 * 1000 * 1000

theorem configured : c.object.Configured := AviObject.configured c.settings

/-- All streams up to the last are declared. -/
theorem declared_eq : c.object.declared = Finset.range c.streams.length :=
  c.configured.of_open c.opens

/-- The streams before `open` are as they were declared last. -/
theorem declared_of_mem {s : AviStream} (hs : s ∈ c.streams) : ∃ p, s = declaredStream p := by
  obtain ⟨k, hk⟩ := List.getElem?_of_mem hs
  rcases c.configured.streams k s hk with hp | ⟨hblank, -⟩
  · exact hp
  · refine absurd ?_ hblank
    rw [c.declared_eq]
    exact Finset.mem_range.mpr (List.getElem?_eq_some_iff.mp hk).1

theorem writer_openDML : c.writer.openDML = c.openDML := rfl

theorem reservedFrames_lt : c.writer.reservedFrames < 2 ^ 32 := c.configured.frames

theorem fresh_writer : Fresh c.writer :=
  ⟨c.configured.riffIdx, c.configured.oldIndexEntries, c.configured.currMaxRIFFSize⟩

/-- The head of the file, as `open` writes it. -/
def head : Head := c.writer.openedHead

/-- The chunks of one section. -/
def bodyOf (placed : List Placement) (k : Nat) : Bytes := body c.chunkId placed k

end AviConfig

theorem AviWriter.open_fails {w : AviWriter}
    (h : ¬ (w.streams ≠ [] ∧ (w.openDML = true ∨ w.reservedFrames ≠ 0))) : w.open.1 = false := by
  unfold AviWriter.open
  split
  · rfl
  · rename_i hs
    have hc : (!w.openDML && decide (w.reservedFrames = 0)) = true := by
      cases hd : w.openDML with
      | false =>
        by_cases hz : w.reservedFrames = 0
        · simp [hz]
        · exact absurd ⟨hs, .inr hz⟩ h
      | true => exact absurd ⟨hs, .inl hd⟩ h
    rw [if_pos hc]

/-- **A recording begins** with what `open` writes. -/
theorem AviConfig.open_eq (c : AviConfig) :
    c.streams ≠ [] ∧ c.object.open.2 = { c.object with w := c.writer.opened } := by
  have hopen := c.opens
  have hobject := AviObject.open_eq c.declared_eq
  rw [show AviObject.new.configure c.settings = c.object from rfl, hobject] at hopen
  by_cases hc : c.streams ≠ [] ∧ (c.writer.openDML = true ∨ c.writer.reservedFrames ≠ 0)
  · refine ⟨hc.1, ?_⟩
    rw [hobject]
    exact congrArg (fun x : Bool × AviWriter => { c.object with w := x.2 })
      (AviWriter.open_eq _ hc.1 c.reservedFrames_lt hc.2)
  · exact absurd (hopen.symm.trans (AviWriter.open_fails hc)) (by decide)

theorem recordings_start {c : AviConfig} {r : Recording} (h : (recordings c).start r) :
    r = ⟨{ c.object with w := c.writer.opened }, []⟩ := by
  rw [show r = ⟨c.object.open.2, []⟩ from h, c.open_eq.2]

/-! ## The layout of a recording -/

/-- What stays as `open` has left it. -/
def AviWriter.settings (w : AviWriter) : AviWriter :=
  { w with
    f := OutFile.empty
    posRIFFSize := 0
    posMoviListSize := 0
    streams := []
    oldIndexEntries := []
    avimHeader := AviWriter.new.avimHeader
    riffIdx := 0
    riffSize := 0
    totalFrames := 0
    currBaseOff := 0
    currMaxRIFFSize := 0 }

/-- What stays of a stream. -/
def AviStream.place (s : AviStream) : AviStream :=
  { s with
    avisHeader := blankStreamHeader noFcc
    superIdx := { s.superIdx with nEntriesInUse := 0 }
    stdIndexes := []
    stdIndexEntries := [] }

/-- **The layout of a recording**: finished sections, and one that is being written. -/
structure Layout (c : AviConfig) (w : AviWriter) (placed : List Placement) : Prop where
  settings : w.settings = c.writer.opened.settings
  places : w.streams.map AviStream.place = c.writer.opened.streams.map AviStream.place
  atEnd : w.f.AtEnd
  bytes : w.f.bytes =
    (headSoFar c.head w.oldIndexEntries (c.bodyOf placed) w.riffIdx).bytes ++
      (openPart w.oldIndexEntries (c.bodyOf placed) w.riffIdx ++ c.bodyOf placed w.riffIdx)
  posRIFFSize : w.posRIFFSize = if w.riffIdx = 0 then 4 else
    c.head.bytes.length + (openPart w.oldIndexEntries (c.bodyOf placed) w.riffIdx).length - 20
  posMoviListSize : w.posMoviListSize =
    c.head.bytes.length + (openPart w.oldIndexEntries (c.bodyOf placed) w.riffIdx).length - 8
  riffs : ∀ p ∈ placed, p.riff ≤ w.riffIdx
  total : w.totalFrames = placed.length
  olds : w.oldIndexEntries.length = (placed.filter fun p => p.riff = 0).length

/-- No chunk is in a section that has not begun. -/
theorem body_eq_nil {id : Nat → FourCC} {placed : List Placement} {n k : Nat}
    (h : ∀ p ∈ placed, p.riff ≤ n) (hk : n < k) : body id placed k = [] := by
  have hnone : (placed.filter fun p => p.riff = k) = [] := by
    rw [List.filter_eq_nil_iff]
    intro p hp
    have := h p hp
    simp only [decide_eq_true_eq]
    omega
  rw [body, hnone, List.flatMap_nil]

theorem body_append {id : Nat → FourCC} {placed : List Placement} (p : Placement) (k : Nat) :
    body id (placed ++ [p]) k =
      body id placed k ++ if p.riff = k then rawChunk (id p.stream) p.data else [] := by
  rw [body, List.filter_append, List.flatMap_append, ← body]
  by_cases hk : p.riff = k
  · simp [hk]
  · simp [hk]

namespace Layout

variable {c : AviConfig} {w w' : AviWriter} {placed : List Placement}

theorem start : Layout c c.writer.opened [] := by
  have hriff : c.writer.opened.riffIdx = 0 := c.fresh_writer.riffIdx
  have holds : c.writer.opened.oldIndexEntries = [] := c.fresh_writer.oldIndexEntries
  refine ⟨rfl, rfl, rfl, ?_, ?_, ?_, ?_, rfl, ?_⟩
  · rw [hriff]
    exact (List.append_nil _).symm
  · rw [hriff, if_pos rfl]
    rfl
  · rw [hriff]
    rfl
  · intro p hp
    simp at hp
  · rw [holds]
    rfl

/-- The current section, once its sizes are filled in. -/
theorem finished_bytes (h : Layout c w placed) :
    (if w.riffIdx = 0 then w.finishOld.f else w.finishAvix.f).bytes =
      (firstHead c.head w.oldIndexEntries (c.bodyOf placed 0)).bytes ++
        finishedPart w.oldIndexEntries (c.bodyOf placed) w.riffIdx := by
  have hb := h.bytes
  have hr := h.posRIFFSize
  have hm := h.posMoviListSize
  cases hn : w.riffIdx with
  | zero =>
    rw [hn] at hb hr hm
    rw [if_pos rfl]
    refine AviWriter.finishOld_bytes ?_ hr hm
    rw [hb]
    rfl
  | succ n =>
    rw [hn] at hb hr hm
    rw [if_neg (Nat.succ_ne_zero n)] at hr ⊢
    have hlen := length_headSoFar c.head w.oldIndexEntries (c.bodyOf placed) (n + 1)
    rw [openPart, List.length_append, length_avixHeader] at hr hm
    rw [AviWriter.finishAvix_bytes (a := (headSoFar c.head w.oldIndexEntries (c.bodyOf placed)
      (n + 1)).bytes ++ finishedPart w.oldIndexEntries (c.bodyOf placed) n)
      (b := c.bodyOf placed (n + 1))]
    · rw [finishedPart, List.append_assoc]
      rfl
    · rw [hb, openPart]
      simp only [List.append_assoc]
    · rw [hr, List.length_append, hlen]
      omega
    · rw [hm, List.length_append, hlen]
      omega

/-- **A new section.** -/
theorem newSection (h : Layout c w placed) (hw : w.newSection = some w') :
    Layout c w' placed ∧ w'.riffIdx = w.riffIdx + 1 ∧ w'.streams = w.streams ∧
      w'.currBaseOff = w.currBaseOff := by
  have hbytes := h.finished_bytes
  have heq := AviWriter.newSection_eq hw
  rw [AviWriter.beginSection_eq] at heq
  have hempty : c.bodyOf placed (w.riffIdx + 1) = [] :=
    body_eq_nil h.riffs (Nat.lt_succ_self _)
  have hlen : (firstHead c.head w.oldIndexEntries (c.bodyOf placed 0)).bytes.length =
      c.head.bytes.length := length_headSoFar c.head w.oldIndexEntries (c.bodyOf placed) 1
  subst heq
  refine ⟨⟨h.settings, h.places, ?_, ?_, ?_, ?_, ?_, h.total, h.olds⟩, rfl, rfl, rfl⟩
  · show _ = List.length (_ ++ _)
    rw [List.length_append, length_avixHeader]
  · show _ ++ avixHeader 0 0 = (firstHead c.head w.oldIndexEntries (c.bodyOf placed 0)).bytes ++
      (finishedPart w.oldIndexEntries (c.bodyOf placed) w.riffIdx ++ avixHeader 0 0 ++
        c.bodyOf placed (w.riffIdx + 1))
    rw [hbytes, hempty, List.append_nil, List.append_assoc]
  · show List.length _ + 4 = if w.riffIdx + 1 = 0 then 4 else c.head.bytes.length +
      (finishedPart w.oldIndexEntries (c.bodyOf placed) w.riffIdx ++ avixHeader 0 0).length - 20
    rw [hbytes, if_neg (Nat.succ_ne_zero _), List.length_append, List.length_append,
      length_avixHeader, hlen]
    omega
  · show List.length _ + 16 = c.head.bytes.length +
      (finishedPart w.oldIndexEntries (c.bodyOf placed) w.riffIdx ++ avixHeader 0 0).length - 8
    rw [hbytes, List.length_append, List.length_append, length_avixHeader, hlen]
    omega
  · intro p hp
    exact Nat.le_succ_of_le (h.riffs p hp)

theorem types_openedStreams (dml : Bool) (num : Nat) (ss : List AviStream) (off i : Nat) :
    (openedStreams dml num off i ss).map (·.streamType) = ss.map (·.streamType) := by
  induction ss generalizing off i with
  | nil => rfl
  | cons s ss ih =>
    rw [openedStreams, List.map_cons, List.map_cons, ih]
    cases dml <;> rfl

/-- The types of the streams are the configuration's. -/
theorem types (h : Layout c w placed) :
    w.streams.map (·.streamType) = c.streams.map (·.streamType) := by
  have hplaces : w.streams.map (·.streamType) = c.writer.opened.streams.map (·.streamType) := by
    have := congrArg (List.map (·.streamType)) h.places
    rwa [List.map_map, List.map_map] at this
  have hopened : c.writer.opened.streams.map (·.streamType) = c.streams.map (·.streamType) :=
    types_openedStreams _ _ _ _ _
  rw [hplaces, hopened]

theorem chunkId (h : Layout c w placed) {i : Nat} {s : AviStream} (hs : w.streams[i]? = some s) :
    AviWriter.dataFcc s.streamType i = c.chunkId i := by
  have htypes := congrArg (fun l => l[i]?) h.types
  simp only [List.getElem?_map, hs, Option.map_some] at htypes
  rw [AviConfig.chunkId, ← htypes]
  rfl

/-- A stream that takes a chunk stays in its place. -/
theorem places_set {streams : List AviStream} {i : Nat} {s s' : AviStream}
    (hs : streams[i]? = some s) (h : s'.place = s.place) :
    (streams.set i s').map AviStream.place = streams.map AviStream.place := by
  refine List.ext_getElem? (fun k => ?_)
  rw [List.map_set, h]
  by_cases hk : i = k
  · subst hk
    have hlt : i < (streams.map AviStream.place).length := by
      rw [List.length_map]
      exact (List.getElem?_eq_some_iff.mp hs).1
    rw [List.getElem?_set_self hlt, List.getElem?_map, hs]
    rfl
  · rw [List.getElem?_set_ne hk]

theorem place_writeChunk (w : AviWriter) (i : Nat) (s : AviStream) (id : FourCC) (data : Bytes) :
    (((if s.indexFull then s.newIndex i id w.f.pos else s).pushEntry
      (if s.indexFull then s.newIndex i id w.f.pos else s).lastIndex
      ⟨(w.f.pos + 8 - if s.indexFull then w.f.pos else w.currBaseOff) % 2 ^ 32,
        data.length⟩).counted).place = s.place := by
  have hcounted : ∀ t : AviStream, t.counted.place = t.place := by
    intro t
    unfold AviStream.counted
    split <;> rfl
  rw [hcounted]
  split <;> rfl

theorem oldIndexEntries_writeChunk_later (i : Nat) (s : AviStream) (id : FourCC) (data : Bytes)
    (h : w.riffIdx ≠ 0) : (w.writeChunk i s id data).oldIndexEntries = w.oldIndexEntries :=
  if_neg h

/-- **A new chunk.** -/
theorem writeChunk (h : Layout c w placed) {i : Nat} {s : AviStream} {data : Bytes}
    (hs : w.streams[i]? = some s) :
    Layout c (w.writeChunk i s (AviWriter.dataFcc s.streamType i) data)
      (placed ++ [⟨i, w.riffIdx, w.f.pos + 8, data⟩]) := by
  rw [h.chunkId hs]
  -- What is appended.
  have h₁ := h.atEnd.write (c.chunkId i).bytes
  have h₂ := h₁.write (le 4 data.length)
  have hbytes : ((w.f.write (c.chunkId i).bytes).write (le 4 data.length) |>.write data).bytes =
      w.f.bytes ++ rawChunk (c.chunkId i) data := by
    rw [h₂.bytes_write, h₁.bytes_write, h.atEnd.bytes_write, rawChunk]
    simp only [List.append_assoc]
  -- The sections before are as they were.
  have hbody : ∀ k, k < w.riffIdx →
      c.bodyOf (placed ++ [⟨i, w.riffIdx, w.f.pos + 8, data⟩]) k = c.bodyOf placed k := by
    intro k hk
    rw [AviConfig.bodyOf, body_append, if_neg (by exact Nat.ne_of_gt hk), List.append_nil]
    rfl
  have hcurrent : c.bodyOf (placed ++ [⟨i, w.riffIdx, w.f.pos + 8, data⟩]) w.riffIdx =
      c.bodyOf placed w.riffIdx ++ rawChunk (c.chunkId i) data := by
    rw [AviConfig.bodyOf, body_append, if_pos rfl]
    rfl
  have hhead : headSoFar c.head (w.writeChunk i s (c.chunkId i) data).oldIndexEntries
      (c.bodyOf (placed ++ [⟨i, w.riffIdx, w.f.pos + 8, data⟩])) w.riffIdx =
      headSoFar c.head w.oldIndexEntries (c.bodyOf placed) w.riffIdx := by
    cases hn : w.riffIdx with
    | zero => rfl
    | succ n =>
      have hold := oldIndexEntries_writeChunk_later i s (c.chunkId i) data
        (by rw [hn]; exact Nat.succ_ne_zero n)
      rw [hold, headSoFar, headSoFar, ← hn, hbody 0 (by rw [hn]; exact Nat.succ_pos n)]
  have hopen : openPart (w.writeChunk i s (c.chunkId i) data).oldIndexEntries
      (c.bodyOf (placed ++ [⟨i, w.riffIdx, w.f.pos + 8, data⟩])) w.riffIdx =
      openPart w.oldIndexEntries (c.bodyOf placed) w.riffIdx := by
    rw [openPart_congr hbody]
    cases hn : w.riffIdx with
    | zero => rfl
    | succ n =>
      rw [oldIndexEntries_writeChunk_later i s (c.chunkId i) data
        (by rw [hn]; exact Nat.succ_ne_zero n)]
  refine ⟨h.settings, ?_, h₂.write _, ?_, ?_, ?_, ?_, ?_, ?_⟩
  · rw [← h.places]
    exact places_set hs (place_writeChunk w i s (c.chunkId i) data)
  · show OutFile.bytes _ = (headSoFar c.head _ _ w.riffIdx).bytes ++
      (openPart _ _ w.riffIdx ++ c.bodyOf _ w.riffIdx)
    rw [hhead, hopen, hcurrent, ← List.append_assoc, ← List.append_assoc, List.append_assoc _ _
      (c.bodyOf placed w.riffIdx), ← h.bytes]
    exact hbytes
  · show w.posRIFFSize = if w.riffIdx = 0 then 4 else
      c.head.bytes.length + (openPart _ _ w.riffIdx).length - 20
    rw [hopen]
    exact h.posRIFFSize
  · show w.posMoviListSize = c.head.bytes.length + (openPart _ _ w.riffIdx).length - 8
    rw [hopen]
    exact h.posMoviListSize
  · intro p hp
    rcases List.mem_append.mp hp with hp | hp
    · exact h.riffs p hp
    · obtain rfl := List.mem_singleton.mp hp
      exact Nat.le_refl _
  · show w.totalFrames + 1 = _
    rw [h.total, List.length_append]
    rfl
  · show (if w.riffIdx = 0 then w.oldIndexEntries ++ [_] else w.oldIndexEntries).length = _
    rw [List.filter_append, List.length_append, ← h.olds]
    by_cases hz : w.riffIdx = 0
    · simp [hz]
    · simp [hz]

end Layout

/-- Every recording has the layout. -/
theorem layout {c : AviConfig} {r : Recording} {G : Recording → UInt8 × Buffer → Prop}
    (h : Reach (recordings c) G r) : Layout c r.w r.placed := by
  refine h.inv (P := fun r => Layout c r.w r.placed) ?_ ?_
  · intro r hr
    obtain rfl := recordings_start hr
    exact Layout.start
  · rintro r ⟨i, data⟩ r' hr _ hw
    obtain ⟨_, s, w₁, hs, hsec, rfl⟩ := Recording.write_cases hw
    rcases hsec with ⟨_, hsec⟩ | ⟨_, rfl⟩
    · obtain ⟨hl, _, hstreams, _⟩ := hr.newSection hsec
      exact hl.writeChunk (hstreams ▸ hs)
    · exact hr.writeChunk hs

end Maixii.Avi
