import Maixii.Avi.AviIndexes

/-!
# `Avi/AviClose.lean`: what `close` leaves

`close` goes back to the headers of the file and fills in what is known now, writes the standard
indexes behind the last chunk and a list of them into the room that `open` has reserved, and ends the
last section. **If every list fits its room, no part of the file changes but these**
(`closed_bytes`): the head is the head of `open` with new headers, and the last section has got the
indexes.
-/

set_option autoImplicit false

namespace Maixii.Avi

open Maixii.Lib AviWriter

/-! ## The indexes of a stream -/

/-- A standard index, filled in. -/
def closedIndex (x : AVISTDINDEX) (entries : List AVISTDINDEX_ENTRY) : AVISTDINDEX :=
  { x with
    bIndexType := 1
    nEntriesInUse := entries.length
    cb := sizeofStdIndex - 8 + sizeofStdIndexEntry * entries.length }

/-- A standard index with its entries. -/
def ixChunk (x : AVISTDINDEX) (entries : List AVISTDINDEX_ENTRY) : Bytes :=
  (closedIndex x entries).toBytes ++ entries.flatMap AVISTDINDEX_ENTRY.toBytes

theorem length_flatMap_entries (entries : List AVISTDINDEX_ENTRY) :
    (entries.flatMap AVISTDINDEX_ENTRY.toBytes).length = sizeofStdIndexEntry * entries.length := by
  induction entries with
  | nil => rfl
  | cons e es ih =>
    rw [List.flatMap_cons, List.length_append, ih, AVISTDINDEX_ENTRY.length_toBytes,
      List.length_cons, Nat.mul_succ, Nat.add_comm]

theorem length_ixChunk (x : AVISTDINDEX) (entries : List AVISTDINDEX_ENTRY) :
    (ixChunk x entries).length = sizeofStdIndex + sizeofStdIndexEntry * entries.length := by
  rw [ixChunk, List.length_append, AVISTDINDEX.length_toBytes, length_flatMap_entries]

/-- The standard indexes of a stream, one after the other. -/
def ixBytes (idxs : List AVISTDINDEX) : List (Int × List AVISTDINDEX_ENTRY) → Bytes
  | [] => []
  | (k, entries) :: rest =>
      ixChunk ((idxs[k.toNat]?).getD blankStdIndex) entries ++ ixBytes idxs rest

/-- Their entries in the super index, when the first begins at `pos`. -/
def supersFrom : Nat → List (Int × List AVISTDINDEX_ENTRY) → List AVISUPERINDEX_ENTRY
  | _, [] => []
  | pos, (_, entries) :: rest =>
      ⟨pos, sizeofStdIndex + sizeofStdIndexEntry * entries.length, entries.length⟩ ::
        supersFrom (pos + (sizeofStdIndex + sizeofStdIndexEntry * entries.length)) rest

theorem length_supersFrom (pos : Nat) (ents : List (Int × List AVISTDINDEX_ENTRY)) :
    (supersFrom pos ents).length = ents.length := by
  induction ents generalizing pos with
  | nil => rfl
  | cons e es ih => rw [supersFrom, List.length_cons, List.length_cons, ih]

theorem length_flatMap_supers (es : List AVISUPERINDEX_ENTRY) :
    (es.flatMap AVISUPERINDEX_ENTRY.toBytes).length = es.length * sizeofSuperIndexEntry := by
  induction es with
  | nil => rfl
  | cons e es ih =>
    rw [List.flatMap_cons, List.length_append, ih, AVISUPERINDEX_ENTRY.length_toBytes,
      List.length_cons, Nat.succ_mul, Nat.add_comm]

/-- **The indexes are written behind all there is.** -/
theorem writeIndexes_spec (idxs : List AVISTDINDEX) (ents : List (Int × List AVISTDINDEX_ENTRY))
    (f : OutFile) :
    (writeIndexes idxs f ents).1.bytes = f.bytes ++ ixBytes idxs ents ∧
      (writeIndexes idxs f ents).2 = supersFrom f.bytes.length ents := by
  induction ents generalizing f with
  | nil => exact ⟨(List.append_nil _).symm, rfl⟩
  | cons e ents ih =>
    obtain ⟨k, entries⟩ := e
    let x := closedIndex ((idxs[k.toNat]?).getD blankStdIndex) entries
    have h₁ := (OutFile.atEnd_seekEnd (f := f)).write x.toBytes
    have hone : ((f.seekEnd.write x.toBytes).write
        (entries.flatMap AVISTDINDEX_ENTRY.toBytes)).bytes =
        f.bytes ++ ixChunk ((idxs[k.toNat]?).getD blankStdIndex) entries := by
      rw [h₁.bytes_write, (OutFile.atEnd_seekEnd (f := f)).bytes_write, List.append_assoc]
      rfl
    obtain ⟨hbytes, hsupers⟩ := ih
      ((f.seekEnd.write x.toBytes).write (entries.flatMap AVISTDINDEX_ENTRY.toBytes))
    rw [hone] at hbytes hsupers
    refine ⟨?_, ?_⟩
    · refine hbytes.trans ?_
      rw [ixBytes, List.append_assoc]
    · have hsize : x.cb + 8 = sizeofStdIndex + sizeofStdIndexEntry * entries.length := by
        show sizeofStdIndex - 8 + _ + 8 = _
        unfold sizeofStdIndex
        omega
      refine (congrArg₂ List.cons (congrArg (fun n => AVISUPERINDEX_ENTRY.mk f.bytes.length n
        entries.length) hsize) hsupers).trans ?_
      rw [supersFrom, List.length_append, length_ixChunk]

/-- What `close` writes over the room of a super index, when the indexes begin at `pos`. -/
def superBytes (pos : Nat) (s : AviStream) : Bytes :=
  s.superIdx.toBytes ++ (supersFrom pos s.stdIndexEntries).flatMap AVISUPERINDEX_ENTRY.toBytes

theorem length_superBytes (pos : Nat) (s : AviStream) :
    (superBytes pos s).length = clearsize s.stdIndexEntries.length := by
  rw [superBytes, List.length_append, AVISUPERINDEX.length_toBytes, length_flatMap_supers,
    length_supersFrom, clearsize]

/-- **What `close` does for a stream**: the indexes behind all, and the list over its room. -/
theorem closeStream_bytes (f : OutFile) (s : AviStream) (h : s.posOdmlSuperIdx ≤ f.bytes.length) :
    (closeStream f s).bytes = patch (f.bytes ++ ixBytes s.stdIndexes s.stdIndexEntries)
      s.posOdmlSuperIdx (superBytes f.bytes.length s) := by
  obtain ⟨hbytes, hsupers⟩ := writeIndexes_spec s.stdIndexes s.stdIndexEntries f
  have hle : s.posOdmlSuperIdx ≤ (f.bytes ++ ixBytes s.stdIndexes s.stdIndexEntries).length := by
    rw [List.length_append]
    omega
  have hpos := OutFile.pos_le_write
    (f := (writeIndexes s.stdIndexes f s.stdIndexEntries).1.seek s.posOdmlSuperIdx)
    (by rw [OutFile.pos_seek, OutFile.bytes_seek, hbytes]; exact hle) s.superIdx.toBytes
  show (List.foldl (fun (f : OutFile) e => f.write e.toBytes)
    (((writeIndexes s.stdIndexes f s.stdIndexEntries).1.seek s.posOdmlSuperIdx).write
      s.superIdx.toBytes) (writeIndexes s.stdIndexes f s.stdIndexEntries).2).bytes = _
  rw [OutFile.foldl_write _ _ hpos, OutFile.write_write, OutFile.bytes_write, hsupers, ← superBytes,
    OutFile.pos_seek, OutFile.bytes_seek, hbytes]
  rw [OutFile.pos_seek, OutFile.bytes_seek, hbytes]
  exact hle

/-! ## The lists of the streams -/

/-- The `strl` list of a stream in the file: its header, its format, and the room of its super
index. -/
structure Row where
  header : Bytes
  format : Bytes
  super : Bytes
  length_header : header.length = 64

def Row.bytes (r : Row) : Bytes := strl r.header r.format r.super

def Row.length (r : Row) : Nat := 80 + r.format.length + r.super.length

theorem Row.length_bytes (r : Row) : r.bytes.length = r.length :=
  length_strl r.length_header r.format r.super

/-- A new header in its place. -/
def Row.withHeader (r : Row) (h : AVISTREAMHEADER) : Row :=
  { r with header := h.toBytes, length_header := AVISTREAMHEADER.length_toBytes h }

/-- A list at the front of the room. -/
def Row.withSuper (r : Row) (bs : Bytes) : Row := { r with super := patch r.super 0 bs }

theorem Row.patch_header (r : Row) (h : AVISTREAMHEADER) :
    patch r.bytes 12 h.toBytes = (r.withHeader h).bytes := by
  have hcut : r.bytes = ((fourcc "LIST").bytes ++ le 4 (72 + r.format.length + r.super.length) ++
      (fourcc "strl").bytes) ++ r.header ++ ((fourcc "strf").bytes ++ r.format ++ r.super) := by
    simp only [Row.bytes, strl, List.append_assoc]
  rw [hcut, patch_middle (p := 12)]
  · simp only [Row.withHeader, Row.bytes, strl, List.append_assoc]
  · rfl
  · rw [AVISTREAMHEADER.length_toBytes, r.length_header]

theorem Row.patch_super (r : Row) {bs : Bytes} (h : bs.length ≤ r.super.length) :
    patch r.bytes (80 + r.format.length) bs = (r.withSuper bs).bytes := by
  have hlen : (patch r.super 0 bs).length = r.super.length := length_patch (by omega)
  have hpos : 80 + r.format.length = ((fourcc "LIST").bytes ++
      le 4 (72 + r.format.length + r.super.length) ++ (fourcc "strl").bytes ++ r.header ++
        (fourcc "strf").bytes ++ r.format).length + 0 := by
    simp only [List.length_append, FourCC.length_bytes, length_le_bytes, r.length_header]
    omega
  rw [hpos, Row.bytes, strl, patch_append_right (Nat.zero_le _)]
  simp only [Row.withSuper, Row.bytes, strl, hlen]

theorem Row.length_withSuper (r : Row) {bs : Bytes} (h : bs.length ≤ r.super.length) :
    (r.withSuper bs).length = r.length := by
  have hlen : (patch r.super 0 bs).length = r.super.length := length_patch (by omega)
  simp only [Row.length, Row.withSuper, hlen]

/-- A row with the stream that notes where it is. -/
abbrev RowOf := Row × AviStream

/-- The rows, one after the other. -/
def rowBytes (rows : List RowOf) : Bytes := rows.flatMap fun r => r.1.bytes

/-- The positions the streams have noted are right, when the rows begin at `off`. -/
def PlacedAt (dml : Bool) : Nat → List RowOf → Prop
  | _, [] => True
  | off, r :: rows =>
      r.2.posStreamHeader = off + 12 ∧
        (dml = true → r.2.posOdmlSuperIdx = off + 80 + r.1.format.length) ∧
        PlacedAt dml (off + r.1.length) rows

/-- The lists fit their rooms. -/
def SupersFit (rows : List RowOf) : Prop :=
  ∀ r ∈ rows, clearsize r.2.stdIndexEntries.length ≤ r.1.super.length

/-- All standard indexes. -/
def allIndexes (rows : List RowOf) : Bytes :=
  rows.flatMap fun r => ixBytes r.2.stdIndexes r.2.stdIndexEntries

/-- The rows once their lists are written, when the indexes begin at `pos`. -/
def withSupers : Nat → List RowOf → List RowOf
  | _, [] => []
  | pos, r :: rows =>
      (r.1.withSuper (superBytes pos r.2), r.2) ::
        withSupers (pos + (ixBytes r.2.stdIndexes r.2.stdIndexEntries).length) rows

/-- The rows once their headers are filled in. -/
def withHeaders (header : AviStream → AVISTREAMHEADER) (rows : List RowOf) : List RowOf :=
  rows.map fun r => (r.1.withHeader (header r.2), r.2)

/-- **The indexes of all streams.** -/
theorem closeStreams_bytes (rows : List RowOf) :
    ∀ (f : OutFile) (a b : Bytes), f.bytes = a ++ rowBytes rows ++ b →
      PlacedAt true a.length rows → SupersFit rows →
      ((rows.map Prod.snd).foldl closeStream f).bytes =
        a ++ rowBytes (withSupers f.bytes.length rows) ++ (b ++ allIndexes rows) := by
  induction rows with
  | nil =>
    intro f a b hf _ _
    rw [List.map_nil, List.foldl_nil, hf, allIndexes, List.flatMap_nil, List.append_nil]
    rfl
  | cons r rows ih =>
    intro f a b hf hplaced hfit
    obtain ⟨-, hsuper, hrest⟩ := hplaced
    have hpos := hsuper rfl
    have hroom := hfit r (List.mem_cons_self ..)
    rw [← length_superBytes f.bytes.length] at hroom
    have hcut : f.bytes ++ ixBytes r.2.stdIndexes r.2.stdIndexEntries = a ++ (r.1.bytes ++
        (rowBytes rows ++ (b ++ ixBytes r.2.stdIndexes r.2.stdIndexEntries))) := by
      rw [hf, rowBytes, List.flatMap_cons, ← rowBytes]
      simp only [List.append_assoc]
    have hlen := congrArg List.length hf
    rw [rowBytes, List.flatMap_cons, ← rowBytes] at hlen
    simp only [List.length_append, Row.length_bytes, Row.length] at hlen
    have hone : (closeStream f r.2).bytes =
        (a ++ (r.1.withSuper (superBytes f.bytes.length r.2)).bytes) ++ rowBytes rows ++
          (b ++ ixBytes r.2.stdIndexes r.2.stdIndexEntries) := by
      rw [closeStream_bytes f r.2 (by omega), hcut, hpos, Nat.add_assoc,
        patch_append_right (by rw [List.length_append, Row.length_bytes, Row.length]; omega),
        patch_append_left (by rw [Row.length_bytes, Row.length]; omega), Row.patch_super _ hroom]
      simp only [List.append_assoc]
    have hgrow : (closeStream f r.2).bytes.length =
        f.bytes.length + (ixBytes r.2.stdIndexes r.2.stdIndexEntries).length := by
      rw [hone]
      simp only [List.length_append, Row.length_bytes, Row.length_withSuper _ hroom]
      simp only [Row.length]
      omega
    have hplaced' : PlacedAt true
        (a ++ (r.1.withSuper (superBytes f.bytes.length r.2)).bytes).length rows := by
      rw [List.length_append, Row.length_bytes, Row.length_withSuper _ hroom]
      exact hrest
    have hall := ih (closeStream f r.2) _ _ hone hplaced'
      (fun r' hr' => hfit r' (List.mem_cons_of_mem _ hr'))
    rw [List.map_cons, List.foldl_cons, hall, hgrow, withSupers, rowBytes, rowBytes,
      List.flatMap_cons, allIndexes, allIndexes, List.flatMap_cons]
    simp only [List.append_assoc]

/-- **The headers of all streams.** -/
theorem headers_bytes (header : AviStream → AVISTREAMHEADER) (dml : Bool) (rows : List RowOf) :
    ∀ (f : OutFile) (a b : Bytes), f.bytes = a ++ rowBytes rows ++ b →
      PlacedAt dml a.length rows →
      ((rows.map Prod.snd).foldl
        (fun f s => (f.seek s.posStreamHeader).write (header s).toBytes) f).bytes =
        a ++ rowBytes (withHeaders header rows) ++ b := by
  induction rows with
  | nil =>
    intro f a b hf _
    exact hf
  | cons r rows ih =>
    intro f a b hf hplaced
    obtain ⟨hpos, -, hrest⟩ := hplaced
    have hcut : f.bytes = a ++ (r.1.bytes ++ (rowBytes rows ++ b)) := by
      rw [hf, rowBytes, List.flatMap_cons, ← rowBytes]
      simp only [List.append_assoc]
    have hone : ((f.seek r.2.posStreamHeader).write (header r.2).toBytes).bytes =
        (a ++ (r.1.withHeader (header r.2)).bytes) ++ rowBytes rows ++ b := by
      rw [OutFile.bytes_write, OutFile.bytes_seek, OutFile.pos_seek, hcut, hpos,
        patch_append_right (by rw [List.length_append, Row.length_bytes, Row.length]; omega),
        patch_append_left (by
          rw [Row.length_bytes, Row.length, AVISTREAMHEADER.length_toBytes]; omega),
        Row.patch_header]
      simp only [List.append_assoc]
    have hplaced' : PlacedAt dml (a ++ (r.1.withHeader (header r.2)).bytes).length rows := by
      rw [List.length_append, Row.length_bytes]
      exact hrest
    have hall := ih _ _ _ hone hplaced'
    rw [List.map_cons, List.foldl_cons, hall, withHeaders, withHeaders, List.map_cons, rowBytes,
      rowBytes, List.flatMap_cons]
    simp only [List.append_assoc]

/-! ## Lengths and places -/

theorem length_rowBytes_withSupers {rows : List RowOf} (h : SupersFit rows) (pos : Nat) :
    (rowBytes (withSupers pos rows)).length = (rowBytes rows).length := by
  induction rows generalizing pos with
  | nil => rfl
  | cons r rows ih =>
    have hroom := h r (List.mem_cons_self ..)
    rw [← length_superBytes pos] at hroom
    rw [withSupers, rowBytes, rowBytes, List.flatMap_cons, List.flatMap_cons, ← rowBytes, ← rowBytes,
      List.length_append, List.length_append, Row.length_bytes, Row.length_bytes,
      Row.length_withSuper _ hroom, ih fun r' hr' => h r' (List.mem_cons_of_mem _ hr')]

theorem length_rowBytes_withHeaders (header : AviStream → AVISTREAMHEADER) (rows : List RowOf) :
    (rowBytes (withHeaders header rows)).length = (rowBytes rows).length := by
  induction rows with
  | nil => rfl
  | cons r rows ih =>
    rw [withHeaders, List.map_cons, ← withHeaders, rowBytes, rowBytes, List.flatMap_cons,
      List.flatMap_cons, ← rowBytes, ← rowBytes, List.length_append, List.length_append,
      Row.length_bytes, Row.length_bytes, ih]
    rfl

theorem PlacedAt.withSupers {dml : Bool} {rows : List RowOf} {off : Nat} (h : PlacedAt dml off rows)
    (hfit : SupersFit rows) (pos : Nat) : PlacedAt dml off (withSupers pos rows) := by
  induction rows generalizing off pos with
  | nil => trivial
  | cons r rows ih =>
    obtain ⟨hheader, hsuper, hrest⟩ := h
    have hroom := hfit r (List.mem_cons_self ..)
    rw [← length_superBytes pos] at hroom
    refine ⟨hheader, hsuper, ?_⟩
    rw [Row.length_withSuper _ hroom]
    exact ih hrest (fun r' hr' => hfit r' (List.mem_cons_of_mem _ hr')) _

theorem map_snd_withSupers (pos : Nat) (rows : List RowOf) :
    (withSupers pos rows).map Prod.snd = rows.map Prod.snd := by
  induction rows generalizing pos with
  | nil => rfl
  | cons r rows ih => rw [withSupers, List.map_cons, List.map_cons, ih]

/-! ## The rows of a recording -/

namespace AviConfig

variable (c : AviConfig)

/-- The list of a stream as `open` writes it. -/
def row (s : AviStream) : Row where
  header := s.avisHeader.toBytes
  format := streamFormat c.writer.bitmapInfo c.writer.waveFormat s.streamType
  super := List.replicate (reserved c.openDML c.slots) 0
  length_header := AVISTREAMHEADER.length_toBytes _

/-- The lists of all streams, with the streams of the writer. -/
def rows (w : AviWriter) : List RowOf :=
  List.zipWith (fun s₀ s => (c.row s₀, s)) c.writer.streams w.streams

theorem row_length (s : AviStream) : (c.row s).length = strlLength c.openDML c.slots s := by
  simp only [Row.length, row, length_streamFormat, List.length_replicate, strlLength]

theorem rows_spec (ss ts : List AviStream) (off i : Nat)
    (h : ts.map AviStream.place =
      (openedStreams c.openDML c.slots off i ss).map AviStream.place) :
    (List.zipWith (fun s₀ s => (c.row s₀, s)) ss ts).map Prod.snd = ts ∧
      rowBytes (List.zipWith (fun s₀ s => (c.row s₀, s)) ss ts) =
        openedStrls c.writer.bitmapInfo c.writer.waveFormat c.openDML c.slots ss ∧
      PlacedAt c.openDML off (List.zipWith (fun s₀ s => (c.row s₀, s)) ss ts) := by
  induction ss generalizing ts off i with
  | nil =>
    rw [openedStreams, List.map_nil, List.map_eq_nil_iff] at h
    subst h
    exact ⟨rfl, rfl, trivial⟩
  | cons s₀ ss ih =>
    cases ts with
    | nil => simp [openedStreams] at h
    | cons s ts =>
      rw [openedStreams, List.map_cons, List.map_cons, List.cons.injEq] at h
      obtain ⟨hplace, hrest⟩ := h
      obtain ⟨hsnd, hbytes, hplaced⟩ := ih ts _ _ hrest
      have hheader : s.posStreamHeader =
          (openedStream c.openDML c.slots off i s₀).posStreamHeader := by
        have h := congrArg AviStream.posStreamHeader hplace
        exact h
      have hsuper : s.posOdmlSuperIdx =
          (openedStream c.openDML c.slots off i s₀).posOdmlSuperIdx := by
        have h := congrArg AviStream.posOdmlSuperIdx hplace
        exact h
      refine ⟨?_, ?_, ?_, ?_, ?_⟩
      · rw [List.zipWith_cons_cons, List.map_cons, hsnd]
      · rw [List.zipWith_cons_cons, rowBytes, List.flatMap_cons, ← rowBytes, hbytes]
        rfl
      · rw [hheader]
        cases c.openDML <;> rfl
      · intro hd
        rw [hsuper, hd]
        show off + 80 + formatLength s₀.streamType = off + 80 + List.length (streamFormat _ _ _)
        rw [length_streamFormat]
      · rw [row_length]
        exact hplaced

end AviConfig

/-! ## The closed file -/

section

variable {c : AviConfig} {w : AviWriter} {placed : List Placement}

theorem Layout.rows_spec (h : Layout c w placed) :
    (c.rows w).map Prod.snd = w.streams ∧ rowBytes (c.rows w) = c.head.strls ∧
      PlacedAt c.openDML 88 (c.rows w) := by
  have hplaces := h.places
  have hopened : c.writer.opened.streams =
      openedStreams c.openDML c.slots 88 0 c.writer.streams := by
    rw [← c.writer_openDML]
    rfl
  rw [hopened] at hplaces
  obtain ⟨hsnd, hbytes, hplaced⟩ := c.rows_spec _ _ 88 0 hplaces
  refine ⟨hsnd, ?_, hplaced⟩
  rw [AviConfig.rows, hbytes, ← c.writer_openDML]
  rfl

/-- The lists of the streams in the closed file. -/
def closedRows (c : AviConfig) (w : AviWriter) : List RowOf :=
  withHeaders w.closedHeader (if c.openDML then withSupers w.f.bytes.length (c.rows w) else c.rows w)

/-- The standard indexes, if there are any. -/
def closedIndexes (c : AviConfig) (w : AviWriter) : Bytes :=
  if c.openDML then allIndexes (c.rows w) else []

/-- The head of the closed file, but for its two sizes. -/
def closedHead (c : AviConfig) (w : AviWriter) : Head where
  riff := 0
  avih := w.avimHeader.toBytes
  strls := rowBytes (closedRows c w)
  odml := if c.openDML then odmlList (odmlExtendedAVIHeader w.totalFrames ++ List.replicate 244 0)
    else []
  movi := 0
  length_avih := w.length_avih

theorem closedHead_odml (c : AviConfig) (w : AviWriter) : (closedHead c w).odml =
    if c.openDML then odmlList (odmlExtendedAVIHeader w.totalFrames ++ List.replicate 244 0)
    else [] := rfl

theorem AviConfig.head_odml (c : AviConfig) :
    c.head.odml = if c.openDML then odmlList (List.replicate 248 0) else [] := by
  rw [AviConfig.head, AviWriter.openedHead_odml, c.writer_openDML]

/-- The chunks of a section of the closed file: the last has the indexes. -/
def closedBody (c : AviConfig) (w : AviWriter) (placed : List Placement) (k : Nat) : Bytes :=
  c.bodyOf placed k ++ if k = w.riffIdx then closedIndexes c w else []

/-- The super indexes fit, if there are any. -/
def RoomForIndexes (c : AviConfig) (w : AviWriter) : Prop :=
  c.openDML = true → SupersFit (c.rows w)

theorem length_closedRows (h : Layout c w placed) (hfit : RoomForIndexes c w) :
    (rowBytes (closedRows c w)).length = c.head.strls.length := by
  rw [closedRows, length_rowBytes_withHeaders]
  split
  · rename_i hd
    rw [length_rowBytes_withSupers (hfit hd), h.rows_spec.2.1]
  · rw [h.rows_spec.2.1]

theorem length_closedHead (h : Layout c w placed) (hfit : RoomForIndexes c w) :
    (closedHead c w).bytes.length = c.head.bytes.length := by
  have hodml : (closedHead c w).odml.length = c.head.odml.length := by
    rw [closedHead_odml, c.head_odml]
    split <;> rfl
  rw [Head.length_bytes, Head.length_bytes, hodml]
  show 100 + (rowBytes (closedRows c w)).length + _ = _
  rw [length_closedRows h hfit]

/-- The patches of the two headers in front. -/
def mainHeaders (w : AviWriter) : OutFile :=
  let f := (w.f.seek w.posAviMainHeader).write w.avimHeader.toBytes
  if w.openDML then (f.seek w.posOdmlExt).write (odmlExtendedAVIHeader w.totalFrames) else f

theorem mainHeaders_bytes (h : Layout c w placed) {hd : Head} {rest : Bytes}
    (hbytes : w.f.bytes = hd.bytes ++ rest) (hstrls : hd.strls = c.head.strls)
    (hodml : hd.odml = c.head.odml) :
    (mainHeaders w).bytes = { hd with
      avih := w.avimHeader.toBytes
      odml := (closedHead c w).odml
      length_avih := AVIMAINHEADER.length_toBytes _ }.bytes ++ rest := by
  have hmain : w.posAviMainHeader = 24 := congrArg AviWriter.posAviMainHeader h.settings
  have hdml : w.openDML = c.openDML :=
    (congrArg AviWriter.openDML h.settings).trans c.writer_openDML
  let hd₁ : Head :=
    { hd with avih := w.avimHeader.toBytes, length_avih := AVIMAINHEADER.length_toBytes _ }
  have hpatch : ((w.f.seek w.posAviMainHeader).write w.avimHeader.toBytes).bytes =
      hd₁.bytes ++ rest := by
    rw [OutFile.bytes_write, OutFile.bytes_seek, OutFile.pos_seek, hmain, hbytes,
      patch_append_left (by
        rw [hd.length_bytes, AVIMAINHEADER.length_toBytes]; omega), Head.patch_avih]
  unfold mainHeaders
  cases hd' : c.openDML with
  | false =>
    have hnone : hd.odml = (closedHead c w).odml := by
      rw [hodml, c.head_odml, closedHead_odml, hd', if_neg Bool.false_ne_true,
        if_neg Bool.false_ne_true]
    rw [hdml, hd', if_neg Bool.false_ne_true, hpatch, ← hnone]
  | true =>
    have hext : w.posOdmlExt = 88 + hd₁.strls.length + 20 := by
      have hopen : w.posOdmlExt = if c.writer.openDML then 108 + c.head.strls.length
          else c.writer.posOdmlExt := congrArg AviWriter.posOdmlExt h.settings
      rw [c.writer_openDML, hd', if_pos rfl] at hopen
      show _ = 88 + hd.strls.length + 20
      rw [hopen, hstrls]
      omega
    have hlist : hd₁.odml = odmlList (List.replicate 248 0) := by
      show hd.odml = _
      rw [hodml, c.head_odml, hd', if_pos rfl]
    have hext4 : (odmlExtendedAVIHeader w.totalFrames).length = 4 := length_le_bytes _ _
    have hroom : 20 + (odmlExtendedAVIHeader w.totalFrames).length ≤ hd₁.odml.length := by
      rw [hlist, length_odmlList, List.length_replicate, hext4]
      omega
    have hzeros : odmlList (List.replicate 248 0) = ((fourcc "LIST").bytes ++ le 4 260 ++
        (fourcc "odml").bytes ++ (fourcc "dmlh").bytes ++ le 4 248) ++ List.replicate 4 0 ++
          List.replicate 244 0 := by
      rw [odmlList, show (248 : Nat) = 4 + 244 from rfl, List.replicate_add]
      simp only [List.append_assoc]
    have hfilled : patch hd₁.odml 20 (odmlExtendedAVIHeader w.totalFrames) =
        (closedHead c w).odml := by
      rw [hlist, hzeros, closedHead_odml, hd', if_pos rfl, patch_middle (p := 20)]
      · rw [odmlList]
        simp only [List.append_assoc]
      · rfl
      · rw [hext4, List.length_replicate]
    have hodmlPatch := hd₁.patch_odml hroom
    have hlen := hd₁.length_bytes
    rw [hdml, hd', if_pos rfl, OutFile.bytes_write, OutFile.bytes_seek, OutFile.pos_seek, hpatch,
      hext, patch_append_left (by omega), hodmlPatch, hfilled]

/-- The file when all headers are filled in, and the indexes are behind it. -/
def filledIn (w : AviWriter) : OutFile :=
  let f := if w.openDML then w.streams.foldl closeStream (mainHeaders w) else mainHeaders w
  w.streams.foldl (fun f s => (f.seek s.posStreamHeader).write (w.closedHeader s).toBytes) f

theorem filledIn_bytes (h : Layout c w placed) (hfit : RoomForIndexes c w) {hd : Head} {rest : Bytes}
    (hbytes : w.f.bytes = hd.bytes ++ rest) (hstrls : hd.strls = c.head.strls)
    (hodml : hd.odml = c.head.odml) :
    (filledIn w).bytes = { hd with
      avih := w.avimHeader.toBytes
      strls := (closedHead c w).strls
      odml := (closedHead c w).odml
      length_avih := AVIMAINHEADER.length_toBytes _ }.bytes ++ (rest ++ closedIndexes c w) := by
  have hdml : w.openDML = c.openDML :=
    (congrArg AviWriter.openDML h.settings).trans c.writer_openDML
  obtain ⟨hsnd, hrows, hplaced⟩ := h.rows_spec
  have hmain := mainHeaders_bytes h hbytes hstrls hodml
  -- the head before the streams are filled in, cut at the streams
  let hd₁ : Head := { hd with
    avih := w.avimHeader.toBytes
    odml := (closedHead c w).odml
    length_avih := AVIMAINHEADER.length_toBytes _ }
  have hcut : (mainHeaders w).bytes =
      hd₁.front ++ rowBytes (c.rows w) ++ (hd₁.odml ++ hd₁.back ++ rest) := by
    rw [hmain, hrows, ← hstrls]
    show hd₁.bytes ++ rest = hd₁.front ++ hd₁.strls ++ (hd₁.odml ++ hd₁.back ++ rest)
    simp only [Head.bytes, List.append_assoc]
  have hfront : hd₁.front.length = 88 := hd₁.length_front
  -- and after
  have hnew : { hd with
      avih := w.avimHeader.toBytes
      strls := (closedHead c w).strls
      odml := (closedHead c w).odml
      length_avih := AVIMAINHEADER.length_toBytes _ }.bytes ++ (rest ++ closedIndexes c w) =
      hd₁.front ++ rowBytes (closedRows c w) ++ (hd₁.odml ++ hd₁.back ++ rest) ++
        closedIndexes c w := by
    have hlen : (closedHead c w).strls.length = hd.strls.length := by
      rw [hstrls]
      exact length_closedRows h hfit
    simp only [Head.bytes, Head.front, Head.back, hd₁, hlen, List.append_assoc]
    rfl
  rw [hnew]
  unfold filledIn closedRows closedIndexes
  cases hd' : c.openDML with
  | false =>
    rw [hdml, hd', if_neg Bool.false_ne_true, if_neg Bool.false_ne_true, if_neg Bool.false_ne_true,
      List.append_nil, ← hsnd]
    exact headers_bytes w.closedHeader c.openDML (c.rows w) _ _ _ hcut (by rw [hfront]; exact hplaced)
  | true =>
    have hsize : (mainHeaders w).bytes.length = w.f.bytes.length := by
      have hodml' : (closedHead c w).odml.length = hd.odml.length := by
        rw [hodml, closedHead_odml, c.head_odml]
        split <;> rfl
      rw [hmain, hbytes, List.length_append, List.length_append, Head.length_bytes,
        Head.length_bytes, hodml']
    rw [hd'] at hplaced
    have hfit' := hfit hd'
    have hindexes := closeStreams_bytes (c.rows w) (mainHeaders w) _ _ hcut
      (by rw [hfront]; exact hplaced) hfit'
    rw [hsize, ← List.append_assoc] at hindexes
    rw [hdml, hd', if_pos rfl, if_pos rfl, if_pos rfl]
    rw [hsnd] at hindexes
    have hplaced' := hplaced.withSupers hfit' w.f.bytes.length
    have hall := headers_bytes w.closedHeader true (withSupers w.f.bytes.length (c.rows w))
      (w.streams.foldl closeStream (mainHeaders w)) hd₁.front
      (hd₁.odml ++ hd₁.back ++ rest ++ allIndexes (c.rows w))
      (by rw [hindexes]; simp only [List.append_assoc]) (by rw [hfront]; exact hplaced')
    rw [map_snd_withSupers, hsnd] at hall
    rw [hall]
    simp only [List.append_assoc]

/-! ## The last section -/

/-- The end of `close`, for a section that is not the first. -/
def closeAvix (w : AviWriter) : AviWriter :=
  let f := w.f.seekEnd
  let riffAvixMoviSize := f.pos - w.posMoviListSize - 4
  let f := ((f.seek w.posMoviListSize).write (le 4 riffAvixMoviSize)).seekEnd
  let riffAvixSize := f.pos - w.posRIFFSize - 4
  { w with f := (f.seek w.posRIFFSize).write (le 4 riffAvixSize) }

theorem close_eq (w : AviWriter) : w.close =
    if w.riffIdx = 0 then finishOld { w with f := filledIn w } else
      closeAvix { w with f := filledIn w } := by
  unfold AviWriter.close filledIn mainHeaders
  cases hd : w.openDML <;> rfl

/-- The sizes of the last section. -/
theorem closeAvix_bytes {a b : Bytes} (hb : w.f.bytes = a ++ avixHeader 0 0 ++ b)
    (hr : w.posRIFFSize = a.length + 4) (hm : w.posMoviListSize = a.length + 16) :
    (closeAvix w).f.bytes = a ++ avix b := by
  have hend : w.f.bytes.length = a.length + 24 + b.length := by
    rw [hb, List.length_append, List.length_append, length_avixHeader]
  have hmovi : w.f.bytes.length - w.posMoviListSize - 4 = 4 + b.length := by omega
  have hriff : w.f.bytes.length - w.posRIFFSize - 4 = 16 + b.length := by omega
  have hcut : w.f.bytes = (a ++ (fourcc "RIFF").bytes ++ le 4 0 ++ (fourcc "AVIX").bytes ++
      (fourcc "LIST").bytes) ++ le 4 0 ++ ((fourcc "movi").bytes ++ b) := by
    rw [hb, avixHeader]
    simp only [List.append_assoc]
  have hpm : w.posMoviListSize = (a ++ (fourcc "RIFF").bytes ++ le 4 0 ++ (fourcc "AVIX").bytes ++
      (fourcc "LIST").bytes).length := by
    rw [hm]
    simp only [List.length_append, FourCC.length_bytes, length_le_bytes]
  have hfirst : patch w.f.bytes w.posMoviListSize (le 4 (4 + b.length)) =
      (a ++ (fourcc "RIFF").bytes) ++ le 4 0 ++ ((fourcc "AVIX").bytes ++ (fourcc "LIST").bytes ++
        le 4 (4 + b.length) ++ (fourcc "movi").bytes ++ b) := by
    rw [hcut, patch_middle _ _ _ hpm (by rw [length_le_bytes, length_le_bytes])]
    simp only [List.append_assoc]
  have hsame : (patch w.f.bytes w.posMoviListSize (le 4 (4 + b.length))).length =
      w.f.bytes.length := length_patch (by rw [length_le_bytes, hm, hend]; omega)
  have hpr : w.posRIFFSize = (a ++ (fourcc "RIFF").bytes).length := by
    rw [hr, List.length_append, FourCC.length_bytes]
  show patch (patch w.f.bytes w.posMoviListSize (le 4 (w.f.bytes.length - w.posMoviListSize - 4)))
    w.posRIFFSize (le 4 ((patch w.f.bytes w.posMoviListSize
      (le 4 (w.f.bytes.length - w.posMoviListSize - 4))).length - w.posRIFFSize - 4)) = _
  rw [hmovi, hsame, hriff, hfirst, patch_middle _ _ _ hpr (by rw [length_le_bytes, length_le_bytes]),
    avix, avixHeader]
  simp only [List.append_assoc]

/-- **The closed file**, if every super index fits its room. -/
theorem closed_bytes (h : Layout c w placed) (hfit : RoomForIndexes c w) :
    w.close.f.bytes =
      (firstHead (closedHead c w) w.oldIndexEntries (closedBody c w placed 0)).bytes ++
        finishedPart w.oldIndexEntries (closedBody c w placed) w.riffIdx := by
  have hbytes := h.bytes
  have hr := h.posRIFFSize
  have hm := h.posMoviListSize
  have hheadLen := length_closedHead h hfit
  rw [close_eq]
  cases hn : w.riffIdx with
  | zero =>
    rw [hn] at hbytes hr hm
    have hfilled := filledIn_bytes h hfit hbytes rfl rfl
    have hbody : closedBody c w placed 0 = c.bodyOf placed 0 ++ closedIndexes c w := by
      rw [closedBody, if_pos hn.symm]
    rw [if_pos rfl, finishedPart, hbody]
    refine finishOld_bytes (h := closedHead c w) ?_ hr ?_
    · exact hfilled
    · show w.posMoviListSize = _
      rw [hm, hheadLen]
      rfl
  | succ n =>
    rw [hn] at hbytes hr hm
    rw [if_neg (Nat.succ_ne_zero n)] at hr ⊢
    have hfilled := filledIn_bytes h hfit hbytes rfl rfl
    have hlast : closedBody c w placed (n + 1) = c.bodyOf placed (n + 1) ++ closedIndexes c w := by
      rw [closedBody, if_pos hn.symm]
    have hbefore : ∀ k, k ≤ n → closedBody c w placed k = c.bodyOf placed k := by
      intro k hk
      rw [closedBody, if_neg (by omega), List.append_nil]
    have hpart : finishedPart w.oldIndexEntries (closedBody c w placed) n =
        finishedPart w.oldIndexEntries (c.bodyOf placed) n := finishedPart_congr hbefore
    rw [hbefore 0 (Nat.zero_le n), finishedPart, hpart, hlast, ← List.append_assoc]
    rw [openPart, List.length_append, length_avixHeader] at hr hm
    have hhead : (firstHead (closedHead c w) w.oldIndexEntries (c.bodyOf placed 0)).bytes.length =
        c.head.bytes.length := by
      rw [← hheadLen, Head.length_bytes, Head.length_bytes]
      rfl
    refine closeAvix_bytes ?_ ?_ ?_
    · show (filledIn w).bytes = _
      have hrest : openPart w.oldIndexEntries (c.bodyOf placed) (n + 1) ++ c.bodyOf placed (n + 1) ++
          closedIndexes c w = finishedPart w.oldIndexEntries (c.bodyOf placed) n ++ (avixHeader 0 0 ++
            (c.bodyOf placed (n + 1) ++ closedIndexes c w)) := by
        rw [openPart]
        simp only [List.append_assoc]
      rw [hfilled, hrest, List.append_assoc, List.append_assoc]
      have hsame : (closedHead c w).bytes.length = c.head.bytes.length := hheadLen
      congr 1
      simp only [headSoFar, firstHead, hsame]
      rfl
    · show w.posRIFFSize = _
      rw [hr, List.length_append, hhead]
      omega
    · show w.posMoviListSize = _
      rw [hm, List.length_append, hhead]
      omega

end

end Maixii.Avi
