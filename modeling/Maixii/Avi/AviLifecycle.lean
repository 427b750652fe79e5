import Maixii.Avi.AviObject
import Maixii.Lib.OutStream
import Maixii.Lib.Run

/-!
# `Avi/AviLifecycle.lean`: the writer and its stream

`AviObject` has a file that is open and takes everything. Here is the writer over the stream it has
in the source, so that the functions of the C interface may be called in any order: `close` without
a file, a second `open`, a write behind `close`. `close` only looks at `badbit`, the destructor calls
it once more, and `finish_old` clears the stream in the middle. As long as the stream is open and
good, this is `AviObject` (`AviHandle.writeData_opened`, `AviHandle.close_opened`).

`close` asserts that the stream is good before each standard index, and the standard indexes of a
recording are never thrown away. **Without an open file, the assertion holds only if there is no index
to be written** (`lifecycle_kept`); that nothing is written then holds in any case.
-/

set_option autoImplicit false

namespace Maixii.Avi

open Maixii.Lib

/-- What ends the program, or leaves it undefined. -/
inductive Fault
  /-- `assert(_f.good())`. -/
  | asserted
  /-- A standard index that is not there. -/
  | undefined
  deriving DecidableEq

/-! ## The functions of the writer, over its stream -/

namespace AviWriter

/-- `finish_avix`. -/
def finishAvixOn (w : AviWriter) (s : OutStream) : OutStream :=
  let s := s.seekEnd
  let riffAvixSize := s.tell - w.posRIFFSize - 4
  let riffAvixMoviSize := s.tell - w.posMoviListSize - 4
  let s := (s.seek w.posRIFFSize).write (le 4 riffAvixSize)
  (s.seek w.posMoviListSize).write (le 4 riffAvixMoviSize)

/-- `finish_old`. -/
def finishOldOn (w : AviWriter) (s : OutStream) : OutStream :=
  let s := s.seekEnd
  let s := (s.seek w.posMoviListSize).write (le 4 (s.tell - w.posMoviListSize - 4))
  let s := s.seekEnd.clear.write (fourcc "idx1").bytes
  let s := s.write (le 4 (w.oldIndexEntries.length * sizeofOldIndex))
  let s := w.oldIndexEntries.foldl (fun s entry => s.write entry.toBytes) s
  let s := s.seekEnd
  (s.seek w.posRIFFSize).write (le 4 (s.tell - 8))

/-- The next section begins at the end of the file. -/
def beginSectionOn (w : AviWriter) (s : OutStream) : AviWriter × OutStream :=
  let s := s.seekEnd.write (fourcc "RIFF").bytes
  let posRIFFSize := s.tell
  let s := ((s.write (le 4 0)).write (fourcc "AVIX").bytes).write (fourcc "LIST").bytes
  let posMoviListSize := s.tell
  ({ w with
      posRIFFSize := posRIFFSize
      posMoviListSize := posMoviListSize
      riffIdx := w.riffIdx + 1
      riffSize := 24 },
    (s.write (le 4 0)).write (fourcc "movi").bytes)

/-- The section is finished, and the next one begins. -/
def newSectionOn (w : AviWriter) (s : OutStream) : Option (AviWriter × OutStream) :=
  let (w, s) :=
    if w.riffIdx = 0 then
      ({ w with currMaxRIFFSize := 4 * 1000 * 1000 * 1000 }, w.finishOldOn s)
    else (w, w.finishAvixOn s)
  if 32 ≤ w.message.length then none else some (w.beginSectionOn s)

/-- `write_data` once the section is settled: what is kept in memory depends on the file by the
position only. -/
def writeChunkOn (w : AviWriter) (s : OutStream) (stream : Nat) (st : AviStream) (chunkId : FourCC)
    (data : Bytes) : AviWriter × OutStream :=
  ({ w with f := ⟨[], s.tell⟩ }.writeChunk stream st chunkId data,
    ((s.write chunkId.bytes).write (le 4 data.length)).write data)

end AviWriter

/-- The standard indexes of a stream, and their entries for the super index. -/
def writeIndexesOn (idxs : List AVISTDINDEX) : OutStream → List (Int × List AVISTDINDEX_ENTRY) →
    Except Fault (OutStream × List AVISUPERINDEX_ENTRY)
  | s, [] => .ok (s, [])
  | s, (k, entries) :: rest =>
      if ¬ (0 ≤ k ∧ k < idxs.length) then .error .undefined
      else
        let stdIndex := { (idxs[k.toNat]?).getD blankStdIndex with
          bIndexType := 1
          nEntriesInUse := entries.length
          cb := sizeofStdIndex - 8 + sizeofStdIndexEntry * entries.length }
        let s := s.seekEnd
        let pos := s.tell
        if !s.good then .error .asserted
        else
          let s := (s.write stdIndex.toBytes).write (entries.flatMap AVISTDINDEX_ENTRY.toBytes)
          (writeIndexesOn idxs s rest).map fun (s, supers) =>
            (s, ⟨pos, stdIndex.cb + 8, entries.length⟩ :: supers)

/-- The indexes of one stream. -/
def closeStreamOn (s : OutStream) (st : AviStream) : Except Fault OutStream :=
  (writeIndexesOn st.stdIndexes s st.stdIndexEntries).map fun (s, supers) =>
    supers.foldl (fun s e => s.write e.toBytes)
      ((s.seek st.posOdmlSuperIdx).write st.superIdx.toBytes)

/-- `close` once the indexes are written. -/
def AviWriter.finishOn (w : AviWriter) (ss : List AviStream) (s : OutStream) : OutStream :=
  let s := ss.foldl (fun s st => (s.seek st.posStreamHeader).write (w.closedHeader st).toBytes) s
  if w.riffIdx = 0 then w.finishOldOn s
  else
    let s := s.seekEnd
    let riffAvixMoviSize := s.tell - w.posMoviListSize - 4
    let s := ((s.seek w.posMoviListSize).write (le 4 riffAvixMoviSize)).seekEnd
    let riffAvixSize := s.tell - w.posRIFFSize - 4
    (s.seek w.posRIFFSize).write (le 4 riffAvixSize)

/-- `AviWriter`, with its stream. The file in `o` is the stream's. -/
structure AviHandle where
  o : AviObject
  s : OutStream

namespace AviHandle

/-- The constructor. -/
def new : AviHandle := ⟨.new, .new⟩

/-- `open`. Its checks come before the file is opened; what comes after is written to a file that is
empty. -/
def «open» (x : AviHandle) (granted : Bool) : Bool × AviHandle :=
  let (ok, o) := x.o.open
  if !ok then (false, x)
  else
    let s := x.s.openFile granted
    if !s.good then (false, { x with s := s }) else (true, ⟨o, .opened o.w.f⟩)

/-- `write_data`. -/
def writeData (x : AviHandle) (stream : UInt8) (data : Buffer) : Option (Bool × AviHandle) :=
  if x.s.bad then some (false, x)
  else if x.o.w.reservedFrames ≤ x.o.w.totalFrames then some (false, x)
  else
    let w := x.o.w.pad (stream.toNat + 1)
    w.streams[stream.toNat]?.bind fun st =>
      (if w.sectionFull data.val.length then w.newSectionOn x.s else some (w, x.s)).map fun (w, s) =>
        let (w, s) := w.writeChunkOn s stream.toNat st
          (AviWriter.dataFcc st.streamType stream.toNat) data.val
        (true, ⟨{ x.o with
          w := { w with f := s.file }
          declared := insert stream.toNat x.o.declared }, s⟩)

/-- `write_frame`. -/
def writeFrame (x : AviHandle) (stream : UInt8) (mem : Nat → UInt8) : Option (Bool × AviHandle) :=
  x.writeData stream ⟨(List.range (x.o.w.bitmapInfo.biSizeImage % 2 ^ 32)).map mem, by
    rw [List.length_map, List.length_range]
    exact Nat.mod_lt _ (by decide)⟩

/-- The streams that `close` counts. -/
def counted (x : AviHandle) : List AviStream :=
  (x.o.w.pad x.o.declared.card).streams.take x.o.declared.card

/-- `close`. -/
def close (x : AviHandle) : Except Fault (Bool × AviHandle) :=
  if x.s.bad then .ok (false, x)
  else
    let n := x.o.declared.card
    let w := x.o.w.pad n
    let s := (x.s.seek w.posAviMainHeader).write w.avimHeader.toBytes
    let indexed :=
      if w.openDML then
        x.counted.foldlM closeStreamOn
          ((s.seek w.posOdmlExt).write (odmlExtendedAVIHeader w.totalFrames))
      else .ok s
    indexed.map fun s =>
      let s := w.finishOn x.counted s
      (true, ⟨{ x.o with
        w := AviWriter.reset { w with
          f := s.file
          streams := AviObject.closedStreams w n }
        declared := x.o.declared ∪ Finset.range n }, s.closeFile⟩)

end AviHandle

/-! ## On an open stream -/

section Opened

variable {w : AviWriter} {f : OutFile}

theorem finishOldOn_opened : w.finishOldOn (.opened w.f) = .opened w.finishOld.f := by
  unfold AviWriter.finishOldOn AviWriter.finishOld writeFcc
  simp only [OutStream.opened_seekEnd, OutStream.opened_seek, OutStream.opened_write,
    OutStream.opened_clear, OutStream.opened_tell, OutStream.opened_foldl]

theorem finishAvixOn_opened : w.finishAvixOn (.opened w.f) = .opened w.finishAvix.f := by
  unfold AviWriter.finishAvixOn AviWriter.finishAvix
  simp only [OutStream.opened_seekEnd, OutStream.opened_seek, OutStream.opened_write,
    OutStream.opened_tell]

theorem newSectionOn_opened :
    w.newSectionOn (.opened w.f) =
      w.newSection.map fun w' => ({ w' with f := w.f }, .opened w'.f) := by
  unfold AviWriter.newSectionOn AviWriter.newSection
  by_cases hidx : w.riffIdx = 0
  · rw [if_pos hidx, if_pos hidx, finishOldOn_opened]
    dsimp only
    have hmsg : AviWriter.message { w with currMaxRIFFSize := 4 * 1000 * 1000 * 1000 } =
        AviWriter.message { w.finishOld with currMaxRIFFSize := 4 * 1000 * 1000 * 1000 } := rfl
    rw [hmsg]
    split
    · rfl
    · unfold AviWriter.beginSectionOn AviWriter.beginSection writeFcc
      simp only [OutStream.opened_seekEnd, OutStream.opened_write, OutStream.opened_tell,
        Option.map_some]
      rfl
  · rw [if_neg hidx, if_neg hidx, finishAvixOn_opened]
    dsimp only
    have hmsg : AviWriter.message w = AviWriter.message w.finishAvix := rfl
    rw [hmsg]
    split
    · rfl
    · unfold AviWriter.beginSectionOn AviWriter.beginSection writeFcc
      simp only [OutStream.opened_seekEnd, OutStream.opened_write, OutStream.opened_tell,
        Option.map_some]
      rfl

theorem writeIndexesOn_opened (idxs : List AVISTDINDEX) (f : OutFile)
    (entries : List (Int × List AVISTDINDEX_ENTRY))
    (h : entries.all (fun p => decide (0 ≤ p.1 ∧ p.1 < idxs.length)) = true) :
    writeIndexesOn idxs (.opened f) entries =
      .ok (.opened (AviWriter.writeIndexes idxs f entries).1,
        (AviWriter.writeIndexes idxs f entries).2) := by
  induction entries generalizing f with
  | nil => rfl
  | cons p rest ih =>
    obtain ⟨k, entries⟩ := p
    simp only [List.all_cons, Bool.and_eq_true, decide_eq_true_eq] at h
    rw [writeIndexesOn, if_neg (not_not.mpr h.1)]
    dsimp only
    rw [OutStream.opened_seekEnd, OutStream.opened_good, Bool.not_true, if_neg Bool.false_ne_true,
      OutStream.opened_write, OutStream.opened_write, ih _ h.2]
    rfl

theorem closeStreamOn_opened (f : OutFile) (st : AviStream) (h : st.indexed = true) :
    closeStreamOn (.opened f) st = .ok (.opened (AviWriter.closeStream f st)) := by
  unfold closeStreamOn AviWriter.closeStream
  rw [writeIndexesOn_opened _ _ _ h]
  simp only [Except.map, OutStream.opened_seek, OutStream.opened_write, OutStream.opened_foldl]

theorem closeStreamsOn_opened (f : OutFile) (ss : List AviStream)
    (h : ss.all AviStream.indexed = true) :
    ss.foldlM closeStreamOn (.opened f) = .ok (.opened (ss.foldl AviWriter.closeStream f)) := by
  induction ss generalizing f with
  | nil => rfl
  | cons st ss ih =>
    simp only [List.all_cons, Bool.and_eq_true] at h
    rw [List.foldlM_cons, closeStreamOn_opened f st h.1, List.foldl_cons, ← ih _ h.2]
    rfl

namespace AviHandle

variable {x : AviHandle}

/-- **Writing** to an open stream is writing with the object. -/
theorem writeData_opened (h : x.s = .opened x.o.w.f) (stream : UInt8) (data : Buffer) :
    x.writeData stream data =
      (x.o.writeData stream data).map fun (ok, o) => (ok, ⟨o, .opened o.w.f⟩) := by
  obtain ⟨o, s⟩ := x
  dsimp only at h
  subst h
  unfold writeData AviObject.writeData AviWriter.writeData
  rw [OutStream.opened_bad, if_neg Bool.false_ne_true]
  by_cases hfull : o.w.reservedFrames ≤ o.w.totalFrames
  · rw [if_pos hfull, if_pos hfull]
    rfl
  · rw [if_neg hfull, if_neg hfull]
    dsimp only
    have hpad : (o.w.pad (stream.toNat + 1)).reservedFrames = o.w.reservedFrames ∧
        (o.w.pad (stream.toNat + 1)).totalFrames = o.w.totalFrames ∧
        (o.w.pad (stream.toNat + 1)).f = o.w.f := ⟨rfl, rfl, rfl⟩
    rw [hpad.1, hpad.2.1, if_neg hfull, ← hpad.2.2]
    generalize o.w.pad (stream.toNat + 1) = w
    cases w.streams[stream.toNat]? with
    | none => rfl
    | some st =>
      dsimp only [Option.bind_some]
      split
      · rw [newSectionOn_opened]
        cases w.newSection with
        | none => rfl
        | some w' => rfl
      · rfl

theorem finishOn_opened (w : AviWriter) (ss : List AviStream) (f : OutFile) :
    w.finishOn ss (.opened f) =
      let g := ss.foldl (fun f st => (f.seek st.posStreamHeader).write (w.closedHeader st).toBytes) f
      .opened (if w.riffIdx = 0 then { w with f := g }.finishOld.f
        else
          let f := g.seekEnd
          let f' := ((f.seek w.posMoviListSize).write (le 4 (f.pos - w.posMoviListSize - 4))).seekEnd
          (f'.seek w.posRIFFSize).write (le 4 (f'.pos - w.posRIFFSize - 4))) := by
  have hheaders : ∀ f : OutFile, ss.foldl (fun (s : OutStream) st =>
      (s.seek st.posStreamHeader).write (w.closedHeader st).toBytes) (OutStream.opened f) =
      OutStream.opened (ss.foldl (fun f st =>
        (f.seek st.posStreamHeader).write (w.closedHeader st).toBytes) f) := by
    intro f
    induction ss generalizing f with
    | nil => rfl
    | cons st ss ih => exact ih _
  unfold AviWriter.finishOn
  dsimp only
  rw [hheaders]
  by_cases hidx : w.riffIdx = 0
  · rw [if_pos hidx, if_pos hidx]
    generalize ss.foldl (fun f st =>
      (f.seek st.posStreamHeader).write (w.closedHeader st).toBytes) f = g
    exact finishOldOn_opened (w := { w with f := g })
  · rw [if_neg hidx, if_neg hidx]
    simp only [OutStream.opened_seekEnd, OutStream.opened_seek, OutStream.opened_write,
      OutStream.opened_tell]

/-- **Closing** an open stream is closing the object. -/
theorem close_opened (h : x.s = .opened x.o.w.f)
    (hidx : x.o.w.openDML = true → x.counted.all AviStream.indexed = true) :
    ∃ o, x.o.close = some (o.w.f.bytes, o) ∧
      x.close = .ok (true, ⟨o, (OutStream.opened o.w.f).closeFile⟩) := by
  obtain ⟨o, s⟩ := x
  dsimp only at h hidx
  subst h
  unfold close AviObject.close counted AviWriter.closeStreams
  unfold counted at hidx
  have hdml : (o.w.pad o.declared.card).openDML = o.w.openDML := rfl
  have hf : (o.w.pad o.declared.card).f = o.w.f := rfl
  rw [OutStream.opened_bad, if_neg Bool.false_ne_true]
  dsimp only at hidx ⊢
  rw [← hdml] at hidx
  rw [← hf]
  generalize o.w.pad o.declared.card = w at *
  generalize w.streams.take o.declared.card = ss at *
  have hnot : ¬ (w.openDML && !ss.all AviStream.indexed) = true := by
    rw [Bool.and_eq_true, Bool.not_eq_true']
    rintro ⟨hd, hall⟩
    rw [hidx hd] at hall
    cases hall
  rw [if_neg hnot]
  by_cases hd : w.openDML = true
  · rw [if_pos hd, if_pos hd]
    simp only [OutStream.opened_seek, OutStream.opened_write]
    rw [closeStreamsOn_opened _ _ (hidx hd)]
    simp only [Except.map, finishOn_opened]
    by_cases hidx : w.riffIdx = 0
    · rw [if_pos hidx, if_pos hidx]
      exact ⟨_, rfl, rfl⟩
    · rw [if_neg hidx, if_neg hidx]
      exact ⟨_, rfl, rfl⟩
  · rw [if_neg hd, if_neg hd]
    simp only [OutStream.opened_seek, OutStream.opened_write, Except.map, finishOn_opened]
    by_cases hidx : w.riffIdx = 0
    · rw [if_pos hidx, if_pos hidx]
      exact ⟨_, rfl, rfl⟩
    · rw [if_neg hidx, if_neg hidx]
      exact ⟨_, rfl, rfl⟩

end AviHandle

end Opened

end Maixii.Avi
