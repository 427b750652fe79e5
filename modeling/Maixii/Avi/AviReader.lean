import Maixii.Avi.AviDef
import Maixii.Lib.InFile
import Maixii.Lib.Run

/-!
# `Avi/AviReader.lean`: the reader

`avilib/reader.cpp`. `open` goes through the chunks of the file in one loop that knows no nesting:
after each chunk it has sought to some position, and takes the four bytes there for the next tag.
One turn of the loop is `round`. It is given the memory that the turn takes: the buffers that are
allocated in it, and the structures on the stack. The members of a new reader are not initialized
either. In most memories `open` goes on with what it finds there; in `Memory.unset`, where the
program uses memory that was never written, or a byte outside of a buffer, the value is `none`.

`size_t` is a parameter: the chunk sizes are `uint32_t`, and what becomes of `size - sizeof(x)`
depends on its width.
-/

set_option autoImplicit false

namespace Maixii.Avi

open Maixii.Lib

/-! ## Integers -/

/-- The width of `size_t`. -/
inductive SizeT
  | bits32
  | bits64
  deriving DecidableEq

def SizeT.range : SizeT → Nat
  | .bits32 => 2 ^ 32
  | .bits64 => 2 ^ 64

/-- `size - sizeof(x)`, as a `streamoff`: it wraps in 32 bits, or goes below zero. -/
def SizeT.minus : SizeT → Nat → Nat → Int
  | .bits32, size, n => ((size + 2 ^ 32 - n) % 2 ^ 32 : Nat)
  | .bits64, size, n => (size : Int) - n

/-- A `uint64_t` as an `int64_t`. -/
def int64 (n : Nat) : Int :=
  if n % 2 ^ 64 < 2 ^ 63 then (n % 2 ^ 64 : Nat) else (n % 2 ^ 64 : Nat) - 2 ^ 64

/-- A `uint32_t` as an `int32_t`. -/
def int32 (n : Nat) : Int :=
  if n % 2 ^ 32 < 2 ^ 31 then (n % 2 ^ 32 : Nat) else (n % 2 ^ 32 : Nat) - 2 ^ 32

/-- `atoi`: white space, a sign, digits. -/
def atoi (s : Bytes) : Int :=
  let s := s.dropWhile fun c => c = 32 ∨ 9 ≤ c ∧ c ≤ 13
  let value (s : Bytes) : Nat :=
    (s.takeWhile fun c => 48 ≤ c ∧ c ≤ 57).foldl (fun n c => 10 * n + (c.toNat - 48)) 0
  match s with
  | 43 :: s => value s
  | 45 :: s => -(value s : Int)
  | s => value s

/-! ## The members -/

structure DmlIndex where
  dwChunkId : Bytes
  flags : Nat
  offset : Int
  size : Nat
  deriving DecidableEq

/-- `std::map<int32_t, std::deque<DMLINDEX>>`. -/
abbrev FrameIdxs := List (Int × List DmlIndex)

/-- `m[k]`, which is there from then on. -/
def FrameIdxs.touch (m : FrameIdxs) (k : Int) : FrameIdxs :=
  if (m.lookup k).isSome then m else m ++ [(k, [])]

def FrameIdxs.at (m : FrameIdxs) (k : Int) : List DmlIndex := (m.lookup k).getD []

/-- `m[k].push_back(x)`. -/
def FrameIdxs.push (m : FrameIdxs) (k : Int) (x : DmlIndex) : FrameIdxs :=
  (m.touch k).map fun e => if e.1 = k then (e.1, e.2 ++ [x]) else e

structure AviReader where
  f : InFile
  avimHeader : Cells
  avisHeader : List Cells
  bitmapInfo : Cells
  waveformat : Cells
  waveformatExt : Cells
  waveformatMpeg12 : Cells
  waveformatMP3 : Cells
  odmlExt : Cells
  frameIdxs : FrameIdxs
  odmlFrameIdxs : FrameIdxs
  moviOffs : List Nat
  videoStreamIdx : Nat
  useMovieOffset : Bool
  deriving DecidableEq

/-- A new reader, and the file it has opened. -/
def AviReader.new (mem : Memory) (file : Bytes) : AviReader where
  f := InFile.opened file
  avimHeader := mem.cells 0 64
  avisHeader := [mem.cells 1 64, mem.cells 2 64]
  bitmapInfo := mem.cells 3 40
  waveformat := mem.cells 4 20
  waveformatExt := mem.cells 5 44
  waveformatMpeg12 := mem.cells 6 44
  waveformatMP3 := mem.cells 7 36
  odmlExt := mem.cells 8 4
  frameIdxs := []
  odmlFrameIdxs := []
  moviOffs := []
  videoStreamIdx := 0
  useMovieOffset := false

/-- The loop of `open`: the members, and the variables. -/
structure Parser where
  r : AviReader
  size : Nat
  bAudio : Bool
  iStreamHeader : Nat
  deriving DecidableEq

/-- What a turn of the loop comes to: it goes on, it has left the loop, `open` returns `false`, or
an assertion has failed. -/
inductive Round
  | again (p : Parser)
  | left (p : Parser)
  | rejected
  | aborted
  deriving DecidableEq

/-! ## Chunks -/

/-- `_f.read((char *)&x + off, n)`. -/
def readInto (f : InFile) (m : Cells) (off n : Nat) : Option (InFile × Cells) :=
  let (bs, f) := f.read n
  (m.store off n bs).map fun m => (f, m)

namespace Parser

def withFile (p : Parser) (f : InFile) : Parser := { p with r := { p.r with f := f } }

/-- `_f.read((char *)&size, 4)`. What does not come leaves the old bytes. -/
def readSize (p : Parser) : Parser :=
  let (bs, f) := p.r.f.read 4
  { p.withFile f with size := fromLE (bs ++ (le 4 p.size).drop bs.length) }

/-- `_f.seekg(n, cur)`. -/
def seekBy (p : Parser) (n : Int) : Parser := p.withFile (p.r.f.seekBy n)

/-- `JUNK`, `ISFT`, `dmhl` and what is not known. -/
def skip (p : Parser) : Parser :=
  let p := p.readSize
  p.seekBy p.size

/-- `strn`. -/
def skipStrn (p : Parser) : Parser :=
  let p := p.readSize
  p.seekBy (SizeT.minus .bits32 p.size 4)

/-- `avih`. All fields but the reserved ones are logged. -/
def readAvih (p : Parser) : Option Round := do
  let p := p.readSize
  if p.size ≠ 64 - 8 then return .rejected
  let m ← p.r.avimHeader.store 0 8 (ascii "avih" ++ le 4 p.size)
  let (f, m) ← readInto p.r.f m 8 p.size
  let _ ← m.load 8 40
  return .again { p with r := { p.r with f := f, avimHeader := m } }

/-- `strl`, with the `strh` chunk behind it. All fields are logged. -/
def readStrl (p : Parser) : Option Round := do
  if 2 ≤ p.iStreamHeader then return .rejected
  let h ← p.r.avisHeader[p.iStreamHeader]?
  let (f, h) ← readInto p.r.f h 0 64
  let fccType ← h.load 8 4
  let _ ← h.load 12 52
  let bAudio : Bool := fccType = ascii "auds"
  return .again { p with
    r := { p.r with
      f := f
      avisHeader := p.r.avisHeader.set p.iStreamHeader h
      videoStreamIdx := if bAudio then p.r.videoStreamIdx else p.iStreamHeader }
    bAudio := bAudio
    iStreamHeader := p.iStreamHeader + 1 }

/-- A wave format that is longer than `WAVEFORMATEX`: back over that, and read it all. The fields
behind it that are logged are between `lo` and `hi`, where two bytes at 22 are padding. -/
def readLonger (f : InFile) (m : Cells) (sizeof hi : Nat) (rest : Int) :
    Option (InFile × Cells) := do
  let (f, m) ← readInto (f.seekBy (-20)) m 0 sizeof
  let _ ← m.load 20 2
  let _ ← m.load 24 (hi - 24)
  return (f.seekBy rest, m)

/-- `strf` of an audio stream. -/
def readWave (w : SizeT) (p : Parser) : Option Parser := do
  let (f, m) ← readInto p.r.f p.r.waveformat 0 (min p.size 20)
  let wFormatTag ← m.field 0 2
  let _ ← m.load 2 14
  if wFormatTag = 0xfffe then
    let (f, x) ← readLonger f p.r.waveformatExt 44 28 (w.minus p.size 44)
    return { p with r := { p.r with f := f, waveformat := m, waveformatExt := x } }
  else if wFormatTag = 0x50 then
    -- here `size` is converted first
    let (f, x) ← readLonger f p.r.waveformatMpeg12 44 44 (p.size - 44)
    return { p with r := { p.r with f := f, waveformat := m, waveformatMpeg12 := x } }
  else if wFormatTag = 0x55 then
    let (f, x) ← readLonger f p.r.waveformatMP3 36 34 (w.minus p.size 36)
    return { p with r := { p.r with f := f, waveformat := m, waveformatMP3 := x } }
  else
    return { p with r := { p.r with f := f.seekBy (w.minus p.size 20), waveformat := m } }

/-- `strf` of any other stream. `biCompression`, an array of four characters, is logged with
`%s`. -/
def readBitmap (mem : Memory) (p : Parser) : Option Parser := do
  let (f, m) ← readInto p.r.f p.r.bitmapInfo 0 (min p.size 40)
  let f := if 40 < p.size then f.seekBy (p.size - 40) else f
  let _ ← m.load 4 36
  let _ ← m.string mem.behind 16 4
  return { p with r := { p.r with f := f, bitmapInfo := m } }

/-- `strf`. -/
def readStrf (w : SizeT) (mem : Memory) (p : Parser) : Option Parser :=
  let p := p.readSize
  if p.bAudio then p.readWave w else p.readBitmap mem

/-- `movi`. `size` is that of the last chunk that had one. -/
def readMovi (w : SizeT) (p : Parser) : Parser :=
  let p := { p with r := { p.r with moviOffs := p.r.moviOffs ++ [(p.r.f.tell - 4).toNat % w.range] } }
  p.seekBy (SizeT.minus .bits32 p.size 4)

/-- The loop over `n` entries of the old index. A chunk id, an array of four characters, is taken
for a string that ends with a zero. -/
def oldIndexes (mem : Memory) : Nat → Cells → FrameIdxs → Option FrameIdxs
  | 0, _, frames => some frames
  | n + 1, buf, frames => do
      let e ← buf.load 0 16
      if e.take 4 = ascii "rec " then oldIndexes mem n (buf.drop 16) frames
      else
        let fcc ← buf.string mem.behind 0 4
        oldIndexes mem n (buf.drop 16) (frames.push (atoi (fcc.take 2))
          ⟨e.take 4, fromLE (readAt e 4 4), fromLE (readAt e 8 4), fromLE (readAt e 12 4)⟩)

/-- `idx1`. -/
def readIdx1 (mem : Memory) (p : Parser) : Option Parser := do
  let p := p.readSize
  let (bs, f) := p.r.f.read p.size
  let buf ← (mem.cells 0 p.size).store 0 p.size bs
  let frames ← oldIndexes mem (bs.length / sizeofOldIndex) buf p.r.frameIdxs
  return { p with r := { p.r with f := f, frameIdxs := frames }, size := bs.length }

/-- `dmlh`. -/
def readDmlh (w : SizeT) (p : Parser) : Option Parser := do
  let p := p.readSize
  let (f, m) ← readInto p.r.f p.r.odmlExt 0 4
  let _ ← m.load 0 4
  return { p with r := { p.r with f := f.seekBy (w.minus p.size 4), odmlExt := m } }

/-- The entries of a super index. -/
def readEntries : Nat → Memory → InFile → Option (List Cells × InFile)
  | 0, _, f => some ([], f)
  | n + 1, mem, f => do
      let (f, entry) ← readInto f (mem.cells 0 16) 0 16
      let (entries, f) ← readEntries n (mem.after 1) f
      return (entry :: entries, f)

/-- The loop over `n` entries of a standard index. The size of each is compared with that of the
picture, to no effect. -/
def stdIndexEntries (bitmapInfo : Cells) : Nat → Cells → Bytes → Nat → Option (List DmlIndex)
  | 0, _, _, _ => some []
  | n + 1, buf, dwChunkId, qwBaseOffset => do
      let dwOffset ← buf.field 0 4
      let dwSize ← buf.field 4 4
      let _biSizeImage ← bitmapInfo.field 20 4
      let rest ← stdIndexEntries bitmapInfo n (buf.drop 8) dwChunkId qwBaseOffset
      return ⟨dwChunkId, 0, int64 (qwBaseOffset + dwOffset), dwSize % 2 ^ 31⟩ :: rest

/-- The chunk ids a standard index may have. -/
def allowed : List Bytes :=
  ["00dc", "00db", "01dc", "01db", "00wb", "01wb"].map ascii

/-- The `AVISTDINDEX` at the position of the file: it has been set to zero, and what the file does
not have of it stays so. -/
def stdIndexAt (f : InFile) : Bytes × InFile :=
  let (bs, f) := f.read sizeofStdIndex
  (bs ++ List.replicate (sizeofStdIndex - bs.length) 0, f)

/-- One entry of a super index, and the standard index it points to. -/
def readStdIndex (bitmapInfo : Cells) (streamIdx : Int) (mem : Memory) (f : InFile)
    (frames : FrameIdxs) (entry : Cells) : Option (InFile × FrameIdxs) := do
  let qwOffset ← entry.field 0 8
  let (x, f) := stdIndexAt (f.seekTo (int64 qwOffset))
  let dwChunkId := readAt x 16 4
  if dwChunkId = ascii "rec " then return (f, frames)
  else if dwChunkId ∈ allowed then
    let cb := fromLE (readAt x 4 4)
    let (bs, f) := f.read cb
    let buf ← (mem.cells 0 cb).store 0 cb bs
    let new ← stdIndexEntries bitmapInfo (fromLE (readAt x 12 4)) buf dwChunkId
      (fromLE (readAt x 20 8))
    return (f.clear, new.foldl (fun frames e => frames.push streamIdx e) frames)
  else return (f.clear, frames)

/-- The standard indexes of a super index. -/
def readStdIndexes (bitmapInfo : Cells) (streamIdx : Int) :
    Memory → InFile → FrameIdxs → List Cells → Option (InFile × FrameIdxs)
  | _, f, frames, [] => some (f, frames)
  | mem, f, frames, entry :: entries => do
      let (f, frames) ← readStdIndex bitmapInfo streamIdx mem f frames entry
      readStdIndexes bitmapInfo streamIdx (mem.after 1) f frames entries

/-- The super index behind the size: the number of its stream, and its entries. `none` inside is
the failed assertion. -/
def readSuperIndex (mem : Memory) (p : Parser) :
    Option (Option (Int × List Cells × InFile)) := do
  let m ← (mem.cells 0 sizeofSuperIndex).store 0 8 (ascii "indx" ++ le 4 p.size)
  let (f, m) ← readInto p.r.f m 8 (sizeofSuperIndex - 8)
  let fcc ← m.string mem.behind 16 4
  let bIndexSubType ← m.field 10 1
  if bIndexSubType ≠ 0 then return none
  let _ ← m.field 11 1
  let nEntriesInUse ← m.field 12 4
  let (entries, f) ← readEntries nEntriesInUse (mem.after 1) f
  return some (atoi (fcc.take 2), entries, f)

/-- `indx`. -/
def readIndx (mem : Memory) (p : Parser) : Option Round := do
  let p := p.readSize
  let superindexEnd : Int := p.r.f.tell + p.size
  match ← p.readSuperIndex mem with
  | none => return .aborted
  | some (streamIdx, entries, f) =>
      let (f, frames) ← readStdIndexes p.r.bitmapInfo streamIdx (mem.after (1 + entries.length)) f
        p.r.odmlFrameIdxs entries
      return .again { p with
        r := { p.r with f := f.clear.seekTo superindexEnd, odmlFrameIdxs := frames } }

/-- `vprp`. -/
def readVprp (w : SizeT) (mem : Memory) (p : Parser) : Option Parser := do
  let p := p.readSize
  let (f, m) ← readInto p.r.f (mem.cells 0 36) 0 (min p.size 36)
  let nbFieldPerFrame ← m.field 32 4
  let (f, _) ← readInto f (mem.cells 1 (32 * nbFieldPerFrame % w.range)) 0
    (32 * nbFieldPerFrame % w.range)
  return p.withFile f

/-- The chunk behind a tag. -/
def chunk (w : SizeT) (mem : Memory) (tag : Bytes) (p : Parser) : Option Round :=
  if tag = ascii "JUNK" then some (.again p.skip)
  else if tag = ascii "RIFF" then some (.again p.readSize)
  else if tag = ascii "AVI " then some (.again p)
  else if tag = ascii "AVIX" then some (.again p)
  else if tag = ascii "LIST" then some (.again p.readSize)
  else if tag = ascii "hdrl" then some (.again p)
  else if tag = ascii "avih" then p.readAvih
  else if tag = ascii "strl" then p.readStrl
  else if tag = ascii "strh" then some (.again p)
  else if tag = ascii "strf" then (p.readStrf w mem).map .again
  else if tag = ascii "INFO" then some (.again p)
  else if tag = ascii "ISFT" then some (.again p.skip)
  else if tag = ascii "strn" then some (.again p.skipStrn)
  else if tag = ascii "movi" then some (.again (p.readMovi w))
  else if tag = ascii "idx1" then (p.readIdx1 mem).map .again
  else if tag = ascii "odml" then some (.again p)
  else if tag = ascii "dmlh" then (p.readDmlh w).map .again
  else if tag = ascii "dmhl" then some (.again p.skip)
  else if tag = ascii "indx" then p.readIndx mem
  else if tag = ascii "vprp" then (p.readVprp w mem).map .again
  else if tag = ascii "Tdat" then some (.again p)
  else some (.again p.skip)

/-- One turn of the loop. -/
def round (w : SizeT) (mem : Memory) (p : Parser) : Option Round :=
  if p.r.f.good then
    let (tag, f) := p.r.f.read 4
    if f.fail then some (.left (p.withFile f)) else chunk w mem tag (p.withFile f)
  else some (.left p)

/-- What `open` does behind the loop: the members, and what it returns. -/
def finish (p : Parser) : AviReader × Bool :=
  let r := if p.r.odmlFrameIdxs ≠ [] then
      { p.r with frameIdxs := p.r.odmlFrameIdxs, odmlFrameIdxs := p.r.frameIdxs }
    else p.r
  ({ r with f := r.f.clear.seekTo 0 }, r.moviOffs ≠ [])

/-- The loop begins. -/
def start (mem : Memory) (file : Bytes) : Parser := ⟨AviReader.new mem file, 0, false, 0⟩

/-- A turn after which the loop goes on. -/
def next (w : SizeT) (mem : Memory) (p : Parser) : Option Parser :=
  match p.round w mem with
  | some (.again p) => some p
  | _ => none

end Parser

/-- The turns of the loop in `open`, each in a memory of its own: whatever `open` finds where it
has not written, it goes on with that. -/
def parsing (w : SizeT) (file : Bytes) : System Parser Memory :=
  System.ofStep (fun p => ∃ mem, p = Parser.start mem file) fun p mem => p.next w mem

/-- `open` accepts the file, and leaves this reader. -/
def Accepted (w : SizeT) (file : Bytes) (r : AviReader) : Prop :=
  ∃ p mem p', Reach (parsing w file) (anyStep _ _) p ∧ p.round w mem = some (.left p') ∧
    p'.finish = (r, true)

/-! ## Queries -/

namespace AviReader

/-- `read_frame` tries without an offset, unless it has found its last frame with one: the file,
`tag_size`, and whether the tag is there. -/
def tryOwn (r : AviReader) (e : DmlIndex) : Option (InFile × Cells × Bool) :=
  if r.useMovieOffset then some (r.f, Cells.unset 8, false)
  else do
    let (f, tag) ← readInto (r.f.clear.seekTo e.offset) (Cells.unset 8) 0 8
    let id ← tag.load 0 4
    return (f, tag, decide (id = e.dwChunkId))

/-- Then it tries with the offset of `movi`. Otherwise there is probably no chunk header. -/
def tryMovie (r : AviReader) (e : DmlIndex) (f : InFile) (tag : Cells) :
    Option (InFile × Bool) := do
  let ui64_moviOffset ← r.moviOffs[0]?
  let (f, tag) ← readInto (f.seekTo (int64 ((e.offset + ui64_moviOffset) % 2 ^ 64).toNat)) tag 0 8
  let id ← tag.load 0 4
  return if id = e.dwChunkId then (f, true) else (f.seekTo e.offset, false)

/-- The file at the data of a frame, and what becomes of `m_useMovieOffset`. -/
def find (r : AviReader) (e : DmlIndex) : Option (InFile × Bool) := do
  let (f, tag, found) ← r.tryOwn e
  if found then return (f, r.useMovieOffset) else r.tryMovie e f tag

/-- A frame that is not empty. -/
def fetch (r : AviReader) (e : DmlIndex) : Option (Int × Bytes × AviReader) := do
  let (f, use) ← r.find e
  let (bs, f) := f.read e.size
  return (int32 bs.length, bs, { r with f := f, useMovieOffset := use })

/-- `read_frame`: what it returns, and what it has stored at `p_data`. -/
def readFrame (r : AviReader) (idx stream : Nat) : Option (Int × Bytes × AviReader) :=
  let r := { r with frameIdxs := r.frameIdxs.touch (int32 stream) }
  match (r.frameIdxs.at (int32 stream))[idx]? with
  | none => some (0, [], r)
  | some e => if e.size = 0 then some (1, [], r) else r.fetch e

/-- `getFrameCount`. -/
def getFrameCount (r : AviReader) (stream : Nat) : Nat × AviReader :=
  let r := { r with frameIdxs := r.frameIdxs.touch (int32 stream) }
  ((r.frameIdxs.at (int32 stream)).length % 2 ^ 32, r)

/-- `getStreamCount`. -/
def getStreamCount (r : AviReader) : Nat := r.frameIdxs.length % 2 ^ 32

/-- `getAllocSize`. -/
def getAllocSize (r : AviReader) (stream : Nat) : Option (Nat × AviReader) := do
  let r := { r with frameIdxs := r.frameIdxs.touch (int32 stream) }
  let largest := (r.frameIdxs.at (int32 stream)).foldl (fun n e => max n e.size) 0
  let suggested ←
    if stream = r.videoStreamIdx then r.bitmapInfo.field 20 4
    else do
      let h ← r.avisHeader[stream]?
      h.field 44 4
  return (max largest suggested, r)

end AviReader

end Maixii.Avi
