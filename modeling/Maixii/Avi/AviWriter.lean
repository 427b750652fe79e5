import Maixii.Avi.AviDef
import Maixii.Lib.Scan

/-!
# `Avi/AviWriter.lean`: the writer

`avilib/writer.{h,cpp}`. `open` writes the headers and reserves room for what is not known yet,
`write_data` appends chunks and keeps the indexes in memory, `close` writes the indexes and goes
back to fill in the counts. Sizes are patched by seeking: every section of the file is a `RIFF`
chunk whose two size fields are zero until the next section begins or the file is closed.

The maps keyed by stream number are one list of records, filled up with the entries that the maps
make up; which of the numbers are keys is in `Avi/AviObject.lean`. The positions are as `tellp`
reports them. A counter of the source has 32 bits, and the places where it may wrap say `% 2 ^ 32`.

`none` is undefined behaviour, a log message that overflows its 32 characters; or there is no entry
for the stream, which cannot be when it is an object that writes.
-/

set_option autoImplicit false

namespace Maixii.Avi

open Maixii.Lib

/-- `avilib_streamtype_t`. -/
inductive StreamType
  | unknown | video | audio
  deriving DecidableEq, Repr

/-- What the writer keeps of one stream. -/
structure AviStream where
  streamType : StreamType
  avisHeader : AVISTREAMHEADER
  posStreamHeader : Nat
  posOdmlSuperIdx : Nat
  superIdx : AVISUPERINDEX
  stdIndexes : List AVISTDINDEX
  /-- By number of the standard index, in order. -/
  stdIndexEntries : List (Int × List AVISTDINDEX_ENTRY)
  deriving DecidableEq

structure AviWriter where
  f : OutFile
  posRIFFSize : Nat
  posMoviListSize : Nat
  posOdmlExt : Nat
  pos1stMoviStart : Nat
  posAviMainHeader : Nat
  streams : List AviStream
  oldIndexEntries : List AVIOLDINDEX
  avimHeader : AVIMAINHEADER
  bitmapInfo : BITMAPINFO
  waveFormat : WAVEFORMATEXTENSIBLE
  openDML : Bool
  videoStreamIdx : Option Nat
  reservedFrames : Nat
  riffIdx : Nat
  riffSize : Nat
  totalFrames : Nat
  currBaseOff : Nat
  currMaxRIFFSize : Nat
  deriving DecidableEq

/-! ## Configuration -/

/-- The arguments of `setVideoProperties`; what it computes from `rateHz` in floating point is
given. -/
structure VideoProperties where
  width : Nat
  height : Nat
  codec : FourCC
  framesize : Nat
  microSecPerFrame : Nat
  maxBytesPerSec : Nat
  scale : Nat
  rate : Nat

/-- The arguments of `setAudioProperties`. -/
structure AudioProperties where
  format : Nat
  channels : Nat
  samplesPerSecond : Nat
  avgBytesPerSecond : Nat
  bitsPerSample : Nat
  blockAlign : Nat

/-- `'\0\0\0\0'`. -/
def noFcc : FourCC := ⟨0, 0, 0, 0⟩

/-- A stream header with `fcc`, `cb` and its type, and zeros. -/
def blankStreamHeader (fccType : FourCC) : AVISTREAMHEADER :=
  ⟨fourcc "strh", 56, fccType, noFcc, 0, 0, 0, 0, 0, 0, 0, 0, 0, 0, 0, 0, 0, 0, 0⟩

def blankSuperIdx : AVISUPERINDEX := ⟨noFcc, 0, 0, 0, 0, noFcc⟩

def blankStdIndex : AVISTDINDEX := ⟨noFcc, 0, 0, 0, 0, noFcc, 0⟩

/-- An entry that the maps make up. -/
def blankStream : AviStream :=
  ⟨.unknown, ⟨noFcc, 0, noFcc, noFcc, 0, 0, 0, 0, 0, 0, 0, 0, 0, 0, 0, 0, 0, 0, 0⟩, 0, 0,
    blankSuperIdx, [], []⟩

namespace AviWriter

/-- The constructor. -/
def new : AviWriter where
  f := OutFile.empty
  posRIFFSize := 0
  posMoviListSize := 0
  posOdmlExt := 0
  pos1stMoviStart := 0
  posAviMainHeader := 0
  streams := []
  oldIndexEntries := []
  avimHeader := ⟨fourcc "avih", 56, 0, 0, 0, 0x110, 0, 0, 0, 0, 0, 0⟩
  bitmapInfo := ⟨40, 0, 0, 1, 24, noFcc, 0⟩
  waveFormat := ⟨0, 0, 0, 0, 0, 0, 16, 0, 0⟩
  openDML := true
  videoStreamIdx := none
  reservedFrames := 0
  riffIdx := 0
  riffSize := 0
  totalFrames := 0
  currBaseOff := 0
  currMaxRIFFSize := 1000 * 1000 * 1000

/-- There are entries for the first `n` numbers. -/
def pad (w : AviWriter) (n : Nat) : AviWriter :=
  { w with streams := w.streams ++ List.replicate (n - w.streams.length) blankStream }

/-- A property call sets the type and the header of its stream. -/
def redeclare (w : AviWriter) (i : Nat) (t : StreamType) (header : AVISTREAMHEADER) :
    List AviStream :=
  (w.pad (i + 1)).streams.modify i fun s => { s with streamType := t, avisHeader := header }

/-- The stream header that `setVideoProperties` makes. -/
def videoHeader (p : VideoProperties) : AVISTREAMHEADER :=
  { blankStreamHeader (fourcc "vids") with
    fccHandler := p.codec
    dwScale := p.scale
    dwRate := p.rate
    dwSuggestedBufferSize := p.framesize
    dwQuality := 2 ^ 32 - 1
    right := p.width
    bottom := p.height }

/-- The stream header that `setAudioProperties` makes. -/
def audioHeader (p : AudioProperties) : AVISTREAMHEADER :=
  { blankStreamHeader (fourcc "auds") with
    dwSuggestedBufferSize := p.avgBytesPerSecond * p.channels
    dwRate := p.samplesPerSecond * p.bitsPerSample % 2 ^ 32
    dwSampleSize := p.bitsPerSample
    dwScale := p.bitsPerSample }

/-- `setVideoProperties`. `dwStreams` counts the call, also for a stream that there is already. -/
def setVideoProperties (w : AviWriter) (i : Nat) (p : VideoProperties) : AviWriter :=
  { w with
    avimHeader := { w.avimHeader with
      dwMicroSecPerFrame := p.microSecPerFrame
      dwMaxBytesPerSec := p.maxBytesPerSec
      dwSuggestedBufferSize := p.framesize
      dwWidth := p.width
      dwHeight := p.height
      dwStreams := w.avimHeader.dwStreams + 1 }
    bitmapInfo := { w.bitmapInfo with
      biWidth := p.width
      biHeight := p.height
      biCompression := p.codec
      biSizeImage := p.framesize }
    videoStreamIdx := some i
    streams := w.redeclare i .video (videoHeader p) }

/-- `setAudioProperties`. -/
def setAudioProperties (w : AviWriter) (i : Nat) (p : AudioProperties) : AviWriter :=
  { w with
    waveFormat := { w.waveFormat with
      wFormatTag := p.format
      nChannels := p.channels
      nSamplesPerSec := p.samplesPerSecond
      nAvgBytesPerSec := p.avgBytesPerSecond
      nBlockAlign := p.blockAlign
      wBitsPerSample := p.bitsPerSample
      cbSize := 0
      samples := p.blockAlign
      dwChannelMask := (List.range p.channels).foldl (fun mask i => mask ||| 1 <<< i) 0 }
    avimHeader := { w.avimHeader with dwStreams := w.avimHeader.dwStreams + 1 }
    streams := w.redeclare i .audio (audioHeader p) }

/-- `setFrameCount`. -/
def setFrameCount (w : AviWriter) (count : Nat) : AviWriter :=
  { w with reservedFrames := count % 2 ^ 32 }

/-- `openDML`. -/
def setOpenDML (w : AviWriter) (yes : Bool) : AviWriter := { w with openDML := yes }

end AviWriter

/-! ## `open` -/

/-- `STDINDEXSIZE`. -/
def stdIndexSize : Nat := 0x4000

/-- How many entries `open` takes to fit a standard index. -/
def reservedPerIndex : Nat := (stdIndexSize - sizeofStdIndex) / sizeofStdIndexEntry

/-- `num_stdIndexes`. -/
def numStdIndexes (reservedFrames : Nat) : Nat :=
  if reservedFrames ≠ 0 then (reservedFrames + reservedPerIndex - 1) / reservedPerIndex % 2 ^ 32
  else 128

/-- What the loop over the streams changes, apart from the stream. -/
structure Opening where
  f : OutFile
  reservedFrames : Nat
  openDML : Bool

/-- `"dc"` or `"wb"`, as `open` has it. -/
def openSuffix (t : StreamType) : String := if t = .audio then "wb" else "dc"

/-- `ix00` or `ix01`. -/
def indexFcc (stream : Nat) : FourCC := if stream = 1 then fourcc "ix01" else fourcc "ix00"

/-- The super index of a stream, as `open` prepares it. -/
def newSuperIdx (chunkId : FourCC) (clearsize : Nat) : AVISUPERINDEX where
  fcc := fourcc "indx"
  cb := clearsize - 8
  wLongsPerEntry := 4
  bIndexType := 0
  nEntriesInUse := 1
  dwChunkId := chunkId

/-- The bytes `open` reserves for a super index. -/
def clearsize (num : Nat) : Nat := sizeofSuperIndex + num * sizeofSuperIndexEntry

/-- The room for the super index of one stream. -/
def openSuperIdx (o : Opening) (i : Nat) (s : AviStream) : Opening × AviStream :=
  if o.openDML then
    let num := numStdIndexes o.reservedFrames
    let o :=
      if o.reservedFrames ≠ 0 then { o with openDML := num ≠ 0 }
      else { o with reservedFrames := num * reservedPerIndex }
    if o.openDML then
      ({ o with f := o.f.write (List.replicate (clearsize num) 0) },
        { s with
          superIdx := newSuperIdx (generateFcc (openSuffix s.streamType) i) (clearsize num)
          posOdmlSuperIdx := o.f.pos })
    else (o, s)
  else (o, s)

/-- A new standard index; `cb`, `bIndexType` and `nEntriesInUse` are set in `close`. -/
def newStdIndex (stream : Nat) (chunkId : FourCC) (base : Nat) : AVISTDINDEX where
  fcc := indexFcc stream
  cb := 0
  wLongsPerEntry := 2
  bIndexType := 0
  nEntriesInUse := 0
  dwChunkId := chunkId
  qwBaseOffset := base

/-- The format of a stream, with its size. -/
def streamFormat (b : BITMAPINFO) (wf : WAVEFORMATEXTENSIBLE) : StreamType → Bytes
  | .video => le 4 40 ++ b.toBytes
  | .audio => le 4 44 ++ { wf with cbSize := 24 }.toBytes
  | .unknown => []

/-- `_f.write` of a literal of four characters. -/
def writeFcc (f : OutFile) (s : String) : OutFile := f.write (fourcc s).bytes

/-- Go back to `p`, write a size, and go on where we were. -/
def patchSize (f : OutFile) (p n : Nat) : OutFile := ((f.seek p).write (le 4 n)).seek f.pos

/-- One round of the loop in `open`. -/
def openStream (o : Opening) (format : Bytes) (i : Nat) (s : AviStream) : Opening × AviStream :=
  let f := writeFcc o.f "LIST"
  let posStrlSize := f.pos
  let f := writeFcc (f.write (le 4 0)) "strl"
  let posStreamHeader := f.pos
  let f := (writeFcc (f.write s.avisHeader.toBytes) "strf").write format
  let (o, s) := openSuperIdx { o with f := f } i { s with posStreamHeader := posStreamHeader }
  ({ o with f := patchSize o.f posStrlSize (o.f.pos - posStrlSize - 4) },
    if o.openDML then
      { s with stdIndexes := s.stdIndexes ++
          [newStdIndex i (generateFcc (openSuffix s.streamType) i) 0] }
    else s)

/-- The loop in `open`. -/
def openStreams (b : BITMAPINFO) (wf : WAVEFORMATEXTENSIBLE) :
    Opening → Nat → List AviStream → Opening × List AviStream
  | o, _, [] => (o, [])
  | o, i, s :: ss =>
      let (o, s) := openStream o (streamFormat b wf s.streamType) i s
      let (o, ss) := openStreams b wf o (i + 1) ss
      (o, s :: ss)

/-- The `odml` list, and where its header is. -/
def openOdml (f : OutFile) : OutFile × Nat :=
  let f := writeFcc ((writeFcc f "LIST").write (le 4 (248 + 12))) "odml"
  let f := (writeFcc f "dmlh").write (le 4 248)
  (f.write (List.replicate 248 0), f.pos)

namespace AviWriter

/-- `open`. -/
def «open» (w : AviWriter) : Bool × AviWriter :=
  if w.streams = [] then (false, w)
  else if !w.openDML && w.reservedFrames = 0 then (false, w)
  else
    let f := writeFcc OutFile.empty "RIFF"
    let posRIFFSize := f.pos
    let f := writeFcc (writeFcc (f.write (le 4 0)) "AVI ") "LIST"
    let posHdrlSize := f.pos
    let f := writeFcc (f.write (le 4 0)) "hdrl"
    let posAviMainHeader := f.pos
    let f := f.write w.avimHeader.toBytes
    let (o, streams) := openStreams w.bitmapInfo w.waveFormat ⟨f, w.reservedFrames, w.openDML⟩ 0
      w.streams
    let (f, posOdmlExt) := if o.openDML then openOdml o.f else (o.f, w.posOdmlExt)
    let f := writeFcc (patchSize f posHdrlSize (f.pos - posHdrlSize - 4)) "LIST"
    let posMoviListSize := f.pos
    let f := f.write (le 4 0)
    let pos1stMoviStart := f.pos
    let f := writeFcc f "movi"
    (true, { w with
      f := f
      posRIFFSize := posRIFFSize
      posMoviListSize := posMoviListSize
      posOdmlExt := posOdmlExt
      pos1stMoviStart := pos1stMoviStart
      posAviMainHeader := posAviMainHeader
      streams := streams
      openDML := o.openDML
      reservedFrames := o.reservedFrames
      riffSize := (f.pos + sizeofOldIndex) % 2 ^ 32
      totalFrames := 0
      currBaseOff := 0 })

/-! ## `write_data` -/

/-- `finish_avix`. -/
def finishAvix (w : AviWriter) : AviWriter :=
  let f := w.f.seekEnd
  let riffAvixSize := f.pos - w.posRIFFSize - 4
  let riffAvixMoviSize := f.pos - w.posMoviListSize - 4
  let f := (f.seek w.posRIFFSize).write (le 4 riffAvixSize)
  { w with f := (f.seek w.posMoviListSize).write (le 4 riffAvixMoviSize) }

/-- `finish_old`. -/
def finishOld (w : AviWriter) : AviWriter :=
  let f := w.f.seekEnd
  let f := (f.seek w.posMoviListSize).write (le 4 (f.pos - w.posMoviListSize - 4))
  let f := writeFcc f.seekEnd "idx1"
  let f := f.write (le 4 (w.oldIndexEntries.length * sizeofOldIndex))
  let f := w.oldIndexEntries.foldl (fun f entry => f.write entry.toBytes) f
  let f := f.seekEnd
  { w with f := (f.seek w.posRIFFSize).write (le 4 (f.pos - 8)) }

/-- `"#%u: RIFFSize = %u"`. -/
def message (w : AviWriter) : Bytes :=
  ascii "#" ++ decimal w.totalFrames ++ ascii ": RIFFSize = " ++ decimal w.riffSize

/-- The next section begins at the end of the file. -/
def beginSection (w : AviWriter) : AviWriter :=
  let f := writeFcc w.f.seekEnd "RIFF"
  let posRIFFSize := f.pos
  let f := writeFcc (writeFcc (f.write (le 4 0)) "AVIX") "LIST"
  let posMoviListSize := f.pos
  { w with
    f := writeFcc (f.write (le 4 0)) "movi"
    posRIFFSize := posRIFFSize
    posMoviListSize := posMoviListSize
    riffIdx := w.riffIdx + 1
    riffSize := 24 }

/-- The section is finished, and the next one begins. -/
def newSection (w : AviWriter) : Option AviWriter :=
  let w :=
    if w.riffIdx = 0 then { w.finishOld with currMaxRIFFSize := 4 * 1000 * 1000 * 1000 }
    else w.finishAvix
  if 32 ≤ w.message.length then none else some w.beginSection

end AviWriter

namespace AviStream

/-- `m_stdIndexEntries[stream_idx][k]`. -/
def entriesAt (s : AviStream) (k : Int) : List AVISTDINDEX_ENTRY :=
  (s.stdIndexEntries.lookup k).getD []

/-- `(int32_t)m_stdIndexes[stream_idx].size()-1`. -/
def lastIndex (s : AviStream) : Int := (s.stdIndexes.length : Int) - 1

/-- Whether `write_data` starts a new standard index. -/
def indexFull (s : AviStream) : Bool :=
  stdIndexSize ≤
    ((s.entriesAt s.lastIndex).length + 1) * sizeofStdIndexEntry + sizeofStdIndex

/-- A new standard index, with this base. -/
def newIndex (s : AviStream) (stream : Nat) (chunkId : FourCC) (base : Nat) : AviStream :=
  { s with
    stdIndexes := s.stdIndexes ++ [{ newStdIndex stream chunkId base with
      fcc := if stream = 0 then fourcc "ix00" else fourcc "ix01" }]
    superIdx := { s.superIdx with nEntriesInUse := s.superIdx.nEntriesInUse + 1 } }

/-- `m_stdIndexEntries[stream_idx][k].push_back(e)`. -/
def pushEntry (s : AviStream) (k : Int) (e : AVISTDINDEX_ENTRY) : AviStream :=
  { s with stdIndexEntries :=
      if (s.stdIndexEntries.lookup k).isSome then
        s.stdIndexEntries.map fun p => if p.1 = k then (p.1, p.2 ++ [e]) else p
      else s.stdIndexEntries ++ [(k, [e])] }

/-- `dwLength++`, for a video stream. -/
def counted (s : AviStream) : AviStream :=
  if s.streamType = .video then
    { s with avisHeader := { s.avisHeader with dwLength := s.avisHeader.dwLength + 1 } }
  else s

end AviStream

namespace AviWriter

/-- `AVIIF_KEYFRAME`. -/
def aviifKeyframe : Nat := 0x10

/-- `write_data` once the section is settled. -/
def writeChunk (w : AviWriter) (stream : Nat) (s : AviStream) (chunkId : FourCC) (data : Bytes) :
    AviWriter :=
  let len := data.length
  let riffSize := (w.riffSize + len + 8) % 2 ^ 32
  let old := w.riffIdx = 0
  let pos := w.f.pos
  let full := s.indexFull
  -- A new index takes the current position as its base, and so does every stream from now on.
  let s := if full then s.newIndex stream chunkId pos else s
  let currBaseOff := if full then pos else w.currBaseOff
  let s := s.pushEntry s.lastIndex ⟨(pos + 8 - currBaseOff) % 2 ^ 32, len⟩
  { w with
    riffSize := if old then (riffSize + sizeofOldIndex) % 2 ^ 32 else riffSize
    oldIndexEntries :=
      if old then
        w.oldIndexEntries ++ [⟨chunkId, aviifKeyframe, (pos - w.pos1stMoviStart) % 2 ^ 32, len⟩]
      else w.oldIndexEntries
    currBaseOff := currBaseOff
    f := ((w.f.write chunkId.bytes).write (le 4 len)).write data
    streams := w.streams.set stream s.counted
    avimHeader := if s.streamType = .video then
        { w.avimHeader with dwTotalFrames := w.avimHeader.dwTotalFrames + 1 }
      else w.avimHeader
    totalFrames := w.totalFrames + 1 }

/-- The chunk id of the data of a stream. -/
def dataFcc (t : StreamType) (stream : Nat) : FourCC :=
  if t = .video then generateFcc "dc" stream else generateFcc "wb" stream

/-- Whether `write_data` begins a new section for `len` bytes. -/
def sectionFull (w : AviWriter) (len : Nat) : Bool :=
  w.currMaxRIFFSize ≤ (w.riffSize + len + 8) % 2 ^ 32

/-- `write_data`. -/
def writeData (w : AviWriter) (stream : Nat) (data : Bytes) : Option (Bool × AviWriter) :=
  if w.reservedFrames ≤ w.totalFrames then some (false, w)
  else
    w.streams[stream]?.bind fun s =>
      (if w.sectionFull data.length then w.newSection else some w).map fun w =>
        (true, w.writeChunk stream s (dataFcc s.streamType stream) data)

/-! ## `close` -/

/-- The standard indexes of a stream at the end of the file, and their entries for the super
index. -/
def writeIndexes (idxs : List AVISTDINDEX) :
    OutFile → List (Int × List AVISTDINDEX_ENTRY) → OutFile × List AVISUPERINDEX_ENTRY
  | f, [] => (f, [])
  | f, (k, entries) :: rest =>
      let stdIndex := { (idxs[k.toNat]?).getD blankStdIndex with
        bIndexType := 1
        nEntriesInUse := entries.length
        cb := sizeofStdIndex - 8 + sizeofStdIndexEntry * entries.length }
      let f := f.seekEnd
      let pos := f.pos
      let f := (f.write stdIndex.toBytes).write (entries.flatMap AVISTDINDEX_ENTRY.toBytes)
      let (f, supers) := writeIndexes idxs f rest
      (f, ⟨pos, stdIndex.cb + 8, entries.length⟩ :: supers)

/-- The indexes of one stream. -/
def closeStream (f : OutFile) (s : AviStream) : OutFile :=
  let (f, supers) := writeIndexes s.stdIndexes f s.stdIndexEntries
  let f := (f.seek s.posOdmlSuperIdx).write s.superIdx.toBytes
  supers.foldl (fun f e => f.write e.toBytes) f

/-- The stream header with the length of an audio stream filled in. -/
def closedHeader (w : AviWriter) (s : AviStream) : AVISTREAMHEADER :=
  match w.videoStreamIdx.bind fun v => w.streams[v]? with
  | none => s.avisHeader
  | some video =>
      let vrate := video.avisHeader.dwRate
      let vscal := video.avisHeader.dwScale
      if s.streamType = .audio ∧ vrate ≠ 0 ∧ s.avisHeader.dwScale ≠ 0 ∧
          w.waveFormat.nChannels ≠ 0 then
        let seconds := w.avimHeader.dwTotalFrames * vscal % 2 ^ 32 / vrate
        { s.avisHeader with dwLength :=
            s.avisHeader.dwRate * seconds % 2 ^ 32 / s.avisHeader.dwScale / w.waveFormat.nChannels }
      else s.avisHeader

/-- `close`. -/
def close (w : AviWriter) : AviWriter :=
  let f := (w.f.seek w.posAviMainHeader).write w.avimHeader.toBytes
  let f :=
    if w.openDML then
      w.streams.foldl closeStream
        ((f.seek w.posOdmlExt).write (odmlExtendedAVIHeader w.totalFrames))
    else f
  let f := w.streams.foldl
    (fun f s => (f.seek s.posStreamHeader).write (w.closedHeader s).toBytes) f
  let w : AviWriter := { w with f := f }
  if w.riffIdx = 0 then w.finishOld
  else
    let f := w.f.seekEnd
    let riffAvixMoviSize := f.pos - w.posMoviListSize - 4
    let f := ((f.seek w.posMoviListSize).write (le 4 riffAvixMoviSize)).seekEnd
    let riffAvixSize := f.pos - w.posRIFFSize - 4
    { w with f := (f.seek w.posRIFFSize).write (le 4 riffAvixSize) }

end AviWriter

end Maixii.Avi
