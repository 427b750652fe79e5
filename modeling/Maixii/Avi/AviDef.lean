import Maixii.Lib.Riff

/-!
# `Avi/AviDef.lean`: the structures of an AVI file

`avilib/avidef.h`, as the bytes that `_f.write((const char *)&x, sizeof(x))` puts into a file on
Linux: little-endian fields, and the padding the compiler adds where a structure is not packed.
A `FOURCC` written in the source as a multi-character constant (`'hiva'`) stands in the file the
other way round (`avih`).
-/

set_option autoImplicit false

namespace Maixii.Avi

open Maixii.Lib

/-- `generate_fcc`: two digits, two letters. -/
def generateFcc (id : String) (idx : Nat) : FourCC :=
  let n := if 99 < idx then 99 else idx
  match ascii id with
  | [x, y] => ⟨UInt8.ofNat (48 + n / 10), UInt8.ofNat (48 + n % 10), x, y⟩
  | _ => ⟨0, 0, 0, 0⟩

/-- `DWORD`s. -/
def dwords (ns : List Nat) : Bytes := ns.flatMap (le 4)

/-- `WORD`s. -/
def words (ns : List Nat) : Bytes := ns.flatMap (le 2)

theorem length_dwords (ns : List Nat) : (dwords ns).length = 4 * ns.length := by
  induction ns with
  | nil => rfl
  | cons n ns ih =>
    rw [dwords, List.flatMap_cons, List.length_append, length_le_bytes, List.length_cons]
    change 4 + (dwords ns).length = _
    omega

structure AVIMAINHEADER where
  fcc : FourCC
  cb : Nat
  dwMicroSecPerFrame : Nat
  dwMaxBytesPerSec : Nat
  dwPaddingGranularity : Nat
  dwFlags : Nat
  dwTotalFrames : Nat
  dwInitialFrames : Nat
  dwStreams : Nat
  dwSuggestedBufferSize : Nat
  dwWidth : Nat
  dwHeight : Nat
  deriving DecidableEq

/-- What stands behind `fcc` and `cb`. `dwReserved` is zero. -/
def AVIMAINHEADER.body (h : AVIMAINHEADER) : Bytes :=
  dwords [h.dwMicroSecPerFrame, h.dwMaxBytesPerSec, h.dwPaddingGranularity, h.dwFlags,
    h.dwTotalFrames, h.dwInitialFrames, h.dwStreams, h.dwSuggestedBufferSize, h.dwWidth,
    h.dwHeight, 0, 0, 0, 0]

def AVIMAINHEADER.toBytes (h : AVIMAINHEADER) : Bytes := h.fcc.bytes ++ le 4 h.cb ++ h.body

structure AVISTREAMHEADER where
  fcc : FourCC
  cb : Nat
  fccType : FourCC
  fccHandler : FourCC
  dwFlags : Nat
  wPriority : Nat
  wLanguage : Nat
  dwInitialFrames : Nat
  dwScale : Nat
  dwRate : Nat
  dwStart : Nat
  dwLength : Nat
  dwSuggestedBufferSize : Nat
  dwQuality : Nat
  dwSampleSize : Nat
  left : Nat
  top : Nat
  right : Nat
  bottom : Nat
  deriving DecidableEq

/-- What stands behind `fcc` and `cb`. -/
def AVISTREAMHEADER.body (h : AVISTREAMHEADER) : Bytes :=
  h.fccType.bytes ++ h.fccHandler.bytes ++ le 4 h.dwFlags ++ words [h.wPriority, h.wLanguage] ++
    dwords [h.dwInitialFrames, h.dwScale, h.dwRate, h.dwStart, h.dwLength,
      h.dwSuggestedBufferSize, h.dwQuality, h.dwSampleSize] ++
    words [h.left, h.top, h.right, h.bottom]

def AVISTREAMHEADER.toBytes (h : AVISTREAMHEADER) : Bytes := h.fcc.bytes ++ le 4 h.cb ++ h.body

structure BITMAPINFO where
  biSize : Nat
  biWidth : Nat
  biHeight : Nat
  biPlanes : Nat
  biBitCount : Nat
  biCompression : FourCC
  biSizeImage : Nat
  deriving DecidableEq

/-- The last four fields are zero. -/
def BITMAPINFO.toBytes (b : BITMAPINFO) : Bytes :=
  dwords [b.biSize, b.biWidth, b.biHeight] ++ words [b.biPlanes, b.biBitCount] ++
    b.biCompression.bytes ++ dwords [b.biSizeImage, 0, 0, 0, 0]

/-- `WAVEFORMATEX`, the union `Samples`, the channel mask and the sub-format. -/
structure WAVEFORMATEXTENSIBLE where
  wFormatTag : Nat
  nChannels : Nat
  nSamplesPerSec : Nat
  nAvgBytesPerSec : Nat
  nBlockAlign : Nat
  wBitsPerSample : Nat
  cbSize : Nat
  samples : Nat
  dwChannelMask : Nat
  deriving DecidableEq

/-- `guid_pcm`. -/
def guidPcm : Bytes :=
  [0x01, 0x00, 0x00, 0x00, 0x00, 0x00, 0x10, 0x00, 0x80, 0x00, 0x00, 0xaa, 0x00, 0x38, 0x9b, 0x71]

/-- `WAVEFORMATEX` ends with two bytes of padding, and so does `Samples`. -/
def WAVEFORMATEXTENSIBLE.toBytes (w : WAVEFORMATEXTENSIBLE) : Bytes :=
  words [w.wFormatTag, w.nChannels] ++ dwords [w.nSamplesPerSec, w.nAvgBytesPerSec] ++
    words [w.nBlockAlign, w.wBitsPerSample, w.cbSize, 0] ++ words [w.samples, 0] ++
    le 4 w.dwChannelMask ++ guidPcm

/-- `dwTotalFrames`. -/
def odmlExtendedAVIHeader (dwTotalFrames : Nat) : Bytes := le 4 dwTotalFrames

structure AVIOLDINDEX where
  dwChunkId : FourCC
  dwFlags : Nat
  dwOffset : Nat
  dwSize : Nat
  deriving DecidableEq

def AVIOLDINDEX.toBytes (e : AVIOLDINDEX) : Bytes :=
  e.dwChunkId.bytes ++ dwords [e.dwFlags, e.dwOffset, e.dwSize]

/-- `bIndexSubType` and `dwReserved` are zero. -/
structure AVISTDINDEX where
  fcc : FourCC
  cb : Nat
  wLongsPerEntry : Nat
  bIndexType : Nat
  nEntriesInUse : Nat
  dwChunkId : FourCC
  qwBaseOffset : Nat
  deriving DecidableEq

/-- What stands behind `fcc` and `cb`. -/
def AVISTDINDEX.body (x : AVISTDINDEX) : Bytes :=
  le 2 x.wLongsPerEntry ++ le 1 0 ++ le 1 x.bIndexType ++ le 4 x.nEntriesInUse ++
    x.dwChunkId.bytes ++ le 8 x.qwBaseOffset ++ le 4 0

def AVISTDINDEX.toBytes (x : AVISTDINDEX) : Bytes := x.fcc.bytes ++ le 4 x.cb ++ x.body

structure AVISTDINDEX_ENTRY where
  dwOffset : Nat
  dwSize : Nat
  deriving DecidableEq, Repr

def AVISTDINDEX_ENTRY.toBytes (e : AVISTDINDEX_ENTRY) : Bytes := dwords [e.dwOffset, e.dwSize]

/-- `bIndexSubType` and `dwReserved` are zero. -/
structure AVISUPERINDEX where
  fcc : FourCC
  cb : Nat
  wLongsPerEntry : Nat
  bIndexType : Nat
  nEntriesInUse : Nat
  dwChunkId : FourCC
  deriving DecidableEq

/-- What stands behind `fcc` and `cb`. -/
def AVISUPERINDEX.body (x : AVISUPERINDEX) : Bytes :=
  le 2 x.wLongsPerEntry ++ le 1 0 ++ le 1 x.bIndexType ++ le 4 x.nEntriesInUse ++
    x.dwChunkId.bytes ++ dwords [0, 0, 0]

def AVISUPERINDEX.toBytes (x : AVISUPERINDEX) : Bytes := x.fcc.bytes ++ le 4 x.cb ++ x.body

structure AVISUPERINDEX_ENTRY where
  qwOffset : Nat
  dwSize : Nat
  dwDuration : Nat
  deriving DecidableEq, Repr

def AVISUPERINDEX_ENTRY.toBytes (e : AVISUPERINDEX_ENTRY) : Bytes :=
  le 8 e.qwOffset ++ dwords [e.dwSize, e.dwDuration]

/-! ## Sizes -/

/-- `sizeof(AVISTDINDEX)`. -/
def sizeofStdIndex : Nat := 32

/-- `sizeof(AVISTDINDEX_ENTRY)`. -/
def sizeofStdIndexEntry : Nat := 8

/-- `sizeof(AVISUPERINDEX)`. -/
def sizeofSuperIndex : Nat := 32

/-- `sizeof(AVISUPERINDEX_ENTRY)`. -/
def sizeofSuperIndexEntry : Nat := 16

/-- `sizeof(AVIOLDINDEX)`. -/
def sizeofOldIndex : Nat := 16

@[simp] theorem AVIMAINHEADER.length_body (h : AVIMAINHEADER) : h.body.length = 56 :=
  length_dwords _

@[simp] theorem AVIMAINHEADER.length_toBytes (h : AVIMAINHEADER) : h.toBytes.length = 64 := by
  simp only [toBytes, List.length_append, FourCC.length_bytes, length_le_bytes, length_body]

@[simp] theorem AVISTREAMHEADER.length_body (h : AVISTREAMHEADER) : h.body.length = 56 := rfl

@[simp] theorem AVISTREAMHEADER.length_toBytes (h : AVISTREAMHEADER) : h.toBytes.length = 64 := by
  simp only [toBytes, List.length_append, FourCC.length_bytes, length_le_bytes, length_body]

@[simp] theorem BITMAPINFO.length_toBytes (b : BITMAPINFO) : b.toBytes.length = 40 := rfl

@[simp] theorem WAVEFORMATEXTENSIBLE.length_toBytes (w : WAVEFORMATEXTENSIBLE) :
    w.toBytes.length = 44 := rfl

@[simp] theorem AVIOLDINDEX.length_toBytes (e : AVIOLDINDEX) :
    e.toBytes.length = sizeofOldIndex := rfl

@[simp] theorem AVISTDINDEX.length_body (x : AVISTDINDEX) : x.body.length = 24 := rfl

@[simp] theorem AVISTDINDEX.length_toBytes (x : AVISTDINDEX) :
    x.toBytes.length = sizeofStdIndex := rfl

@[simp] theorem AVISTDINDEX_ENTRY.length_toBytes (e : AVISTDINDEX_ENTRY) :
    e.toBytes.length = sizeofStdIndexEntry := rfl

@[simp] theorem AVISUPERINDEX.length_body (x : AVISUPERINDEX) : x.body.length = 24 := rfl

@[simp] theorem AVISUPERINDEX.length_toBytes (x : AVISUPERINDEX) :
    x.toBytes.length = sizeofSuperIndex := rfl

@[simp] theorem AVISUPERINDEX_ENTRY.length_toBytes (e : AVISUPERINDEX_ENTRY) :
    e.toBytes.length = sizeofSuperIndexEntry := rfl

end Maixii.Avi
