import Mathlib.Logic.Function.Basic
import Maixii.Lib.Machine
import Maixii.Lib.OutFile

/-!
# `AudioLib/AEncoder.lean`: the audio encoder, with PCM

PCM that is written goes into a ring of bytes, is taken out of it a frame at a time into a ring of
frame buffers, and a frame is requested and given back there. `World` adds the one who requests:
which frames he holds; and the past: what was written, which frames were encoded, and which of them
have been given back.
-/

set_option autoImplicit false

namespace Maixii.AudioLib

open Maixii.Lib

/-! ## The PCM ring -/

/-- `FIFO_LEVEL`. -/
def fifoLevel : Nat := 64

/-- `BS_BUFFER_SIZE`. -/
def bsBufferSize : Nat := 64 * 1024

/-- `OUT_ENCODE_BUFFER_SIZE`. -/
def outEncodeBufferSize : Nat := 4 * 1024

/-- `MAXDECODESAMPLE`. -/
def maxDecodeSample : Nat := 1024

/-- `DECODEMPEGTS`. -/
def decodeMpegTs : Nat := 1920

/-- `__pcm_buf_manager_t`. The pointers count from `pBufStart`, where `buf` is. -/
structure PcmBufManager where
  buf : Bytes
  uBufTotalLen : Nat
  pBufReadPtr : Nat
  uDataLen : Nat
  pBufWritPtr : Nat
  uFreeBufSize : Nat
  deriving DecidableEq

namespace PcmBufManager

/-- `RequestWriteBuf`. -/
def requestWriteBuf (m : PcmBufManager) (pInbuf : Bytes) : Int × PcmBufManager :=
  let inSize := pInbuf.length
  if m.uFreeBufSize < inSize then (-1, m)
  else
    let m :=
      if m.uBufTotalLen < m.pBufWritPtr + inSize then
        let endSize := m.uBufTotalLen - m.pBufWritPtr
        let buf :=
          if 0 < endSize then patch m.buf m.pBufWritPtr (pInbuf.take endSize) else m.buf
        { m with
          buf := patch buf 0 (pInbuf.drop endSize)
          pBufWritPtr := m.pBufWritPtr + inSize - m.uBufTotalLen }
      else
        { m with
          buf := patch m.buf m.pBufWritPtr pInbuf
          pBufWritPtr := m.pBufWritPtr + inSize }
    (0, { m with
      uFreeBufSize := m.uFreeBufSize - inSize
      uDataLen := m.uDataLen + inSize })

/-- `ReadPcmDataForEnc`: what is returned, and what is copied to `pBuf`. -/
def readPcmDataForEnc (m : PcmBufManager) (uGetLen : Nat) : (Nat × Bytes) × PcmBufManager :=
  if m.uDataLen < uGetLen then ((0, []), m)
  else
    let data :=
      if m.uBufTotalLen < m.pBufReadPtr + uGetLen then
        let len1 := m.uBufTotalLen - m.pBufReadPtr
        readAt m.buf m.pBufReadPtr len1 ++ readAt m.buf 0 (uGetLen - len1)
      else readAt m.buf m.pBufReadPtr uGetLen
    let pBufReadPtr := m.pBufReadPtr + uGetLen
    ((uGetLen, data), { m with
      pBufReadPtr :=
        if m.uBufTotalLen ≤ pBufReadPtr then pBufReadPtr - m.uBufTotalLen else pBufReadPtr
      uDataLen := m.uDataLen - uGetLen
      uFreeBufSize := m.uFreeBufSize + uGetLen })

/-- What is in the ring: it goes round at most once. -/
def pending (m : PcmBufManager) : Bytes := readAt (m.buf ++ m.buf) m.pBufReadPtr m.uDataLen

end PcmBufManager

/-! ## The PCM encoder -/

/-- `__audio_enc_inf_t`, what the PCM encoder reads of it. -/
structure AudioEncInf where
  InSamplerate : Int
  InChan : Int
  SamplerBits : Int
  frame_style : Int
  deriving DecidableEq

/-- `__com_internal_prameter_t`, without the header. -/
structure ComInternal where
  ulNowTimeMS : UInt32
  framecount : UInt32
  ulEncCom : UInt32
  deriving DecidableEq

/-- `__AudioENC_AC320`. -/
structure AudioEnc where
  pPcmBufManager : PcmBufManager
  AudioBsEncInf : AudioEncInf
  EncoderCom : ComInternal
  Encinitedflag : Bool
  deriving DecidableEq

/-- A quotient of two `double`s, made an `unsigned int`: both are whole numbers below 2⁵³ here, and
the divisor is positive. -/
def quotientMS (a : Nat) (b : Int) : UInt32 := UInt32.ofNat (a / b.toNat)

/-- The bytes of each `short` are exchanged. -/
def swapShorts : Bytes → Bytes
  | a :: b :: rest => b :: a :: swapShorts rest
  | rest => rest

namespace AudioEnc

/-- The settings the first frame is refused for. -/
def refused (inf : AudioEncInf) : Bool :=
  (inf.SamplerBits ≠ 8 ∧ inf.SamplerBits ≠ 16 ∧ inf.SamplerBits ≠ 24 ∧ inf.SamplerBits ≠ 32) ∨
    inf.InChan < 0 ∨ 6 < inf.InChan

/-- The size of a frame of the plain style. -/
def frameSize (inf : AudioEncInf) : Int := maxDecodeSample * (inf.SamplerBits >>> 3) * inf.InChan

/-- How many bytes are to be there for a frame. -/
def needed (inf : AudioEncInf) : Int :=
  if inf.frame_style = 2 then decodeMpegTs else frameSize inf

/-- A frame of the style of MPEG-TS: a header, and the samples with the high byte first. -/
def mpegTsFrame (p : AudioEnc) : (Bytes × Nat) × AudioEnc :=
  let inf := p.AudioBsEncInf
  let ((read_sum, data), pcm) := p.pPcmBufManager.readPcmDataForEnc decodeMpegTs
  let sampling_frequence : UInt8 :=
    if inf.InSamplerate = 44100 then 1 else if inf.InSamplerate = 48000 then 2 else 3
  let header : Bytes := [0xA0, 0x06, 0, sampling_frequence <<< 3 ||| 1]
  ((header ++ swapShorts data, read_sum + 4),
    { p with
      pPcmBufManager := pcm
      EncoderCom.ulNowTimeMS :=
        quotientMS (p.EncoderCom.framecount.toNat * decodeMpegTs * 1000)
          (inf.InSamplerate * 2 * inf.InChan) })

/-- A frame of the plain style: what is in the ring, as much of it as goes into the frame buffer. -/
def plainFrame (p : AudioEnc) : (Bytes × Nat) × AudioEnc :=
  let inf := p.AudioBsEncInf
  let nEncodeOutSize :=
    if (outEncodeBufferSize : Int) < frameSize inf then (outEncodeBufferSize : Int)
    else frameSize inf
  let ((read_sum, data), pcm) := p.pPcmBufManager.readPcmDataForEnc nEncodeOutSize.toNat
  ((data, read_sum),
    { p with
      pPcmBufManager := pcm
      EncoderCom.ulNowTimeMS :=
        quotientMS (p.EncoderCom.framecount.toNat * maxDecodeSample * 1000) inf.InSamplerate })

/-- `PCMframeEnc`: what is returned, what is in `OutBuffer` then, and `OutBuffLen`. A frame size is
not negative once a frame has been accepted. -/
def pcmFrameEnc (p : AudioEnc) (OutBuffer : Bytes) : (Int × Bytes × Nat) × AudioEnc :=
  if ¬p.Encinitedflag ∧ refused p.AudioBsEncInf then ((-1, OutBuffer, 0), p)
  else
    let p := { p with Encinitedflag := true }
    if (p.pPcmBufManager.uDataLen : Int) < needed p.AudioBsEncInf then
      ((if p.EncoderCom.ulEncCom = 5 then -2 else 1, OutBuffer, 0), p)
    else
      let ((frame, OutBuffLen), p) :=
        if p.AudioBsEncInf.frame_style = 2 then p.mpegTsFrame else p.plainFrame
      ((0, patch OutBuffer 0 frame, OutBuffLen),
        { p with EncoderCom.framecount := p.EncoderCom.framecount + 1 })

end AudioEnc

/-! ## The frame buffers -/

/-- `AudioOutBuf_t`. -/
structure AudioOutBuf where
  buf : Bytes
  size : Nat
  timeStamp : UInt32
  deriving DecidableEq

/-- What the buffer holds. -/
def AudioOutBuf.frame (b : AudioOutBuf) : Bytes := b.buf.take b.size

/-- `OutBufManager_t`. -/
structure OutBufManager where
  out_buf : Nat → AudioOutBuf
  mBufCnt : Nat
  write_id : Nat
  read_id : Nat
  prefetch_id : Nat
  buf_unused : Nat

/-- `audio_Enc_data`. -/
structure AudioEncData where
  pAudioEnc : AudioEnc
  gOutBufManager : OutBufManager

/-- `AudioEncPro`. -/
def AudioEncData.audioEncPro (e : AudioEncData) : Int × AudioEncData :=
  let o := e.gOutBufManager
  if o.buf_unused ≤ 1 then (2, e)
  else
    let out := o.out_buf o.write_id
    let ((ret, buf, size), enc) := e.pAudioEnc.pcmFrameEnc out.buf
    if size = 0 then
      (ret, ⟨enc, { o with out_buf := Function.update o.out_buf o.write_id { out with buf } }⟩)
    else
      (ret, ⟨enc, { o with
        out_buf := Function.update o.out_buf o.write_id ⟨buf, size, enc.EncoderCom.ulNowTimeMS⟩
        buf_unused := o.buf_unused - 1
        write_id := (o.write_id + 1) % o.mBufCnt }⟩)

/-- What `GetAudioEncBuf` gives out, a slot for the pointer; and what is in the frame then. -/
structure Frame where
  pOutbuf : Nat
  outSize : Nat
  timeStamp : UInt32
  bufId : Nat
  data : Bytes
  deriving DecidableEq

namespace OutBufManager

/-- The check of `prefetch_id` in `GetAudioEncBuf`. -/
def inOrder (o : OutBufManager) : Bool :=
  if o.read_id < o.write_id then o.read_id ≤ o.prefetch_id ∧ o.prefetch_id ≤ o.write_id
  else if o.write_id < o.read_id then o.read_id ≤ o.prefetch_id ∨ o.prefetch_id ≤ o.write_id
  else o.buf_unused = 0

/-- `GetAudioEncBuf`. -/
def getAudioEncBuf (o : OutBufManager) : Option Frame × OutBufManager :=
  if o.mBufCnt ≤ o.buf_unused then (none, o)
  else if ¬o.inOrder then (none, o)
  else if o.prefetch_id = o.write_id then (none, o)
  else
    let out := o.out_buf o.prefetch_id
    (some ⟨o.prefetch_id, out.size, out.timeStamp, o.prefetch_id, out.frame⟩,
      { o with prefetch_id := (o.prefetch_id + 1) % o.mBufCnt })

/-- `ReleaseAudioEncBuf`. What else does not match is logged only. -/
def releaseAudioEncBuf (o : OutBufManager) (nBufId : Nat) : Int × OutBufManager :=
  if o.buf_unused = o.mBufCnt then (-1, o)
  else if nBufId ≠ o.read_id then (-1, o)
  else
    (0, { o with
      buf_unused := o.buf_unused + 1
      read_id := (o.read_id + 1) % o.mBufCnt })

end OutBufManager

/-- `AudioEncInit` with a PCM type. What is in the memory it gets from `malloc` is not known. -/
def audioEncInit (audio_inf : AudioEncInf) (nInBufSize nOutBufCnt : Int) (memory : Nat → UInt8)
    (out_buf : Nat → AudioOutBuf) : AudioEncData :=
  let uBufTotalLen := if 0 < nInBufSize then nInBufSize.toNat else bsBufferSize
  let mBufCnt := if 0 < nOutBufCnt then nOutBufCnt.toNat else fifoLevel
  { pAudioEnc :=
      { pPcmBufManager :=
          { buf := (List.range uBufTotalLen).map memory
            uBufTotalLen := uBufTotalLen
            pBufReadPtr := 0
            uDataLen := 0
            pBufWritPtr := 0
            uFreeBufSize := uBufTotalLen }
        AudioBsEncInf := audio_inf
        EncoderCom := ⟨0, 0, 0⟩
        Encinitedflag := false }
    gOutBufManager :=
      { out_buf := out_buf
        mBufCnt := mBufCnt
        write_id := 0
        read_id := 0
        prefetch_id := 0
        buf_unused := mBufCnt } }

/-! ## The world around it -/

/-- The encoder, who holds what, and the past. -/
structure World where
  enc : AudioEncData
  held : List Frame
  written : Bytes
  encoded : List Bytes
  returned : List Frame

inductive AudioCall
  | writeAudioStreamBuffer (pBuf : Bytes)
  | encodeAudioStream
  | requestAudioFrameBuffer
  | returnAudioFrameBuffer
  deriving DecidableEq

namespace World

def init (enc : AudioEncData) : World := ⟨enc, [], [], [], []⟩

/-- A call. The frame that is given back is the one held longest; where none is held there is no
call. -/
def call (w : World) : AudioCall → Int × World
  | .writeAudioStreamBuffer pBuf =>
      let (ret, m) := w.enc.pAudioEnc.pPcmBufManager.requestWriteBuf pBuf
      (ret, { w with
        enc.pAudioEnc.pPcmBufManager := m
        written := if ret = 0 then w.written ++ pBuf else w.written })
  | .encodeAudioStream =>
      let (ret, e) := w.enc.audioEncPro
      (ret, { w with
        enc := e
        encoded :=
          if e.gOutBufManager.buf_unused = w.enc.gOutBufManager.buf_unused then w.encoded
          else w.encoded ++ [(e.gOutBufManager.out_buf w.enc.gOutBufManager.write_id).frame] })
  | .requestAudioFrameBuffer =>
      match w.enc.gOutBufManager.getAudioEncBuf with
      | (some f, o) => (0, { w with enc.gOutBufManager := o, held := w.held ++ [f] })
      | (none, o) => (-1, { w with enc.gOutBufManager := o })
  | .returnAudioFrameBuffer =>
      match w.held with
      | [] => (-1, w)
      | f :: held =>
          let (ret, o) := w.enc.gOutBufManager.releaseAudioEncBuf f.bufId
          if ret = 0 then
            (ret, { w with
              enc.gOutBufManager := o
              held := held
              returned := w.returned ++ [f] })
          else (ret, { w with enc.gOutBufManager := o })

/-- The frames requested so far. -/
def requested (w : World) : List Frame := w.returned ++ w.held

/-- How many frames are encoded and not given back. -/
def used (w : World) : Nat := w.enc.gOutBufManager.mBufCnt - w.enc.gOutBufManager.buf_unused

/-- The buffers that are encoded and wait to be requested. -/
def waitingIds (w : World) : List Nat :=
  (List.range (w.used - w.held.length)).map fun i =>
    (w.enc.gOutBufManager.prefetch_id + i) % w.enc.gOutBufManager.mBufCnt

/-- What is in them. -/
def waiting (w : World) : List Bytes :=
  w.waitingIds.map fun i => (w.enc.gOutBufManager.out_buf i).frame

/-- **No PCM is lost.** What was written is what was requested, what waits in the frame buffers and
what is in the ring; a frame is requested once, and its buffer is not written from its encoding until
its return; and the numbers describe one queue. -/
structure Lossless (w : World) : Prop where
  delivered : (w.requested.map Frame.data).flatten <+: w.written
  lossless : w.written = (w.requested.map Frame.data).flatten ++ w.waiting.flatten ++
    w.enc.pAudioEnc.pPcmBufManager.pending
  once : w.encoded = w.requested.map Frame.data ++ w.waiting
  intact : ∀ f ∈ w.held, (w.enc.gOutBufManager.out_buf f.pOutbuf).frame = f.data
  fresh : 1 < w.enc.gOutBufManager.buf_unused →
    w.enc.gOutBufManager.write_id ∉ w.held.map Frame.pOutbuf ++ w.waitingIds
  available : w.waiting ≠ [] → (w.call .requestAudioFrameBuffer).1 = 0
  sizes : w.enc.pAudioEnc.pPcmBufManager.uDataLen + w.enc.pAudioEnc.pPcmBufManager.uFreeBufSize =
    w.enc.pAudioEnc.pPcmBufManager.uBufTotalLen
  write : w.enc.gOutBufManager.write_id =
    (w.enc.gOutBufManager.read_id + w.used) % w.enc.gOutBufManager.mBufCnt
  prefetch : w.enc.gOutBufManager.prefetch_id =
    (w.enc.gOutBufManager.read_id + w.held.length) % w.enc.gOutBufManager.mBufCnt ∧
      w.held.length ≤ w.used

end World

end Maixii.AudioLib
