import Maixii.Lib.Machine

/-!
# `AudioLib/ADecoder.lean`: the PCM ring of the audio decoder

A decoded frame is in one piece in the ring, so the end of the ring is skipped where the next frame
might not fit: `pAOutPcmEndPtr` then says where the PCM ends. Beside it, `frmFifo` is a ring of 512
records that say where the frames are. `World` adds the decoder, which is given room and then says
how much of it a frame has taken, and the player, who requests frames and gives them back; and the
past. A seek is not modelled, so nobody waits for the ring to be empty.
-/

set_option autoImplicit false

namespace Maixii.AudioLib

open Maixii.Lib

/-! ## The decoder -/

/-- `AUDIO_BITSTREAM_BUFFER_MAX_FRAME_NUM`. -/
def maxFrameNum : Nat := 512

/-- `MAX_AUDIO_FRAME_SIZE`. -/
def maxAudioFrameSize : Nat := 96 * 1024

/-- `AUDIO_PCM_BUFFER_SIZE`. -/
def audioPcmBufferSize : Nat := 128 * 1024

/-- `aframe_info_t`. -/
structure AFrameInfo where
  startAddr : Nat
  ptsValid : Bool
  pts : Int
  len : Nat
  readlen : Nat
  deriving DecidableEq

/-- `astream_fifo_t`, as far as it is used for PCM. -/
structure AStreamFifo where
  inFrames : Nat → AFrameInfo
  rdIdx : Nat
  wtIdx : Nat
  prefetchIdx : Nat
  ValidchunkCnt : Nat
  maxchunkNum : Nat

/-- `OutputPcmBuf`. The pointers count from `pAOutBufferStart`. -/
structure OutputPcmBuf where
  pAOutBufferEnd : Nat
  nAOutBufferTotalSize : Nat
  pAOutBufferWritePtr : Nat
  pAOutBufferReadPtr : Nat
  pAOutPcmEndPtr : Nat
  nAOutBufferEmptySize : Int
  nAOutBufferValidSize : Int
  frmFifo : AStreamFifo
  nMaxFrameSizeArox : Nat

/-- `BsInFor`, as far as the time of a frame depends on it. -/
structure BsInFor where
  NowPTSTime : Int
  bitpersample : Int
  out_channels : Int
  out_samplerate : Int
  deriving DecidableEq

/-- `AudioDecoderContext`. -/
structure AudioDecoder where
  ADCedarCtxA : OutputPcmBuf
  pBsInFor : BsInFor

/-- `inFrames`, set to zeros. -/
def noFrames : Nat → AFrameInfo := fun _ => ⟨0, false, 0, 0, 0⟩

/-- `InitializeAudioDecoder`, for the format APE and its versions, and for any other. -/
def initializeAudioDecoder (ape : Bool) (ape_file_num : Int) (pBsInFor : BsInFor) :
    AudioDecoder :=
  let old := ape && ape_file_num < 3930
  let nTotalFrameBufferSize := if old then 1536 * 1024 else audioPcmBufferSize
  { ADCedarCtxA :=
      { pAOutBufferEnd := nTotalFrameBufferSize - 1
        nAOutBufferTotalSize := nTotalFrameBufferSize
        pAOutBufferWritePtr := 0
        pAOutBufferReadPtr := 0
        pAOutPcmEndPtr := nTotalFrameBufferSize - 1 + 1
        nAOutBufferEmptySize := nTotalFrameBufferSize
        nAOutBufferValidSize := 0
        frmFifo := ⟨noFrames, 0, 0, 0, 0, maxFrameNum⟩
        nMaxFrameSizeArox := if old then 288 * 1024 else maxAudioFrameSize }
    pBsInFor := pBsInFor }

namespace OutputPcmBuf

/-- `FlushPcmBuffer`. -/
def flushPcmBuffer (b : OutputPcmBuf) : OutputPcmBuf :=
  { b with
    pAOutPcmEndPtr := b.pAOutBufferEnd + 1
    pAOutBufferWritePtr := 0
    pAOutBufferReadPtr := 0
    nAOutBufferEmptySize := b.nAOutBufferTotalSize
    nAOutBufferValidSize := 0
    frmFifo := ⟨noFrames, 0, 0, 0, 0, maxFrameNum⟩ }

/-- The end of the ring is skipped. -/
def skipTail (b : OutputPcmBuf) : OutputPcmBuf :=
  { b with
    nAOutBufferEmptySize :=
      b.nAOutBufferEmptySize - ((b.pAOutBufferEnd + 1 : Int) - b.pAOutBufferWritePtr)
    pAOutPcmEndPtr := b.pAOutBufferWritePtr
    pAOutBufferWritePtr := 0 }

/-- Room for a frame, if there is some. -/
def room (b : OutputPcmBuf) : Option Nat × OutputPcmBuf :=
  if (b.nMaxFrameSizeArox : Int) < b.nAOutBufferEmptySize then (some b.pAOutBufferWritePtr, b)
  else (none, b)

/-- `DecRequestPcmBuffer`. -/
def decRequestPcmBuffer (b : OutputPcmBuf) : Option Nat × OutputPcmBuf :=
  if maxFrameNum ≤ b.frmFifo.ValidchunkCnt then (none, b)
  else if b.pAOutBufferEnd < b.pAOutBufferWritePtr + b.nMaxFrameSizeArox then
    if (b.nMaxFrameSizeArox : Int) < b.nAOutBufferEmptySize then
      if b.nAOutBufferValidSize = 0 then b.flushPcmBuffer.room else b.skipTail.room
    else (none, b)
  else b.room

end OutputPcmBuf

/-- `DecUpdatePcmBuffer`. The times are quotients rounded to zero. -/
def AudioDecoder.decUpdatePcmBuffer (d : AudioDecoder) (nPcmOutSize : Nat) : Int × AudioDecoder :=
  let b := d.ADCedarCtxA
  let s := b.frmFifo
  let i := d.pBsInFor
  let factor : Int :=
    if i.bitpersample = 32 then 250000 else if i.bitpersample = 24 then 333333 else 500000
  if nPcmOutSize = 0 then (0, d)
  else
    (0, {
      ADCedarCtxA := { b with
        nAOutBufferEmptySize := b.nAOutBufferEmptySize - nPcmOutSize
        nAOutBufferValidSize := b.nAOutBufferValidSize + nPcmOutSize
        pAOutBufferWritePtr := b.pAOutBufferWritePtr + nPcmOutSize
        frmFifo := { s with
          inFrames := fun k =>
            if k = s.wtIdx then
              { startAddr := b.pAOutBufferWritePtr + nPcmOutSize - nPcmOutSize
                ptsValid := i.NowPTSTime ≠ -1
                pts := i.NowPTSTime
                len := nPcmOutSize
                readlen := 0 }
            else s.inFrames k
          wtIdx := if maxFrameNum ≤ s.wtIdx + 1 then 0 else s.wtIdx + 1
          ValidchunkCnt := s.ValidchunkCnt + 1 } }
      pBsInFor := { i with
        NowPTSTime := i.NowPTSTime +
          (nPcmOutSize * factor).tdiv (i.out_channels * i.out_samplerate) } })

/-- What `PlybkRequestPcmBuffer` gives out. -/
structure Pcm where
  pOutReadPtr : Nat
  psize : Nat
  deriving DecidableEq

/-- Where a record says its frame is. -/
def AFrameInfo.pcm (f : AFrameInfo) : Pcm := ⟨f.startAddr, f.len⟩

/-- The check of the indices in `PlybkRequestPcmBuffer`. -/
def AStreamFifo.inOrder (s : AStreamFifo) : Bool :=
  if s.rdIdx < s.wtIdx then s.rdIdx ≤ s.prefetchIdx ∧ s.prefetchIdx ≤ s.wtIdx
  else if s.wtIdx < s.rdIdx then s.rdIdx ≤ s.prefetchIdx ∨ s.prefetchIdx ≤ s.wtIdx
  else s.ValidchunkCnt = s.maxchunkNum

/-- `PlybkRequestPcmBuffer`. -/
def OutputPcmBuf.plybkRequestPcmBuffer (b : OutputPcmBuf) : Option Pcm × OutputPcmBuf :=
  let s := b.frmFifo
  if b.nAOutBufferValidSize ≤ 0 then (none, b)
  else if s.ValidchunkCnt = 0 then (none, b)
  else if ¬s.inOrder then (none, b)
  -- The ring may as well be full and nothing requested.
  else if s.prefetchIdx = s.wtIdx then (none, b)
  else
    (some (s.inFrames s.prefetchIdx).pcm,
      { b with frmFifo := { s with prefetchIdx := (s.prefetchIdx + 1) % maxFrameNum } })

/-- The loop of `PlybkUpdatePcmBuffer`: `rest` is `nPcmOutSize - datalen`. A frame that is not read
to its end is the last one. -/
def dropFrames (i : BsInFor) : Nat → AStreamFifo → Nat → AStreamFifo
  | 0, s, _ => s
  | cnt + 1, s, rest =>
      if rest = 0 then s
      else
        let f := s.inFrames s.rdIdx
        let framelen := f.len - f.readlen
        if framelen ≤ rest then
          dropFrames i cnt { s with
            ValidchunkCnt := cnt
            rdIdx := if maxFrameNum - 1 < s.rdIdx + 1 then 0 else s.rdIdx + 1 } (rest - framelen)
        else
          { s with
            inFrames := fun k =>
              if k = s.rdIdx then
                { f with
                  readlen := f.readlen + rest
                  pts := f.pts + (rest * 500000 : Int).tdiv (i.out_channels * i.out_samplerate) }
              else s.inFrames k }

/-- `PlybkUpdatePcmBuffer`. What does not match is logged only. -/
def AudioDecoder.plybkUpdatePcmBuffer (d : AudioDecoder) (nPcmOutSize : Nat) : AudioDecoder :=
  let b := d.ADCedarCtxA
  let b := { b with
    nAOutBufferEmptySize := b.nAOutBufferEmptySize + nPcmOutSize
    nAOutBufferValidSize := b.nAOutBufferValidSize - nPcmOutSize
    pAOutBufferReadPtr := b.pAOutBufferReadPtr + nPcmOutSize }
  let b :=
    if b.pAOutPcmEndPtr ≤ b.pAOutBufferReadPtr then
      { b with
        nAOutBufferEmptySize :=
          b.nAOutBufferEmptySize + ((b.pAOutBufferEnd + 1 : Int) - b.pAOutPcmEndPtr)
        pAOutBufferReadPtr := b.pAOutBufferReadPtr - b.pAOutPcmEndPtr
        pAOutPcmEndPtr := b.pAOutBufferEnd + 1 }
    else b
  { d with ADCedarCtxA := { b with
      frmFifo := dropFrames d.pBsInFor b.frmFifo.ValidchunkCnt b.frmFifo nPcmOutSize } }

/-! ## The world around it -/

/-- The ring; the room the decoder has been given and not yet used; what the player holds; and the
past. -/
structure DecWorld where
  dec : AudioDecoder
  decoding : Option Nat
  held : List Pcm
  decoded : List Pcm
  given : List Pcm

inductive PcmCall
  | decRequestPcmBuffer
  | decUpdatePcmBuffer (nPcmOutSize : Nat)
  | plybkRequestPcmBuffer
  | plybkUpdatePcmBuffer
  deriving DecidableEq

namespace DecWorld

def init (dec : AudioDecoder) : DecWorld := ⟨dec, none, [], [], []⟩

/-- `nMaxFrameSizeArox`. -/
def maxSize (w : DecWorld) : Nat := w.dec.ADCedarCtxA.nMaxFrameSizeArox

/-- A call. The decoder requests room and then says how much it has used, at most what it was given;
the player gives back the frame it has held longest, with its size. Any other is no call. -/
def call (w : DecWorld) : PcmCall → Int × DecWorld
  | .decRequestPcmBuffer =>
      match w.decoding with
      | some _ => (-1, w)
      | none =>
          match w.dec.ADCedarCtxA.decRequestPcmBuffer with
          | (some p, b) => (0, { w with dec.ADCedarCtxA := b, decoding := some p })
          | (none, b) => (-1, { w with dec.ADCedarCtxA := b })
  | .decUpdatePcmBuffer nPcmOutSize =>
      match w.decoding with
      | none => (-1, w)
      | some p =>
          if w.maxSize < nPcmOutSize then (-1, w)
          else
            let (ret, dec) := w.dec.decUpdatePcmBuffer nPcmOutSize
            (ret, { w with
              dec := dec
              decoding := none
              decoded := if nPcmOutSize = 0 then w.decoded else w.decoded ++ [⟨p, nPcmOutSize⟩] })
  | .plybkRequestPcmBuffer =>
      match w.dec.ADCedarCtxA.plybkRequestPcmBuffer with
      | (some f, b) => (0, { w with dec.ADCedarCtxA := b, held := w.held ++ [f] })
      | (none, b) => (-1, { w with dec.ADCedarCtxA := b })
  | .plybkUpdatePcmBuffer =>
      match w.held with
      | [] => (-1, w)
      | f :: held =>
          (0, { w with
            dec := w.dec.plybkUpdatePcmBuffer f.psize
            held := held
            given := w.given ++ [f] })

/-- The frames that wait to be requested. -/
def waiting (w : DecWorld) : List Pcm :=
  let s := w.dec.ADCedarCtxA.frmFifo
  (List.range (s.ValidchunkCnt - w.held.length)).map fun i =>
    (s.inFrames ((s.prefetchIdx + i) % maxFrameNum)).pcm

/-- The frames that have not been given back. -/
def live (w : DecWorld) : List Pcm := w.held ++ w.waiting

/-- **The ring and the records are one queue of frames.** What the decoder is given is in the buffer
and beside every frame that is not given back; each frame goes to the player once, and in order; the
sizes are right; a frame that waits can be requested, and if there is none, and none is held, there
is room to decode one. -/
structure Playable (w : DecWorld) : Prop where
  region : ∀ p, w.decoding = some p →
    p + w.maxSize ≤ w.dec.ADCedarCtxA.nAOutBufferTotalSize ∧
      ∀ f ∈ w.live, f.pOutReadPtr + f.psize ≤ p ∨ p + w.maxSize ≤ f.pOutReadPtr
  inside : ∀ f ∈ w.live, f.pOutReadPtr + f.psize ≤ w.dec.ADCedarCtxA.nAOutBufferTotalSize
  once : w.decoded = w.given ++ w.held ++ w.waiting
  valid : w.dec.ADCedarCtxA.nAOutBufferValidSize = ((w.live.map Pcm.psize).sum : Nat)
  requestable : w.waiting ≠ [] → (w.call .plybkRequestPcmBuffer).1 = 0
  decodable : w.decoding = none → w.live = [] → (w.call .decRequestPcmBuffer).1 = 0

end DecWorld

end Maixii.AudioLib
