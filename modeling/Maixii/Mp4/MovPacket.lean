import Maixii.Mp4.MovContext

/-!
# `Mp4/MovPacket.lean`: one packet

`mov_write_packet` of `mp4_muxer/Mp4Muxer.c`. Where C leaves the behaviour undefined there is no
result: a store outside its array, a byte read outside its buffer or never set, a size that is no
`int`, a division by zero. The tmp files can be created and written.
-/

set_option autoImplicit false

namespace Maixii.Mp4

open Maixii.Lib

/-- `put_be32_cache`. -/
def putBe32 (v : Nat) : Bytes :=
  [UInt8.ofNat (v / 2 ^ 24), UInt8.ofNat (v / 2 ^ 16), UInt8.ofNat (v / 2 ^ 8), UInt8.ofNat v]

@[simp] theorem length_putBe32 (v : Nat) : (putBe32 v).length = 4 := rfl

section

variable (s : AVFormatContext) (mov : MovContext) (pkt : AVPacket)

/-- `size`: both parts, and the trailer of a JPEG. -/
def packetSize : Nat :=
  pkt.data0.length + pkt.data1.length + if (s.codec pkt.streamIndex).codecId = .mjpeg then 2 else 0

/-- The chunk before, if there is one, is over. Its page of `stsc` is counted by the track that
begins. -/
def MovContext.endChunk (here : StreamType) : Option MovContext :=
  match mov.lastStreamIndex with
  | none => some mov
  | some last => do
    let mov ← mov.store (.stsc last) (UInt32.ofNat mov.stscCnt)
    some ((mov.counted (.stsc last)).settle (.stsc last) (.stsc here))

/-- A packet of another stream begins a chunk. -/
def MovContext.newChunk : Option MovContext :=
  let here := pkt.streamIndex
  if mov.lastStreamIndex = some here then
    some mov
  else do
    let mov ← mov.store (.stco here) (UInt32.ofNat (mov.mdatSize + mdatStartPos))
    let mov ← (mov.counted (.stco here)).endChunk here
    let mov := { mov with stscCnt := 0 }
    some (mov.settle (.stco here) (.stco here))

/-- The samples of a packet of PCM. -/
def pcmSamples : Option Nat :=
  let enc := s.codec pkt.streamIndex
  let sample := enc.channels * (enc.bitsPerSample / 8)
  if sample = 0 then none else some (packetSize s pkt / sample)

/-- The samples of PCM are only counted. -/
def MovContext.countSamples (t : Table) (n : Nat) : MovContext :=
  { mov with
    size := Function.update mov.size t (mov.size t + n)
    stscCnt := mov.stscCnt + n }

/-- The sample sizes. -/
def MovContext.addSample : Option MovContext := do
  let t := Table.stsz pkt.streamIndex
  let mov ← if (s.codec pkt.streamIndex).codecId = .pcm then do
      some (mov.countSamples t (← pcmSamples s pkt))
    else do
      let mov ← mov.store t (UInt32.ofNat (packetSize s pkt))
      some { mov.counted t with stscCnt := mov.stscCnt + 1 }
  some (mov.settle t t)

/-- The durations. -/
def MovContext.addDuration : Option MovContext := do
  let mov ← mov.store .stts pkt.duration
  some ((mov.counted .stts).settle .stts .stts)

/-- `tmpStrmByte`, the fifth byte of the frame; it is never set if the first part is empty. -/
def tmpStrmByte : Option (Option UInt8) :=
  if 5 ≤ pkt.data0.length then
    some pkt.data0[4]?
  else if 0 < pkt.data0.length then
    pkt.data1[4 - pkt.data0.length]?.map some
  else
    some none

/-- `mov->cache_keyframe_ptr[trk->keyFrame_num] = trk->stts_size`, and the count. -/
def MovContext.noteKeyFrame : MovContext :=
  { mov with
    cacheKeyframe :=
      Function.update mov.cacheKeyframe mov.keyFrameNum (UInt32.ofNat (mov.size .stts))
    keyFrameNum := mov.keyFrameNum + 1 }

/-- Nothing keeps the number within the array; behind its end there is no result. -/
def MovContext.addKeyFrame : Option MovContext :=
  if mov.keyFrameNum < keyframeCacheEntries then some mov.noteKeyFrame else none

/-- Is it a key frame? `none` for a codec that is none of video. -/
def isKeyFrame : CodecID → Option (Option Bool)
  | .h264 => do
    let b ← (← tmpStrmByte pkt)
    some (some (b &&& 0x1f == 5))
  | .h265 => do
    let _ ← tmpStrmByte pkt
    some (some pkt.key)
  | .mpeg4 => do
    let b ← (← tmpStrmByte pkt)
    some (some (b >>> 6 == 0))
  | .mjpeg => do
    let _ ← tmpStrmByte pkt
    some (some (mov.keyframeNum == 0))
  | _ => do
    let _ ← tmpStrmByte pkt
    some none

/-- `mov->keyframe_num`: every 25th JPEG is a key frame. -/
def MovContext.countJpeg (codec : CodecID) : MovContext :=
  { mov with
    keyframeNum :=
      if codec = .mjpeg then if 25 ≤ mov.keyframeNum + 1 then 0 else mov.keyframeNum + 1
      else mov.keyframeNum }

/-- `bNeedSpecialWriteFlag`: a frame of H.264 or H.265 gets its length in place of the start
code. -/
def needSpecialWrite : Bool :=
  pkt.streamIndex = .video &&
    ((s.codec .video).codecId = .h264 || (s.codec .video).codecId = .h265) &&
    packetSize s pkt ≠ 0

/-- What is written for `data0`. -/
def writtenFirst : Bytes :=
  if pkt.data0 = [] then []
  else if needSpecialWrite s pkt then
    putBe32 ((2 ^ 32 + packetSize s pkt - 4) % 2 ^ 32) ++ pkt.data0.drop 4
  else pkt.data0

/-- What is written for `data1`: without what the length has taken. -/
def writtenSecond : Bytes :=
  if pkt.data0 ≠ [] ∧ needSpecialWrite s pkt ∧ pkt.data0.length ≤ 4 then
    pkt.data1.drop (4 - pkt.data0.length)
  else pkt.data1

/-- Everything that `mov_write_packet` writes into `mdat`. -/
def written : Bytes :=
  writtenFirst s pkt ++ writtenSecond s pkt ++
    if (s.codec pkt.streamIndex).codecId = .mjpeg then [0xff, 0xd9] else []

/-- The part for video alone; `false` is the error return for an unknown codec. -/
def MovContext.addFrame : Option (Bool × MovContext) := do
  let mov ← mov.addDuration pkt
  let codec := (s.codec .video).codecId
  match ← isKeyFrame mov pkt codec with
  | none => some (false, mov)
  | some key => do
    let mov ← if key then mov.addKeyFrame else some mov
    some (true, mov.countJpeg codec)

/-- `if(pkt->stream_index == 0)`. -/
def MovContext.addVideo : Option (Bool × MovContext) :=
  match pkt.streamIndex with
  | .video => mov.addFrame s pkt
  | .audio => some (true, mov)

/-- `mov_write_packet`; `false` is its `-1`. -/
def movWritePacket : Option (Bool × MovContext) :=
  if 2 ^ 31 ≤ packetSize s pkt then
    none
  else do
    let mov ← mov.newChunk pkt
    let mov := { mov with lastStreamIndex := some pkt.streamIndex }
    let mov ← mov.addSample s pkt
    let (ok, mov) ← mov.addVideo s pkt
    if ok then
      some (true, { mov with
        mdatSize := mov.mdatSize + packetSize s pkt
        pb := mov.pb.write (written s pkt) })
    else
      some (false, mov)

end

/-- `mov_write_packet` with the stream index `-1`, which `mov_write_trailer` calls. Without any
packet before there is no ring to store into. -/
def movWriteLastPacket (mov : MovContext) : Option MovContext := do
  let last ← mov.lastStreamIndex
  let t := Table.stsc last
  let mov ← mov.store t (UInt32.ofNat mov.stscCnt)
  some { mov with size := Function.update mov.size t (mov.size t + 1) }

/-- The packets, one after the other; what `mov_write_packet` returns is of no concern. -/
def movWritePackets (s : AVFormatContext) (mov : MovContext) : List AVPacket → Option MovContext
  | [] => some mov
  | pkt :: pkts => do
    let (_, mov) ← movWritePacket s mov pkt
    movWritePackets s mov pkts

end Maixii.Mp4
