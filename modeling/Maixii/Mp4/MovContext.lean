import Maixii.Lib.OutFile
import Maixii.Lib.Spill

/-!
# `Mp4/MovContext.lean`: the caches of the sample tables

The data of `mp4_muxer/Mp4Muxer.h` and what `Mp4MuxerOpen` makes of it. The tables of both tracks
grow in seven rings of one allocation (`mov_inf_cache`), and each ring spills its oldest page to a
tmp file of its own. A store that leaves its ring has no result.

Only video and audio are modelled. The source has a third stream, for text or GPS records, whose
packets also begin chunks: each stores into a third `stco` ring and ends the `stsc` chunk before it,
and when that ring is full its page goes to a tmp file that nobody has created. What is said here is
said of recordings without such packets.

The counters are `int` and `unsigned int` in the source. A file below 4 GB has fewer entries than
they hold.
-/

set_option autoImplicit false

namespace Maixii.Mp4

open Maixii.Lib

/-- `stream_index`: 0 is video and 1 audio; 2 is left out. -/
inductive StreamType where
  | video
  | audio
deriving DecidableEq, Repr

/-- The tables that are cached; `stts` only for video. -/
inductive Table where
  | stco (s : StreamType)
  | stsz (s : StreamType)
  | stsc (s : StreamType)
  | stts
deriving DecidableEq, Repr

/-- `CODEC_ID_*` of `record_writer.h`. -/
inductive CodecID where
  | mpeg4
  | h264
  | h265
  | mjpeg
  | aac
  | pcm
  | adpcm
deriving DecidableEq, Repr

/-- `AVCodecContext`; its `codec_type` is that of the stream. -/
structure AVCodecContext where
  codecId : CodecID
  width : Nat
  height : Nat
  rotateDegree : Int
  channels : Nat
  frameSize : Nat
  bitsPerSample : Nat
  sampleRate : Nat

/-- `AVFormatContext` and what of `MOVContext` the ioctls have set before the first packet.
`geoAvailable` stands for `geo_available` with `gps_pack_method` at `GPS_PACK_IN_MDAT`; the `udta`
box of `GPS_PACK_IN_TRACK` is left out. -/
structure AVFormatContext where
  codec : StreamType → AVCodecContext
  vosData : StreamType → Bytes
  createTime : Nat
  trackDuration : StreamType → Nat
  geoAvailable : Bool

/-- `AVPacket`; `flags & AVPACKET_FLAG_KEYFRAME` is `key`. -/
structure AVPacket where
  data0 : Bytes
  data1 : Bytes
  streamIndex : StreamType
  key : Bool
  duration : UInt32

/-! ## The rings -/

/-- `MOV_CACHE_TINY_PAGE_SIZE`. -/
def tinyPageSize : Nat := 1024 * 2

/-- `STCO_CACHE_SIZE`, `STSZ_CACHE_SIZE`, `STSC_CACHE_SIZE` and `STTS_CACHE_SIZE`. -/
def Table.cacheSize : Table → Nat
  | .stco _ => tinyPageSize * 4 * 2
  | .stsz _ => tinyPageSize * 4 * 4
  | .stsc _ => tinyPageSize * 4 * 2
  | .stts => tinyPageSize * 4 * 4

/-- `cache_start_ptr`, as an index into `mov_inf_cache`. Behind the two rings of `stco`, `stsz` and
`stsc` there is one for the third stream. -/
def Table.start : Table → Nat
  | .stco .video => 0
  | .stco .audio => tinyPageSize * 8
  | .stsz .video => tinyPageSize * 24
  | .stsz .audio => tinyPageSize * 40
  | .stsc .video => tinyPageSize * 72
  | .stsc .audio => tinyPageSize * 80
  | .stts => tinyPageSize * 96

/-- The entries of `cache_keyframe_ptr`: `KEYFRAME_CACHE_SIZE` is in bytes. -/
def keyframeCacheEntries : Nat := 8 * 1024 * 16 / 4

/-- `MOV_HEADER_RESERVE_SIZE`. -/
def headerReserveSize : Nat := 1024 * 1024

/-- `mov->mdat_start_pos`, behind the head of `mdat`. -/
def mdatStartPos : Nat := headerReserveSize + 8

/-- The pointers of one ring, and how many words it holds. -/
structure Cache where
  startPtr : Nat
  endPtr : Nat
  writePtr : Nat
  readPtr : Nat
  cacheSize : Nat

/-- `MOVContext` with its tracks: `size` is `stco_size` and the like, `tinyPages` is
`stco_tiny_pages` and the like, `fd` the tmp files in words. -/
structure MovContext where
  movInfCache : Nat → UInt32
  cacheKeyframe : Nat → UInt32
  cacheTinyPage : Nat → UInt32
  cache : Table → Cache
  fd : Table → List UInt32
  size : Table → Nat
  tinyPages : Table → Nat
  keyFrameNum : Nat
  /-- `mov->keyframe_num`, for MJPEG. -/
  keyframeNum : Nat
  stscCnt : Nat
  /-- None is `-1`. -/
  lastStreamIndex : Option StreamType
  mdatSize : Nat
  pb : OutFile

/-- The ring that `Mp4MuxerOpen` lays out. -/
def Table.opened (t : Table) : Cache where
  startPtr := t.start
  endPtr := t.start + (t.cacheSize - 1)
  writePtr := t.start
  readPtr := t.start
  cacheSize := 0

/-- `Mp4MuxerOpen`; what `malloc` has left in the caches is of no concern. -/
def opened (mem keys page : Nat → UInt32) : MovContext where
  movInfCache := mem
  cacheKeyframe := keys
  cacheTinyPage := page
  cache := Table.opened
  fd := fun _ => []
  size := fun _ => 0
  tinyPages := fun _ => 0
  keyFrameNum := 0
  keyframeNum := 0
  stscCnt := 0
  lastStreamIndex := none
  mdatSize := 0
  pb := OutFile.empty

namespace MovContext

/-! ## What happens to a ring -/

/-- `*mov->cache_write_ptr[..]++ = v`. -/
def store (mov : MovContext) (t : Table) (v : UInt32) : Option MovContext :=
  let c := mov.cache t
  if c.startPtr ≤ c.writePtr ∧ c.writePtr ≤ c.endPtr then
    some { mov with
      movInfCache := Function.update mov.movInfCache c.writePtr v
      cache := Function.update mov.cache t { c with writePtr := c.writePtr + 1 } }
  else
    none

/-- `trk->stco_size++` and `mov->stco_cache_size[..]++`. -/
def counted (mov : MovContext) (t : Table) : MovContext :=
  { mov with
    size := Function.update mov.size t (mov.size t + 1)
    cache := Function.update mov.cache t
      { mov.cache t with cacheSize := (mov.cache t).cacheSize + 1 } }

/-- The write pointer behind the last place is put back to the first. -/
def wrapWrite (mov : MovContext) (t : Table) : MovContext :=
  let c := mov.cache t
  { mov with
    cache := Function.update mov.cache t
      { c with writePtr := advance c.startPtr c.endPtr c.writePtr 0 } }

/-- A full ring writes a page to its tmp file, at the position that the counter `trk` gives, and
counts it there. The file is created when the first ring is full. -/
def spill (mov : MovContext) (t trk : Table) : MovContext :=
  let c := mov.cache t
  if t.cacheSize ≤ c.cacheSize then
    { mov with
      fd := Function.update mov.fd t
        (overwrite (mov.fd t) (mov.tinyPages trk * tinyPageSize)
          (words mov.movInfCache c.readPtr tinyPageSize))
      tinyPages := Function.update mov.tinyPages trk (mov.tinyPages trk + 1)
      cache := Function.update mov.cache t
        { c with
          cacheSize := c.cacheSize - tinyPageSize
          readPtr := advance c.startPtr c.endPtr c.readPtr tinyPageSize } }
  else
    mov

/-- What follows a store, sooner or later. -/
def settle (mov : MovContext) (t trk : Table) : MovContext := (mov.wrapWrite t).spill t trk

end MovContext

end Maixii.Mp4
