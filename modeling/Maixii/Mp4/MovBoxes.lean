import Maixii.Mp4.MovTables
import Maixii.Mp4.NalUnits

/-!
# `Mp4/MovBoxes.lean`: the boxes of `moov`

The functions `movGet...TagSize` and `mov_write_..._tag` of `mp4_muxer/Mp4Muxer.c`, and with them
`mov_write_header` and `mov_write_trailer`. Every box is made by two functions, one that tells its
size beforehand and one that writes it; the second begins with what the first says.

There is no result where C has none: codec data that cannot be read (`Mp4/NalUnits.lean`), a time
scale of zero. `hvcC`, which `hevc.c` writes, is left out, and so is a video track of H.265. The box
for GPS records has an entry for each packet of the third stream, and without these it is empty.
-/

set_option autoImplicit false

namespace Maixii.Mp4

open Maixii.Lib

/-- `globalTimescale`. -/
def globalTimescale : Nat := 1000

/-- `put_be24_cache`. -/
def putBe24 (v : Nat) : Bytes := [UInt8.ofNat (v / 2 ^ 16), UInt8.ofNat (v / 2 ^ 8), UInt8.ofNat v]

/-- `mov_find_codec_tag`. -/
def movFindCodecTag : CodecID → FourCC
  | .h264 => fourcc "avc1"
  | .h265 => fourcc "hvc1"
  | .mpeg4 => fourcc "mp4v"
  | .aac => fourcc "mp4a"
  | .pcm => fourcc "sowt"
  | .adpcm => ⟨0x6d, 0x73, 0x00, 0x11⟩
  | .mjpeg => fourcc "mjpa"

/-- `CODEC_ID_*` as numbers. -/
def CodecID.num : CodecID → Nat
  | .mpeg4 => 32
  | .h264 => 33
  | .h265 => 34
  | .mjpeg => 108
  | .aac => 64
  | .pcm => 106
  | .adpcm => 107

/-- `track->trackID`. -/
def StreamType.trackID : StreamType → Nat
  | .video => 1
  | .audio => 2

section

variable (s : AVFormatContext) (st : StreamType)

/-- `track->timescale`, which `SETAVPARA` sets. -/
def timescale : Nat :=
  match st with
  | .video => 1000
  | .audio => (s.codec .audio).sampleRate

/-- `track->tag`. -/
def trackTag : FourCC := movFindCodecTag (s.codec st).codecId

end

/-! ## Descriptors -/

/-- `for(i=1; len>>(7*i); i++);` A number of 32 bits has five groups of seven bits at most. -/
def descrGroups (len : Nat) : Nat → Nat → Nat
  | 0, i => i
  | n + 1, i => if len / 2 ^ (7 * i) = 0 then i else descrGroups len n (i + 1)

def descrLength (len : Nat) : Nat := len + 1 + descrGroups len 4 1

/-- `for(; i>0; i--)`: the groups above the lowest. -/
def descrHigh (size : Nat) : Nat → Bytes
  | 0 => []
  | i + 1 => UInt8.ofNat (size / 2 ^ (7 * (i + 1)) % 128 + 128) :: descrHigh size i

/-- `putDescr_cache`. -/
def putDescr (tag size : Nat) : Bytes :=
  [UInt8.ofNat tag] ++ descrHigh size (descrLength size - size - 2) ++ [UInt8.ofNat (size % 128)]

section

variable (s : AVFormatContext) (st : StreamType)

/-- `DecoderSpecificInfoSize`. -/
def decoderSpecificInfoLen (vos : Bytes) : Nat := if vos = [] then 0 else descrLength vos.length

def movGetEsdsTagSize : Nat :=
  let decoderConfigDescriptorSize := descrLength (13 + decoderSpecificInfoLen (s.vosData st))
  12 + descrLength (3 + decoderConfigDescriptorSize + descrLength 1)

def esdsBody : Bytes :=
  let vos := s.vosData st
  let info := decoderSpecificInfoLen vos
  putBe32 0 ++ putDescr 0x03 (3 + descrLength (13 + info) + descrLength 1) ++
    putBe16 st.trackID ++ [0] ++ putDescr 0x04 (13 + info) ++
    [UInt8.ofNat (s.codec st).codecId.num, if st = .audio then 0x15 else 0x11, 0] ++ putBe16 0 ++
    putBe32 0 ++ putBe32 0 ++ (if vos = [] then [] else putDescr 0x05 vos.length ++ vos) ++
    putDescr 0x06 1 ++ [0x02]

def movWriteEsdsTag : Bytes := putBe32 (movGetEsdsTagSize s st) ++ ascii "esds" ++ esdsBody s st

/-! ## Sample descriptions -/

/-- The codec data lies at `addr`. -/
def movGetAvccTagSize (addr : Nat) : Option Nat :=
  (ffIsomGetAvccSize (s.vosData .video) addr).map fun n => 8 + n

def movWriteAvccTag (addr : Nat) : Option Bytes :=
  (movGetAvccTagSize s addr).bind fun size =>
    (ffIsomWriteAvcc (s.vosData .video) addr).map fun content =>
      putBe32 size ++ ascii "avcC" ++ content

/-- ADPCM has a description of version 1. -/
def soundVersion : Nat := if (s.codec .audio).codecId = .adpcm then 1 else 0

def movGetAudioTagSize : Nat :=
  16 + 8 + 12 + (if soundVersion s = 1 then 16 else 0) +
    if trackTag s .audio = fourcc "mp4a" then movGetEsdsTagSize s .audio else 0

def audioFields : Bytes :=
  let enc := s.codec .audio
  putBe32 0 ++ putBe16 0 ++ putBe16 1 ++ putBe16 (soundVersion s) ++ putBe16 0 ++ putBe32 0 ++
    putBe16 enc.channels ++ putBe16 enc.bitsPerSample ++ putBe16 0 ++ putBe16 0 ++
    putBe16 enc.sampleRate ++ putBe16 0 ++
    if soundVersion s = 1 then
      putBe32 enc.frameSize ++ putBe32 (enc.frameSize * (enc.bitsPerSample / 8)) ++
        putBe32 (enc.frameSize * (enc.bitsPerSample / 8) * enc.channels) ++ putBe32 2
    else []

def movWriteAudioTag : Bytes :=
  putBe32 (movGetAudioTagSize s) ++ (trackTag s .audio).bytes ++ audioFields s ++
    if trackTag s .audio = fourcc "mp4a" then movWriteEsdsTag s .audio else []

/-- `hvc1` has no result. -/
def movGetVideoTagSize (addr : Nat) : Option Nat :=
  let size := 16 + 4 + 12 + 18 + 32 + 4
  if trackTag s .video = fourcc "avc1" then (movGetAvccTagSize s addr).map fun n => size + n
  else if trackTag s .video = fourcc "mp4v" then some (size + movGetEsdsTagSize s .video)
  else if trackTag s .video = fourcc "hvc1" then none
  else some size

def videoFields : Bytes :=
  let enc := s.codec .video
  putBe32 0 ++ putBe16 0 ++ putBe16 1 ++ putBe16 0 ++ putBe16 0 ++ putBe32 0 ++ putBe32 0 ++
    putBe32 0 ++ putBe16 enc.width ++ putBe16 enc.height ++ putBe32 0x00480000 ++
    putBe32 0x00480000 ++ putBe32 0 ++ putBe16 1 ++ [0] ++ List.replicate 31 0 ++ putBe16 0x18 ++
    putBe16 0xffff

/-- The box behind the fields of a video track. -/
def videoExtra (addr : Nat) : Option Bytes :=
  if trackTag s .video = fourcc "avc1" then movWriteAvccTag s addr
  else if trackTag s .video = fourcc "mp4v" then some (movWriteEsdsTag s .video)
  else if trackTag s .video = fourcc "hvc1" then none
  else some []

def movWriteVideoTag (addr : Nat) : Option Bytes :=
  (movGetVideoTagSize s addr).bind fun size => (videoExtra s addr).map fun extra =>
    putBe32 size ++ (trackTag s .video).bytes ++ videoFields s ++ extra

def movGetStsdTagSize (addr : Nat) : Option Nat :=
  match st with
  | .video => (movGetVideoTagSize s addr).map fun n => 16 + n
  | .audio => some (16 + movGetAudioTagSize s)

/-- The entry for the type of the track. -/
def movWriteEntryTag (addr : Nat) : Option Bytes :=
  match st with
  | .video => movWriteVideoTag s addr
  | .audio => some (movWriteAudioTag s)

def movWriteStsdTag (addr : Nat) : Option Bytes :=
  (movGetStsdTagSize s st addr).bind fun size => (movWriteEntryTag s st addr).map fun entry =>
    putBe32 size ++ ascii "stsd" ++ putBe32 0 ++ putBe32 1 ++ entry

end

/-! ## A track -/

def movGetDrefTagSize : Nat := 28

def drefBody : Bytes := putBe32 0 ++ putBe32 1 ++ putBe32 0xc ++ ascii "url " ++ putBe32 1

def movWriteDrefTag : Bytes := putBe32 movGetDrefTagSize ++ ascii "dref" ++ drefBody

def movGetDinfTagSize : Nat := 8 + movGetDrefTagSize

def movWriteDinfTag : Bytes := putBe32 movGetDinfTagSize ++ ascii "dinf" ++ movWriteDrefTag

def movGetSmhdTagSize : Nat := 16

def movWriteSmhdTag : Bytes :=
  putBe32 movGetSmhdTagSize ++ ascii "smhd" ++ (putBe32 0 ++ putBe16 0 ++ putBe16 0)

def movGetVmhdTagSize : Nat := 0x14

def movWriteVmhdTag : Bytes :=
  putBe32 movGetVmhdTagSize ++ ascii "vmhd" ++ (putBe32 1 ++ putBe32 0 ++ putBe32 0)

/-- `vmhd` or `smhd`. -/
def movWriteMediaTag : StreamType → Bytes
  | .video => movWriteVmhdTag
  | .audio => movWriteSmhdTag

def movGetMediaTagSize : StreamType → Nat
  | .video => movGetVmhdTagSize
  | .audio => movGetSmhdTagSize

section

variable (st : StreamType)

/-- `hdlr_type`. -/
def hdlrType : Bytes :=
  match st with
  | .video => ascii "vide"
  | .audio => ascii "soun"

/-- `descr`. -/
def hdlrDescr : Bytes :=
  match st with
  | .video => ascii "VideoHandler"
  | .audio => ascii "SoundHandler"

def movGetHdlrTagSize : Nat := 32 + 1 + (hdlrDescr st).length

def hdlrBody : Bytes :=
  putBe32 0 ++ [0, 0, 0, 0] ++ hdlrType st ++ putBe32 0 ++ putBe32 0 ++ putBe32 0 ++
    [UInt8.ofNat (hdlrDescr st).length] ++ hdlrDescr st

def movWriteHdlrTag : Bytes := putBe32 (movGetHdlrTagSize st) ++ ascii "hdlr" ++ hdlrBody st

end

section

variable (s : AVFormatContext) (mov : MovContext) (st : StreamType) (addr : Nat)

def movGetStblTagSize : Option Nat :=
  (movGetStsdTagSize s st addr).map fun stsd =>
    8 + stsd + movGetSttsTagSize mov st + (if st = .video then movGetStssTagSize mov else 0) +
      movGetStscTagSize mov st + movGetStszTagSize s mov st + movGetStcoTagSize mov st

def movWriteStblTag : Option (Bytes × MovContext) :=
  (movGetStblTagSize s mov st addr).bind fun size => (movWriteStsdTag s st addr).map fun stsd =>
    let (tables, rest) := movWriteTables s mov st
    (putBe32 size ++ ascii "stbl" ++ stsd ++ tables, rest)

def movGetMinfTagSize : Option Nat :=
  (movGetStblTagSize s mov st addr).map fun stbl =>
    8 + movGetMediaTagSize st + movGetDinfTagSize + stbl

def movWriteMinfTag : Option (Bytes × MovContext) :=
  (movGetMinfTagSize s mov st addr).bind fun size =>
    (movWriteStblTag s mov st addr).map fun (stbl, rest) =>
      (putBe32 size ++ ascii "minf" ++ movWriteMediaTag st ++ movWriteDinfTag ++ stbl, rest)

def movGetMdhdTagSize : Nat := 0x20

def mdhdBody : Bytes :=
  [0] ++ putBe24 0 ++ putBe32 s.createTime ++ putBe32 s.createTime ++ putBe32 (timescale s st) ++
    putBe32 (s.trackDuration st) ++ putBe16 0 ++ putBe16 0

def movWriteMdhdTag : Bytes := putBe32 movGetMdhdTagSize ++ ascii "mdhd" ++ mdhdBody s st

def movGetMdiaTagSize : Option Nat :=
  (movGetMinfTagSize s mov st addr).map fun minf =>
    8 + movGetMdhdTagSize + movGetHdlrTagSize st + minf

def movWriteMdiaTag : Option (Bytes × MovContext) :=
  (movGetMdiaTagSize s mov st addr).bind fun size =>
    (movWriteMinfTag s mov st addr).map fun (minf, rest) =>
      (putBe32 size ++ ascii "mdia" ++ movWriteMdhdTag s st ++ movWriteHdlrTag st ++ minf, rest)

def movGetTkhdTagSize : Nat := 0x5c

/-- `av_rescale_rnd`. -/
def avRescaleRnd (a b c : Nat) : Option Nat := if c = 0 then none else some ((a * b + c - 1) / c)

/-- The numbers `a`, `b`, `c` and `d` of the matrix; an unknown rotation is none. -/
def rotation (degrees : Int) : Nat × Nat × Nat × Nat :=
  if degrees = 90 then (0, 0x00010000, 0xFFFF0000, 0)
  else if degrees = 180 then (0xFFFF0000, 0, 0, 0xFFFF0000)
  else if degrees = 270 then (0, 0xFFFF0000, 0x00010000, 0)
  else (0x00010000, 0, 0, 0x00010000)

def tkhdBody (duration : Nat) : Bytes :=
  let enc := s.codec st
  let (a, b, c, d) := rotation enc.rotateDegree
  [0] ++ putBe24 0xf ++ putBe32 s.createTime ++ putBe32 s.createTime ++ putBe32 st.trackID ++
    putBe32 0 ++ putBe32 duration ++ putBe32 0 ++ putBe32 0 ++ putBe32 0 ++
    putBe16 (if st = .audio then 0x0100 else 0) ++ putBe16 0 ++ putBe32 a ++ putBe32 b ++
    putBe32 0 ++ putBe32 c ++ putBe32 d ++ putBe32 0 ++ putBe32 0 ++ putBe32 0 ++
    putBe32 0x40000000 ++ putBe32 (if st = .video then enc.width * 0x10000 else 0) ++
    putBe32 (if st = .video then enc.height * 0x10000 else 0)

def movWriteTkhdTag : Option Bytes :=
  (avRescaleRnd (s.trackDuration st) globalTimescale (timescale s st)).map fun duration =>
    putBe32 movGetTkhdTagSize ++ ascii "tkhd" ++ tkhdBody s st duration

def movGetTrakTagSize : Option Nat :=
  (movGetMdiaTagSize s mov st addr).map fun mdia => 8 + movGetTkhdTagSize + mdia

def movWriteTrakTag : Option (Bytes × MovContext) :=
  (movGetTrakTagSize s mov st addr).bind fun size => (movWriteTkhdTag s st).bind fun tkhd =>
    (movWriteMdiaTag s mov st addr).map fun (mdia, rest) =>
      (putBe32 size ++ ascii "trak" ++ tkhd ++ mdia, rest)

end

/-! ## The movie -/

section

variable (s : AVFormatContext) (mov : MovContext) (addr : Nat)

def movGetMvhdTagSize : Nat := 108

/-- The last number is that of the next track. -/
def mvhdBody : Bytes :=
  [0] ++ putBe24 0 ++ putBe32 s.createTime ++ putBe32 s.createTime ++ putBe32 globalTimescale ++
    putBe32 (s.trackDuration .video) ++ putBe32 0x00010000 ++ putBe16 0x0100 ++ putBe16 0 ++
    putBe32 0 ++ putBe32 0 ++ putBe32 0x00010000 ++ putBe32 0 ++ putBe32 0 ++ putBe32 0 ++
    putBe32 0x00010000 ++ putBe32 0 ++ putBe32 0 ++ putBe32 0 ++ putBe32 0x40000000 ++ putBe32 0 ++
    putBe32 0 ++ putBe32 0 ++ putBe32 0 ++ putBe32 0 ++ putBe32 0 ++ putBe32 3

def movWriteMvhdTag : Bytes := putBe32 movGetMvhdTagSize ++ ascii "mvhd" ++ mvhdBody s

/-- `GPS_ENTRY`. -/
structure GpsEntry where
  gpsDataPos : Nat
  gpsDataLenHold : Nat

/-- The entries up to `gps_entry_buff_wt` of `gps_entry_buff`: `mov_write_gps_packet` adds them, for
packets of the third stream, so there are none here. -/
def gpsEntryBuff : List GpsEntry := []

def movGetGpsTagSize (entries : List GpsEntry) : Nat := 8 + 8 + entries.length * 8

def movWriteGpsTag (entries : List GpsEntry) : Bytes :=
  putBe32 (movGetGpsTagSize entries) ++ ascii "gps " ++ (putBe32 0x00000101 ++
    putBe32 entries.length ++
      entries.flatMap fun e => putBe32 e.gpsDataPos ++ putBe32 e.gpsDataLenHold)

/-- A track without a sample is left out. -/
def trakSize (st : StreamType) : Option Nat :=
  if mov.size (.stsz st) = 0 then some 0 else movGetTrakTagSize s mov st addr

def writeTrak (st : StreamType) : Option (Bytes × MovContext) :=
  if mov.size (.stsz st) = 0 then some ([], mov) else movWriteTrakTag s mov st addr

def movGetMoovTagSize : Option Nat :=
  (trakSize s mov addr .video).bind fun video => (trakSize s mov addr .audio).map fun audio =>
    8 + movGetMvhdTagSize + video + audio +
      if s.geoAvailable then movGetGpsTagSize gpsEntryBuff else 0

/-- `moov` itself, whose size is told beforehand. -/
def moovBytes (moovSize : Nat) : Option (Bytes × MovContext) :=
  (writeTrak s mov addr .video).bind fun (video, mov) =>
    (writeTrak s mov addr .audio).map fun (audio, mov) =>
      (putBe32 moovSize ++ ascii "moov" ++ movWriteMvhdTag s ++ video ++ audio ++
        (if s.geoAvailable then movWriteGpsTag gpsEntryBuff else []), mov)

/-- `mov_write_free_tag`. -/
def movWriteFreeTag (size : Nat) : Bytes := putBe32 size ++ ascii "free"

/-- `mov->free_pos`, behind `ftyp`. -/
def freePos : Nat := 28

/-- `moov_size + 28 + 8 <= MOV_HEADER_RESERVE_SIZE`; the size is an `int`. -/
def FitsReserve (moovSize : Nat) : Prop :=
  2 ^ 31 ≤ moovSize ∨ moovSize + 28 + 8 ≤ headerReserveSize

instance (moovSize : Nat) : Decidable (FitsReserve moovSize) := inferInstanceAs (Decidable (_ ∨ _))

/-- `mov_write_moov_tag`: in front of `mdat` if there is room, with a `free` box behind it. -/
def movWriteMoovTag : Option MovContext :=
  (movGetMoovTagSize s mov addr).bind fun moovSize =>
    (moovBytes s mov addr moovSize).map fun (moov, rest) =>
      if FitsReserve moovSize then
        { rest with
          pb := (mov.pb.seek freePos).write
            (moov ++ movWriteFreeTag (headerReserveSize - moovSize - 28)) }
      else { rest with pb := mov.pb.write moov }

def movWriteFtypTag : Bytes :=
  putBe32 28 ++ ascii "ftyp" ++ ascii "isom" ++ putBe32 0x200 ++ ascii "isom" ++ ascii "iso2" ++
    ascii "mp41"

/-- `mov_write_header`, `mov_write_mdat_tag` included. -/
def movWriteHeader : MovContext :=
  { mov with
    pb := ((mov.pb.write (movWriteFtypTag ++ movWriteFreeTag (headerReserveSize - 28))).seek
      headerReserveSize).write (putBe32 0 ++ ascii "mdat") }

/-- `mov_write_trailer`. -/
def movWriteTrailer : Option MovContext :=
  (movWriteLastPacket mov).bind fun mov => (movWriteMoovTag s mov addr).map fun mov =>
    { mov with pb := (mov.pb.seek headerReserveSize).write (putBe32 (mov.mdatSize + 8)) }

end

/-- A whole recording: what the muxer leaves of these packets. -/
def recorded (s : AVFormatContext) (addr : Nat) (mem keys page : Nat → UInt32)
    (pkts : List AVPacket) : Option MovContext :=
  (movWritePackets s (movWriteHeader (opened mem keys page)) pkts).bind fun mov =>
    movWriteTrailer s mov addr

end Maixii.Mp4
