import Maixii.Mp4.MovPacket

/-!
# `Mp4/MovTables.lean`: the tables are written

`mov_write_stts_tag`, `mov_write_stss_tag`, `mov_write_stsc_tag`, `mov_write_stsz_tag` and
`mov_write_stco_tag` of `mp4_muxer/Mp4Muxer.c`. A table that never spilled is read from its ring as
it lies; another is read from its tmp file, through the tiny page, and then from its ring, round. The
read pointers are left behind the table, where nothing reads any more; the model leaves them alone.
-/

set_option autoImplicit false

namespace Maixii.Mp4

open Maixii.Lib

/-! ## What a table holds -/

/-- `read` of `n` words at `pos`: what the file has not, stays. -/
def fread (page : Nat → UInt32) (file : List UInt32) (pos n : Nat) : Nat → UInt32 :=
  let got := (file.drop pos).take n
  fun i => got.getD i (page i)

/-- Whole pages of a file, one after the other, and what the tiny page holds in the end. -/
def readPages (file : List UInt32) : Nat → Nat → (Nat → UInt32) → List UInt32 × (Nat → UInt32)
  | 0, _, page => ([], page)
  | left + 1, index, page =>
    let page := fread page file (index * tinyPageSize) tinyPageSize
    let (rest, last) := readPages file left (index + 1) page
    (words page 0 tinyPageSize ++ rest, last)

/-- Single words of a file; the first of the tiny page takes them. -/
def readWords (file : List UInt32) : Nat → Nat → (Nat → UInt32) → List UInt32 × (Nat → UInt32)
  | 0, _, page => ([], page)
  | left + 1, index, page =>
    let page := fread page file index 1
    let (rest, last) := readWords file left (index + 1) page
    (page 0 :: rest, last)

namespace MovContext

variable (mov : MovContext) (t : Table)

/-- What is in the ring alone, from the read pointer on. -/
def inRing : List UInt32 := words mov.movInfCache (mov.cache t).readPtr (mov.size t)

/-- What is in the ring besides the pages in the file. -/
def behindPages : List UInt32 :=
  wordsRound mov.movInfCache (mov.cache t).startPtr (mov.cache t).endPtr (mov.cache t).readPtr
    (mov.size t - mov.tinyPages t * tinyPageSize)

/-- The entries of `stco`, `stsz` or `stts`, and the tiny page. -/
def drain : List UInt32 × MovContext :=
  if mov.tinyPages t = 0 then
    (mov.inRing t, mov)
  else
    let (gone, page) := readPages (mov.fd t) (mov.tinyPages t) 0 mov.cacheTinyPage
    (gone ++ mov.behindPages t, { mov with cacheTinyPage := page })

/-- The entries of `stsc`, which is read word by word. -/
def drainWords : List UInt32 × MovContext :=
  if mov.tinyPages t = 0 then
    (mov.inRing t, mov)
  else
    let (gone, page) :=
      readWords (mov.fd t) (mov.tinyPages t * tinyPageSize) 0 mov.cacheTinyPage
    (gone ++ mov.behindPages t, { mov with cacheTinyPage := page })

end MovContext

/-! ## The boxes -/

/-- Words as `put_be32_cache` writes them. -/
def putWords (vs : List UInt32) : Bytes := vs.flatMap fun v => putBe32 v.toNat

section

variable (s : AVFormatContext) (mov : MovContext) (st : StreamType)

def movGetStcoTagSize : Nat := (mov.size (.stco st) + 4) * 4

def movGetStszTagSize : Nat :=
  if (s.codec st).codecId = .pcm then 5 * 4 else (mov.size (.stsz st) + 5) * 4

def movGetStscTagSize : Nat := (mov.size (.stsc st) * 3 + 4) * 4

def movGetStssTagSize : Nat := (mov.keyFrameNum + 4) * 4

def movGetSttsTagSize : Nat :=
  match st with
  | .audio => 16 + 1 * 8
  | .video => 16 + mov.size .stts * 8

def movWriteStcoTag : Bytes × MovContext :=
  let (offsets, rest) := mov.drain (.stco st)
  (putBe32 (movGetStcoTagSize mov st) ++ ascii "stco" ++ putBe32 0 ++
    putBe32 (mov.size (.stco st)) ++ putWords offsets, rest)

/-- PCM has one size for all samples. -/
def movWriteStszTag : Bytes × MovContext :=
  let enc := s.codec st
  let head := putBe32 (movGetStszTagSize s mov st) ++ ascii "stsz" ++ putBe32 0
  if enc.codecId = .pcm then
    (head ++ putBe32 (enc.channels * (enc.bitsPerSample / 8)) ++ putBe32 (mov.size (.stsz st)), mov)
  else
    let (sizes, rest) := mov.drain (.stsz st)
    (head ++ putBe32 0 ++ putBe32 (mov.size (.stsz st)) ++ putWords sizes, rest)

/-- An entry of `stsc`: the number of the chunk, its samples, and the description. -/
def stscEntry (entry : UInt32 × Nat) : Bytes :=
  putBe32 (entry.2 + 1) ++ putBe32 entry.1.toNat ++ putBe32 1

def movWriteStscTag : Bytes × MovContext :=
  let (counts, rest) := mov.drainWords (.stsc st)
  (putBe32 (movGetStscTagSize mov st) ++ ascii "stsc" ++ putBe32 0 ++
    putBe32 (mov.size (.stsc st)) ++ counts.zipIdx.flatMap stscEntry, rest)

def movWriteStssTag : Bytes :=
  putBe32 (movGetStssTagSize mov) ++ ascii "stss" ++ putBe32 0 ++ putBe32 mov.keyFrameNum ++
    putWords (words mov.cacheKeyframe 0 mov.keyFrameNum)

/-- An entry of `stts`: one sample of this duration. -/
def sttsEntry (duration : UInt32) : Bytes := putBe32 1 ++ putBe32 duration.toNat

/-- The duration of a frame is known with the next, so the first entry is skipped, and the last frame
has none. -/
def movWriteSttsTag : Bytes × MovContext :=
  let head := putBe32 (movGetSttsTagSize mov st) ++ ascii "stts" ++ putBe32 0
  match st with
  | .audio =>
    let enc := s.codec .audio
    (head ++ putBe32 1 ++ putBe32 (mov.size (.stsz .audio)) ++
      putBe32 (if enc.codecId = .pcm then 1 else enc.frameSize), mov)
  | .video =>
    let (durations, rest) := mov.drain .stts
    (head ++ putBe32 (mov.size .stts) ++ durations.tail.flatMap sttsEntry ++ sttsEntry 0, rest)

/-- The tables of `mov_write_stbl_tag`, everything behind `stsd`. -/
def movWriteTables : Bytes × MovContext :=
  let (stts, mov) := movWriteSttsTag s mov st
  let stss := if st = .video then movWriteStssTag mov else []
  let (stsc, mov) := movWriteStscTag mov st
  let (stsz, mov) := movWriteStszTag s mov st
  let (stco, mov) := movWriteStcoTag mov st
  (stts ++ stss ++ stsc ++ stsz ++ stco, mov)

end

end Maixii.Mp4
