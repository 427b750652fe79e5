import Maixii.Lib.Run
import Maixii.Muxer.TsCache
import Maixii.Muxer.TsPackets

/-!
# `Muxer/Mpeg2tsMuxer.lean`: packets in, transport packets out

`ts_write_packet` of `mpeg2ts_muxer/Mpeg2tsMuxer.c` and what it calls: a payload is put together
for each codec, the tables go out from time to time (`retransmit_si_info`), and the payload is cut
into transport packets, all of which go through the ring. The state is the one that
`Mpeg2tsMuxerOpen` and the command `SETAVPARA` leave. Allocations succeed, and the answer of the
callback's stream makes no difference.

`generated` is no member: it is every transport packet so far, to compare with what is handed over.
The ring hands over exactly these (`packets_handed_over`) as long as no call makes more of them for
a callback than the ring holds, and a file has fewer than 2^32.
-/

set_option autoImplicit false

namespace Maixii.Muxer

open Maixii.Lib

/-- `AVPacket`. -/
structure AVPacket where
  pts : Int
  data0 : Bytes
  data1 : Bytes
  streamIndex : Nat
  /-- `flags == 1`. -/
  key : Bool

/-- `CODEC_TYPE_VIDEO`, `CODEC_TYPE_AUDIO` and `CODEC_TYPE_TEXT`, which packets are marked with. -/
def codecTypeVideo : Nat := 0

def codecTypeAudio : Nat := 1

def codecTypeText : Nat := 2

/-- An `AVStream` with its `MpegTSWriteStream`. -/
structure AVStream where
  codec : CodecID
  pid : Nat
  cc : Nat
  vosData : Bytes
  firstFrame : Bool
  channels : Nat
  sampleRate : Nat

/-- The video that `SETAVPARA` is told of, with the header that is written for it. -/
structure VideoPara where
  h265 : Bool
  vosData : Bytes

/-- The audio; it is none unless both numbers are something. -/
structure AudioPara where
  aac : Bool
  channels : Nat
  sampleRate : Nat
  channels_ne : channels ≠ 0
  sampleRate_ne : sampleRate ≠ 0

/-- The streams there are. -/
structure AvPara where
  video : Option VideoPara
  audio : Option AudioPara
  /-- `geo_available`. -/
  geo : Bool

/-- `AVFormatContext` with its `MpegTSWrite`. -/
structure Mpeg2tsMuxer where
  mode : OutputMode
  vStrmFlag : Bool
  aStrmFlag : Bool
  streams : List AVStream
  patCc : Nat
  pmtCc : Nat
  patPacketCount : Nat
  patPmtCounter : Nat
  patPmtFlag : Bool
  pcrCounter : Nat
  firstVideoPts : Bool
  baseVideoPts : Int
  audioFrameNum : Nat
  cache : TsCache TsPacket
  generated : List TsPacket

def patPid : Nat := 0

def pmtPid : Nat := 0x0100

def pcrPid : Nat := 0x1000

/-- `pat_packet_period`. -/
def patPacketPeriod : Nat := 3

namespace Mpeg2tsMuxer

/-- The streams as `SETAVPARA` numbers them. -/
def makeStreams (para : AvPara) : List AVStream :=
  (para.video.map fun v =>
      ⟨if v.h265 then .h265 else .h264, 0x1011, 15, v.vosData, true, 0, 0⟩).toList ++
    (para.audio.map fun a =>
      ⟨if a.aac then .aac else .adpcm, 0x1100, 15, [], true, a.channels, a.sampleRate⟩).toList ++
    if para.geo then [⟨.ggad, 0x300, 15, [], true, 0, 0⟩] else []

/-- `Mpeg2tsMuxerOpen` and the commands before the first packet. -/
def opened (mode : OutputMode) (para : AvPara) : Mpeg2tsMuxer where
  mode := mode
  vStrmFlag := para.video.isSome
  aStrmFlag := para.audio.isSome
  streams := makeStreams para
  patCc := 15
  pmtCc := 15
  patPacketCount := patPacketPeriod
  patPmtCounter := 0
  patPmtFlag := true
  pcrCounter := 0
  firstVideoPts := true
  baseVideoPts := 0
  audioFrameNum := 0
  cache := TsCache.new
  generated := []

/-! ## Tables -/

/-- Transport packets are made, and go into the ring one after the other. -/
def generate (s : Mpeg2tsMuxer) (packets : List TsPacket) : Mpeg2tsMuxer :=
  { s with
    cache := s.cache.pushAll s.mode packets
    generated := s.generated ++ packets }

/-- `mpegts_write_pat`. -/
def writePat (s : Mpeg2tsMuxer) : Mpeg2tsMuxer :=
  match sectionBytes 0x00 0x0000 (put16 1 ++ put16 (0xe000 ||| pmtPid)) with
  | none => s
  | some buf =>
      let (packets, cc) := sectionPackets patPid buf.length true s.patCc buf
      { s.generate packets with patCc := cc }

/-- `stream_type` in the PMT. -/
def streamType : CodecID → UInt8
  | .h264 => 0x1b
  | .h265 => 0x24
  | .aac => 0x0f
  | .adpcm => 0x83
  | .ggad => 0x06

/-- What the PMT says of the streams. -/
def pmtData (streams : List AVStream) : Bytes :=
  put16 (0xe000 ||| pcrPid) ++ put16 0xf000 ++
    streams.flatMap fun st =>
      [streamType st.codec] ++ put16 (0xe000 ||| st.pid) ++
        if st.codec = .adpcm then put16 (0xf000 ||| 4) ++ [0x83, 0x02, 0x46, 0x3F]
        else put16 0xf000

/-- `mpegts_write_pmt`. -/
def writePmt (s : Mpeg2tsMuxer) : Mpeg2tsMuxer :=
  match sectionBytes 0x02 0x0001 (pmtData s.streams) with
  | none => s
  | some buf =>
      let (packets, cc) := sectionPackets pmtPid buf.length true s.pmtCc buf
      { s.generate packets with pmtCc := cc }

/-- `wirte_pcr_table`. -/
def writePcrTable (s : Mpeg2tsMuxer) (pts : Int) : Mpeg2tsMuxer :=
  { s.generate [pcrPacket s.pcrCounter pts] with pcrCounter := (s.pcrCounter + 1) % 16 }

/-- `retransmit_si_info`. -/
def retransmitSiInfo (s : Mpeg2tsMuxer) (pts : Int) (idx : Nat) : Mpeg2tsMuxer :=
  match s.mode with
  | .callbackBuffer =>
      let s :=
        if s.patPmtCounter = 4 ∨ s.patPmtFlag = true then
          writePmt (writePat { s with patPmtCounter := 0, patPmtFlag := false })
        else s
      if idx = codecTypeVideo then s.writePcrTable pts else s
  | .tsFile =>
      if s.patPacketCount = patPacketPeriod then
        (writePmt (writePat { s with patPacketCount := 0 })).writePcrTable pts
      else s

/-! ## Payloads -/

/-- `AudioSampleRate`. -/
def audioSampleRate : List Nat :=
  [96000, 88200, 64000, 48000, 44100, 32000, 24000, 22050, 16000, 12000, 11025, 8000, 7350]

/-- The ADTS header; `frameLength` counts it in. -/
def adtsHeader (st : AVStream) (frameLength : Nat) : Bytes :=
  [0xFF, 0xF1,
    UInt8.ofNat (1 * 64 ||| audioSampleRate.idxOf st.sampleRate * 4 ||| st.channels % 8 / 4),
    UInt8.ofNat (st.channels % 4 * 64 ||| frameLength % 0x2000 / 0x800),
    UInt8.ofNat (frameLength % 0x2000 / 8), UInt8.ofNat (frameLength % 8 * 32 ||| 0x1F),
    UInt8.ofNat (0xFC ||| frameLength / 1024 % 4)]

/-- The times of video count from the first one on. -/
def videoPts (s : Mpeg2tsMuxer) (pts : Int) : Int × Mpeg2tsMuxer :=
  let s := if s.firstVideoPts then { s with firstVideoPts := false, baseVideoPts := pts } else s
  ((pts - s.baseVideoPts) * 90, s)

/-- An access unit delimiter and the header of the stream come before a frame. -/
def videoPayload (s : Mpeg2tsMuxer) (i : Nat) (st : AVStream) (pkt : AVPacket) (aud : Bytes)
    (header : Bool) : Bytes × Int × Mpeg2tsMuxer :=
  let vos := if header then st.vosData else []
  let st := if header then { st with firstFrame := false } else st
  let (pts, s) :=
    { s with patPmtCounter := s.patPmtCounter + 1, streams := s.streams.set i st }.videoPts pkt.pts
  (aud ++ vos ++ pkt.data0 ++ pkt.data1, pts, s)

/-- The payload and the time that `ts_write_packet` makes of a packet. -/
def payloadOf (s : Mpeg2tsMuxer) (i : Nat) (st : AVStream) (pkt : AVPacket) :
    Bytes × Int × Mpeg2tsMuxer :=
  match st.codec with
  | .h264 => s.videoPayload i st pkt [0, 0, 0, 1, 0x09, 0x30] (st.firstFrame || pkt.key)
  | .h265 =>
      s.videoPayload i st pkt [0, 0, 0, 1, 70, 1, 0x50]
        (st.firstFrame || pkt.data0[4]? == some 0x26)
  | .aac =>
      (adtsHeader st (pkt.data0.length + pkt.data1.length + 7) ++ pkt.data0 ++ pkt.data1,
        s.audioFrameNum * 90000 * 1024 / st.sampleRate,
        { s with audioFrameNum := s.audioFrameNum + 1 })
  | .adpcm => (pkt.data0, pkt.pts * 90, { s with audioFrameNum := s.audioFrameNum + 1 })
  | .ggad => (pkt.data0, pkt.pts, s)

/-! ## Packets -/

/-- The counter that a PES leaves to its stream. -/
def setCc (s : Mpeg2tsMuxer) (i cc : Nat) : Mpeg2tsMuxer :=
  { s with streams := s.streams.modify i fun st => { st with cc := cc } }

/-- Before the packets of a stream other than text come the tables, when it is time. -/
def beforePes (s : Mpeg2tsMuxer) (pts : Int) (idx : Nat) : Mpeg2tsMuxer :=
  if idx ≠ codecTypeText then
    let s := s.retransmitSiInfo pts idx
    { s with patPacketCount := s.patPacketCount + 1 }
  else s

/-- The payload is cut into packets. -/
def cutPes (s : Mpeg2tsMuxer) (i : Nat) (st : AVStream) (payload : Bytes) (pts : Int) :
    Mpeg2tsMuxer :=
  let (packets, cc) := pesPackets st.pid st.codec pts payload
  (s.generate packets).setCc i cc

/-- A callback is handed all that the ring holds. -/
def handOver (s : Mpeg2tsMuxer) : Mpeg2tsMuxer :=
  if s.mode = .callbackBuffer then { s with cache := s.cache.flush } else s

/-- `mpegts_write_pes`. -/
def writePes (s : Mpeg2tsMuxer) (i : Nat) (st : AVStream) (payload : Bytes) (pts : Int)
    (idx : Nat) : Mpeg2tsMuxer :=
  ((s.beforePes pts idx).cutPes i st payload pts).handOver

/-- The stream a packet goes to: without video or audio, those behind move up. -/
def realStrmIdx (s : Mpeg2tsMuxer) (idx : Nat) : Nat :=
  if (!s.vStrmFlag || !s.aStrmFlag) && (idx == codecTypeText || idx == codecTypeAudio) then idx - 1
  else idx

/-- `ts_write_packet`. A stream that was not declared has no codec it supports. -/
def tsWritePacket (s : Mpeg2tsMuxer) (pkt : AVPacket) : Mpeg2tsMuxer :=
  let i := s.realStrmIdx pkt.streamIndex
  match s.streams[i]? with
  | none => s
  | some st =>
      let (payload, pts, s) := s.payloadOf i st pkt
      s.writePes i st payload pts pkt.streamIndex

def system : System Mpeg2tsMuxer AVPacket :=
  System.ofStep (fun s => ∃ mode para, s = opened mode para) fun s pkt => some (s.tsWritePacket pkt)

/-- **What is handed over** is what was made: the ring has the rest, and with the trailer, or at the
end of every call for a callback, it is all there, packet by packet and nothing else. -/
structure HandedOver (s : Mpeg2tsMuxer) : Prop where
  held : ∃ held, s.cache.Holds s.generated held
  trailer : ∃ c, s.cache.writeTrailer s.mode = some c ∧ c.out = s.generated.map some

/-- The length of the payload that is made of a packet. -/
def payloadLength (st : AVStream) (pkt : AVPacket) : Nat :=
  match st.codec with
  | .h264 =>
      6 + (if st.firstFrame || pkt.key then st.vosData.length else 0) + pkt.data0.length +
        pkt.data1.length
  | .h265 =>
      7 + (if st.firstFrame || pkt.data0[4]? == some 0x26 then st.vosData.length else 0) +
        pkt.data0.length + pkt.data1.length
  | .aac => 7 + pkt.data0.length + pkt.data1.length
  | .adpcm | .ggad => pkt.data0.length

/-- The packets that a payload takes. The first one has the PES header too, which is of six bytes
for text and of sixteen with a time. -/
def pesCount (codec : CodecID) (size : Nat) : Nat :=
  if size = 0 then 0 else 1 + (size - (184 - if codec = .ggad then 6 else 16) + 183) / 184

/-- The packets of the tables that are due: one for each table and one for the clock. Before it
looks, a call counts a frame of video. -/
def tableCount (s : Mpeg2tsMuxer) (st : AVStream) (idx : Nat) : Nat :=
  let frames := s.patPmtCounter + if st.codec = .h264 ∨ st.codec = .h265 then 1 else 0
  if idx = codecTypeText then 0
  else
    match s.mode with
    | .callbackBuffer =>
        (if frames = 4 ∨ s.patPmtFlag = true then 2 else 0) + if idx = codecTypeVideo then 1 else 0
    | .tsFile => if s.patPacketCount = patPacketPeriod then 3 else 0

/-- The packets that a call is to make, of what it is given and the counters it finds. -/
def packetsDue (s : Mpeg2tsMuxer) (pkt : AVPacket) : Nat :=
  match s.streams[s.realStrmIdx pkt.streamIndex]? with
  | none => 0
  | some st => s.tableCount st pkt.streamIndex + pesCount st.codec (payloadLength st pkt)

/-- The condition: for a callback, a call makes no more packets than the ring holds; a file has
fewer than 2^32. -/
def Roomy (s : Mpeg2tsMuxer) (pkt : AVPacket) : Prop :=
  match s.mode with
  | .callbackBuffer => s.packetsDue pkt ≤ cachePackets
  | .tsFile => s.generated.length + s.packetsDue pkt < 2 ^ 32

instance (s : Mpeg2tsMuxer) (pkt : AVPacket) : Decidable (Roomy s pkt) := by
  unfold Roomy
  cases s.mode <;> infer_instance

/-! ## Whatever is made goes into the ring -/

/-- Between these states some packets were made, and went into the ring in this order. -/
structure Grew (s s' : Mpeg2tsMuxer) (packets : List TsPacket) : Prop where
  mode : s'.mode = s.mode
  count : s'.streams.length = s.streams.length
  cache : s'.cache = s.cache.pushAll s.mode packets
  generated : s'.generated = s.generated ++ packets

variable {s s' t : Mpeg2tsMuxer} {ps qs : List TsPacket}

/-- Nothing was made. -/
theorem grew_of_eq (hmode : s'.mode = s.mode) (hcount : s'.streams.length = s.streams.length)
    (hcache : s'.cache = s.cache) (hgen : s'.generated = s.generated) : Grew s s' [] :=
  ⟨hmode, hcount, hcache, by rw [hgen, List.append_nil]⟩

theorem Grew.trans (h : Grew s s' ps) (h' : Grew s' t qs) : Grew s t (ps ++ qs) where
  mode := h'.mode.trans h.mode
  count := h'.count.trans h.count
  cache := by rw [h'.cache, h.cache, h.mode, TsCache.pushAll, TsCache.pushAll, TsCache.pushAll,
    List.foldl_append]
  generated := by rw [h'.generated, h.generated, List.append_assoc]

/-- What fits into one packet is one. -/
theorem length_sectionPackets (pid cc : Nat) {buf : Bytes} (hne : buf ≠ [])
    (hlen : buf.length ≤ 183) : (sectionPackets pid buf.length true cc buf).1.length = 1 := by
  have hdrop : buf.drop (sectionRoom true) = [] := List.drop_of_length_le hlen
  obtain ⟨n, hn⟩ := Nat.exists_eq_succ_of_ne_zero (List.length_pos_of_ne_nil hne).ne'
  rw [hn]
  unfold sectionPackets
  rw [if_neg hne, hdrop]
  cases n <;> rfl

/-- A table of at most 171 bytes is one packet. -/
theorem sectionBytes_short (tid : UInt8) (id : Nat) {data : Bytes} (hlen : data.length ≤ 171) :
    ∃ buf, sectionBytes tid id data = some buf ∧ buf ≠ [] ∧ buf.length ≤ 183 := by
  unfold sectionBytes
  rw [if_neg (by omega)]
  refine ⟨_, rfl, by simp, ?_⟩
  simp only [put16, List.length_append, List.length_cons, List.length_nil]
  omega

theorem grew_writePat (s : Mpeg2tsMuxer) : ∃ ps, ps.length = 1 ∧ Grew s s.writePat ps := by
  have hdata : (put16 1 ++ put16 (0xe000 ||| pmtPid)).length ≤ 171 := by decide
  obtain ⟨buf, hbuf, hne, hlen⟩ := sectionBytes_short 0x00 0x0000 hdata
  unfold writePat
  rw [hbuf]
  exact ⟨_, length_sectionPackets patPid s.patCc hne hlen, rfl, rfl, rfl, rfl⟩

/-- A stream takes at most nine bytes of the map. -/
theorem length_pmtData (streams : List AVStream) :
    (pmtData streams).length ≤ 4 + 9 * streams.length := by
  have hentries : ∀ l : List AVStream, (l.flatMap fun st =>
      [streamType st.codec] ++ put16 (0xe000 ||| st.pid) ++
        if st.codec = .adpcm then put16 (0xf000 ||| 4) ++ [0x83, 0x02, 0x46, 0x3F]
        else put16 0xf000).length ≤ 9 * l.length := by
    intro l
    induction l with
    | nil => exact Nat.le_refl 0
    | cons st l ih =>
      have hentry : ([streamType st.codec] ++ put16 (0xe000 ||| st.pid) ++
          if st.codec = .adpcm then put16 (0xf000 ||| 4) ++ [0x83, 0x02, 0x46, 0x3F]
          else put16 0xf000).length ≤ 9 := by
        split <;> simp [put16]
      rw [List.flatMap_cons, List.length_append, List.length_cons]
      omega
  have hstreams := hentries streams
  unfold pmtData
  rw [List.length_append, List.length_append]
  exact Nat.add_le_add (Nat.le_refl 4) hstreams

theorem grew_writePmt (hcount : s.streams.length ≤ 3) :
    ∃ ps, ps.length = 1 ∧ Grew s s.writePmt ps := by
  have hdata := length_pmtData s.streams
  obtain ⟨buf, hbuf, hne, hlen⟩ := sectionBytes_short 0x02 0x0001
    (Nat.le_trans hdata (by omega : 4 + 9 * s.streams.length ≤ 171))
  unfold writePmt
  rw [hbuf]
  exact ⟨_, length_sectionPackets pmtPid s.pmtCc hne hlen, rfl, rfl, rfl, rfl⟩

theorem grew_writePcrTable (s : Mpeg2tsMuxer) (pts : Int) :
    Grew s (s.writePcrTable pts) [pcrPacket s.pcrCounter pts] :=
  ⟨rfl, rfl, rfl, rfl⟩

/-- The two tables. -/
theorem grew_tables (hcount : s.streams.length ≤ 3) :
    ∃ ps, ps.length = 2 ∧ Grew s (writePmt (writePat s)) ps := by
  obtain ⟨ps, hlen, hps⟩ := grew_writePat s
  obtain ⟨qs, hlen', hqs⟩ := grew_writePmt (s := s.writePat) (hps.count ▸ hcount)
  refine ⟨ps ++ qs, ?_, hps.trans hqs⟩
  rw [List.length_append, hlen, hlen']

/-- What goes out for the tables that are due. -/
theorem grew_retransmitSiInfo (hcount : s.streams.length ≤ 3) (pts : Int) (idx : Nat) :
    ∃ ps, Grew s (s.retransmitSiInfo pts idx) ps ∧
      (s.mode = .callbackBuffer → ps.length =
        (if s.patPmtCounter = 4 ∨ s.patPmtFlag = true then 2 else 0) +
          if idx = codecTypeVideo then 1 else 0) ∧
      (s.mode = .tsFile → ps.length = if s.patPacketCount = patPacketPeriod then 3 else 0) := by
  unfold retransmitSiInfo
  split
  · rename_i hmode
    have hother : s.mode ≠ .tsFile := fun h => by rw [hmode] at h; cases h
    have htables : ∃ ps, ps.length = (if s.patPmtCounter = 4 ∨ s.patPmtFlag = true then 2 else 0) ∧
        Grew s (if s.patPmtCounter = 4 ∨ s.patPmtFlag = true then
          writePmt (writePat { s with patPmtCounter := 0, patPmtFlag := false }) else s) ps := by
      split
      · obtain ⟨ps, hlen, hps⟩ :=
          grew_tables (s := { s with patPmtCounter := 0, patPmtFlag := false }) hcount
        exact ⟨ps, hlen, hps.mode, hps.count, hps.cache, hps.generated⟩
      · exact ⟨[], rfl, grew_of_eq rfl rfl rfl rfl⟩
    obtain ⟨ps, hlen, hps⟩ := htables
    dsimp only
    by_cases hidx : idx = codecTypeVideo
    · rw [if_pos hidx, if_pos hidx]
      refine ⟨_, hps.trans (grew_writePcrTable _ pts), fun _ => ?_, fun h => absurd h hother⟩
      rw [List.length_append, hlen]
      rfl
    · rw [if_neg hidx, if_neg hidx]
      exact ⟨ps, hps, fun _ => hlen, fun h => absurd h hother⟩
  · rename_i hmode
    have hother : s.mode ≠ .callbackBuffer := fun h => by rw [hmode] at h; cases h
    by_cases hdue : s.patPacketCount = patPacketPeriod
    · rw [if_pos hdue, if_pos hdue]
      obtain ⟨ps, hlen, hps⟩ := grew_tables (s := { s with patPacketCount := 0 }) hcount
      have hs : Grew s (writePmt (writePat { s with patPacketCount := 0 })) ps :=
        ⟨hps.mode, hps.count, hps.cache, hps.generated⟩
      refine ⟨_, hs.trans (grew_writePcrTable _ pts), fun h => absurd h hother, fun _ => ?_⟩
      rw [List.length_append, hlen]
      rfl
    · rw [if_neg hdue, if_neg hdue]
      exact ⟨[], grew_of_eq rfl rfl rfl rfl, fun h => absurd h hother, fun _ => rfl⟩

/-- Making a payload makes no packet, and counts a frame of video. -/
theorem grew_payloadOf (s : Mpeg2tsMuxer) (i : Nat) (st : AVStream) (pkt : AVPacket) :
    Grew s (s.payloadOf i st pkt).2.2 [] ∧
      (s.payloadOf i st pkt).2.2.patPmtCounter =
        s.patPmtCounter + (if st.codec = .h264 ∨ st.codec = .h265 then 1 else 0) ∧
      (s.payloadOf i st pkt).2.2.patPmtFlag = s.patPmtFlag ∧
      (s.payloadOf i st pkt).2.2.patPacketCount = s.patPacketCount := by
  have hvideo : ∀ aud b, Grew s (s.videoPayload i st pkt aud b).2.2 [] ∧
      (s.videoPayload i st pkt aud b).2.2.patPmtCounter = s.patPmtCounter + 1 ∧
      (s.videoPayload i st pkt aud b).2.2.patPmtFlag = s.patPmtFlag ∧
      (s.videoPayload i st pkt aud b).2.2.patPacketCount = s.patPacketCount := by
    intro aud b
    unfold videoPayload videoPts
    dsimp only
    split <;> exact ⟨grew_of_eq rfl List.length_set rfl rfl, rfl, rfl, rfl⟩
  unfold payloadOf
  cases hcodec : st.codec with
  | h264 => exact hvideo _ _
  | h265 => exact hvideo _ _
  | aac => exact ⟨grew_of_eq rfl rfl rfl rfl, rfl, rfl, rfl⟩
  | adpcm => exact ⟨grew_of_eq rfl rfl rfl rfl, rfl, rfl, rfl⟩
  | ggad => exact ⟨grew_of_eq rfl rfl rfl rfl, rfl, rfl, rfl⟩

/-- The payload is as long as `payloadLength` says, and its time is never the one that stands for
none: video and PCM count in steps of 90, and AAC from zero. -/
theorem payloadOf_length (s : Mpeg2tsMuxer) (i : Nat) (st : AVStream) (pkt : AVPacket) :
    (s.payloadOf i st pkt).1.length = payloadLength st pkt ∧
      (st.codec ≠ .ggad → (s.payloadOf i st pkt).2.1 ≠ -1) := by
  have hvideo : ∀ aud b, (s.videoPayload i st pkt aud b).2.1 ≠ -1 := by
    intro aud b
    unfold videoPayload videoPts
    dsimp only
    omega
  unfold payloadOf payloadLength
  cases st.codec with
  | h264 =>
    refine ⟨?_, fun _ => hvideo _ _⟩
    simp only [videoPayload, List.length_append, List.length_cons, List.length_nil]
    split <;> simp
  | h265 =>
    refine ⟨?_, fun _ => hvideo _ _⟩
    simp only [videoPayload, List.length_append, List.length_cons, List.length_nil]
    split <;> simp
  | aac =>
    have hnonneg : (0 : Int) ≤ s.audioFrameNum * 90000 * 1024 / st.sampleRate :=
      Int.ediv_nonneg (by omega) (by omega)
    refine ⟨?_, fun _ => by dsimp only; omega⟩
    simp only [adtsHeader, List.length_append, List.length_cons, List.length_nil]
  | adpcm => exact ⟨rfl, fun _ => by dsimp only; omega⟩
  | ggad => exact ⟨rfl, fun h => absurd rfl h⟩

theorem grew_beforePes (hcount : s.streams.length ≤ 3) (pts : Int) (idx : Nat) :
    ∃ ps, Grew s (s.beforePes pts idx) ps ∧
      (idx = codecTypeText → ps = []) ∧
      (idx ≠ codecTypeText → s.mode = .callbackBuffer → ps.length =
        (if s.patPmtCounter = 4 ∨ s.patPmtFlag = true then 2 else 0) +
          if idx = codecTypeVideo then 1 else 0) ∧
      (idx ≠ codecTypeText → s.mode = .tsFile →
        ps.length = if s.patPacketCount = patPacketPeriod then 3 else 0) := by
  unfold beforePes
  by_cases hidx : idx = codecTypeText
  · rw [if_neg (not_not.mpr hidx)]
    exact ⟨[], grew_of_eq rfl rfl rfl rfl, fun _ => rfl, fun h => absurd hidx h,
      fun h => absurd hidx h⟩
  · rw [if_pos hidx]
    obtain ⟨ps, hps, hcallback, hfile⟩ := grew_retransmitSiInfo hcount pts idx
    exact ⟨ps, ⟨hps.mode, hps.count, hps.cache, hps.generated⟩, fun h => absurd h hidx,
      fun _ => hcallback, fun _ => hfile⟩

theorem grew_cutPes (s : Mpeg2tsMuxer) (i : Nat) (st : AVStream) (payload : Bytes) (pts : Int) :
    Grew s (s.cutPes i st payload pts) (pesPackets st.pid st.codec pts payload).1 :=
  ⟨rfl, List.length_modify _ _ _, rfl, rfl⟩

/-- A PES takes as many packets as its payload's length says. -/
theorem length_pesPackets_count (pid : Nat) {codec : CodecID} {pts : Int}
    (hpts : codec ≠ .ggad → pts ≠ -1) (payload : Bytes) :
    (pesPackets pid codec pts payload).1.length = pesCount codec payload.length := by
  unfold pesCount
  by_cases hnil : payload = []
  · subst hnil
    rfl
  · have hhead : (pesHeader codec pts payload.length).length = if codec = .ggad then 6 else 16 := by
      unfold pesHeader
      by_cases hcodec : codec = .ggad
      · simp [hcodec, put16]
      · simp [hcodec, hpts hcodec, put16, writePts]
    have hpos : payload.length ≠ 0 := (List.length_pos_of_ne_nil hnil).ne'
    rw [length_pesPackets pid codec pts payload hnil, hhead, if_neg hpos]

/-- **A call** makes the packets that are due, which all go into the ring, and then hands over. -/
theorem grew_tsWritePacket (hcount : s.streams.length ≤ 3) (pkt : AVPacket) :
    s.tsWritePacket pkt = s ∨ ∃ t ps, Grew s t ps ∧ s.tsWritePacket pkt = t.handOver ∧
      ps.length = s.packetsDue pkt := by
  unfold tsWritePacket packetsDue
  dsimp only
  cases hst : s.streams[s.realStrmIdx pkt.streamIndex]? with
  | none => exact .inl rfl
  | some st =>
    obtain ⟨hpayload, hcounter, hflag, hperiod⟩ :=
      grew_payloadOf s (s.realStrmIdx pkt.streamIndex) st pkt
    obtain ⟨hlen, hpts⟩ := payloadOf_length s (s.realStrmIdx pkt.streamIndex) st pkt
    obtain ⟨ps, hps, htext, hcallback, hfile⟩ := grew_beforePes (hpayload.count ▸ hcount)
      (s.payloadOf (s.realStrmIdx pkt.streamIndex) st pkt).2.1 pkt.streamIndex
    have hall := (hpayload.trans hps).trans (grew_cutPes _ (s.realStrmIdx pkt.streamIndex) st
      (s.payloadOf (s.realStrmIdx pkt.streamIndex) st pkt).1
      (s.payloadOf (s.realStrmIdx pkt.streamIndex) st pkt).2.1)
    have htables : ps.length = s.tableCount st pkt.streamIndex := by
      rw [hcounter, hflag, hpayload.mode] at hcallback
      rw [hperiod, hpayload.mode] at hfile
      unfold tableCount
      dsimp only
      by_cases hidx : pkt.streamIndex = codecTypeText
      · rw [if_pos hidx, htext hidx]
        rfl
      · rw [if_neg hidx]
        cases hmode : s.mode with
        | callbackBuffer => exact hcallback hidx hmode
        | tsFile => exact hfile hidx hmode
    refine .inr ⟨_, _, hall, rfl, ?_⟩
    rw [List.nil_append, List.length_append, htables, length_pesPackets_count st.pid hpts, hlen]

/-! ## The ring over a whole recording -/

/-- **Between two calls**: a file's ring is in order, and a callback's is empty. -/
structure Kept (s : Mpeg2tsMuxer) : Prop where
  count : s.streams.length ≤ 3
  ring : match s.mode with
    | .callbackBuffer => s.cache.Holds s.generated [] ∧ s.cache.readPtr = 0
    | .tsFile => ∃ held, s.cache.Filed s.generated held ∧ s.generated.length < 2 ^ 32

/-- There is at most one stream of each kind. -/
theorem length_makeStreams (para : AvPara) : (makeStreams para).length ≤ 3 := by
  obtain ⟨video, audio, geo⟩ := para
  cases video <;> cases audio <;> cases geo <;> simp [makeStreams]

theorem kept_opened (mode : OutputMode) (para : AvPara) : Kept (opened mode para) where
  count := length_makeStreams para
  ring := by
    cases mode with
    | callbackBuffer => exact ⟨TsCache.holds_new, rfl⟩
    | tsFile => exact ⟨[], TsCache.filed_new, by show 0 < 2 ^ 32; decide⟩

theorem handOver_generated (s : Mpeg2tsMuxer) : s.handOver.generated = s.generated := by
  unfold handOver
  split <;> rfl

theorem handOver_mode (s : Mpeg2tsMuxer) : s.handOver.mode = s.mode := by
  unfold handOver
  split <;> rfl

theorem handOver_streams (s : Mpeg2tsMuxer) : s.handOver.streams = s.streams := by
  unfold handOver
  split <;> rfl

/-- **One call.** -/
theorem Kept.tsWritePacket (h : Kept s) (pkt : AVPacket) (hroom : Roomy s pkt) :
    Kept (s.tsWritePacket pkt) := by
  rcases grew_tsWritePacket h.count pkt with heq | ⟨t, ps, hg, heq, hdue⟩
  · rw [heq]
    exact h
  · have hring := h.ring
    unfold Roomy at hroom
    rw [← hdue] at hroom
    rw [heq]
    refine ⟨by rw [handOver_streams, hg.count]; exact h.count, ?_⟩
    rw [handOver_generated, handOver_mode, hg.mode, hg.generated]
    cases hm : s.mode with
    | callbackBuffer =>
      rw [hm] at hring hroom
      obtain ⟨hh, hptr⟩ := hring
      have hfits : ([] : List TsPacket).length + ps.length ≤ cachePackets := by
        rw [List.length_nil, Nat.zero_add]
        exact hroom
      obtain ⟨hall, hptr'⟩ := hh.pushAll_callback ps hfits
      have hcache : t.handOver.cache = (s.cache.pushAll .callbackBuffer ps).flush := by
        unfold handOver
        rw [if_pos (hg.mode.trans hm), hg.cache, hm]
      show t.handOver.cache.Holds (s.generated ++ ps) [] ∧ t.handOver.cache.readPtr = 0
      rw [hcache]
      exact hall.flush (hptr'.trans hptr)
    | tsFile =>
      rw [hm] at hring hroom
      obtain ⟨held, hf, -⟩ := hring
      have hcache : t.handOver.cache = s.cache.pushAll .tsFile ps := by
        unfold handOver
        rw [if_neg (by rw [hg.mode, hm]; decide), hg.cache, hm]
      obtain ⟨held', hf'⟩ := hf.pushAll ps hroom
      refine ⟨held', ?_, ?_⟩
      · rw [hcache]
        exact hf'
      · rw [List.length_append]
        exact hroom

theorem Kept.handedOver (h : Kept s) : HandedOver s := by
  have hring := h.ring
  cases hm : s.mode with
  | callbackBuffer =>
    rw [hm] at hring
    refine ⟨⟨[], hring.1⟩, s.cache, ?_, ?_⟩
    · rw [hm]
      rfl
    · have horder := hring.1.order
      rwa [List.map_nil, List.append_nil] at horder
  | tsFile =>
    rw [hm] at hring
    obtain ⟨held, hf, hlt⟩ := hring
    refine ⟨⟨held, hf.toHolds⟩, ?_⟩
    rw [hm]
    exact hf.writeTrailer hlt

/-- **The ring loses nothing**, where it has room. All packets ever made are kept beside the ring to
compare with, so the promise needs no account of pages and drains: what was handed over and what the
ring still holds are that list, in its order, and the trailer hands over the rest. The condition is
looked at before a call, by the length of its payload and the tables that are due. -/
theorem packets_handed_over (s : Mpeg2tsMuxer) (hr : Reach system Roomy s) : HandedOver s := by
  have hkept : Kept s := by
    refine hr.inv (P := fun s => Kept s) ?_ ?_
    · rintro s ⟨mode, para, rfl⟩
      exact kept_opened mode para
    · intro s pkt s' h hroom hs
      obtain rfl := Option.some.inj hs
      exact h.tsWritePacket pkt hroom
  exact hkept.handedOver

/-- A recording of AAC audio. -/
def audioOnly : AvPara where
  video := none
  audio := some ⟨true, 2, 44100, by decide, by decide⟩
  geo := false

/-- An audio packet of one byte. -/
def audioPacket : AVPacket := ⟨0, [0], [], 1, false⟩

theorem system_start (mode : OutputMode) (para : AvPara) : system.start (opened mode para) :=
  ⟨mode, para, rfl⟩

/-- Two audio packets: the tables, and a packet for each. -/
theorem packets_handed_over_four : ∃ s, s.generated.length = 4 ∧ HandedOver s := by
  obtain ⟨s, hr, hs⟩ := reach_of_runFrom (fun s pkt => some (tsWritePacket s pkt)) Roomy
    (opened .callbackBuffer audioOnly) [audioPacket, audioPacket]
    (fun s => s.generated.length) 4 (system_start _ _) (by decide +kernel)
  exact ⟨s, hs, packets_handed_over s hr⟩

/-- A recording of H264 video. -/
def videoOnly : AvPara where
  video := some ⟨false, []⟩
  audio := none
  geo := false

/-- A frame that takes more packets than the ring holds. -/
def longFrame : AVPacket := ⟨0, List.replicate 200000 0, [], 0, true⟩

/-- A callback is handed what is behind the end of the ring. -/
theorem packets_handed_over_long : ¬ ∀ s, Reach system (anyStep _ _) s → HandedOver s := by
  intro hall
  have hr : Reach system (anyStep _ _) ((opened .callbackBuffer videoOnly).tsWritePacket longFrame) :=
    (Reach.start (system_start _ _)).next (i := longFrame) trivial rfl
  obtain ⟨⟨held, hheld⟩, -⟩ := hall _ hr
  generalize hs : (opened .callbackBuffer videoOnly) = s at hheld
  generalize hst : (⟨.h264, 0x1011, 15, [], true, 0, 0⟩ : AVStream) = st
  generalize ht : ((s.payloadOf 0 st longFrame).2.2.beforePes 0 0) = t
  have htlen : t.generated.length = 3 := by
    subst ht hst hs
    decide +kernel
  have hpayload : (s.payloadOf 0 st longFrame).1.length = 200006 := by
    subst hst hs
    show ([0, 0, 0, 1, 0x09, 0x30] ++ [] ++ List.replicate 200000 0 ++ [] : Bytes).length = 200006
    rw [List.append_nil, List.append_nil, List.length_append, List.length_replicate]
    rfl
  generalize hp : (s.payloadOf 0 st longFrame).1 = payload at hpayload
  have hne : payload ≠ [] := by
    rintro rfl
    simp at hpayload
  have hpes := length_pesPackets st.pid st.codec 0 payload hne
  have hhead := length_pesHeader st.codec 0 payload.length
  have heq : s.tsWritePacket longFrame = (t.cutPes 0 st payload 0).handOver := by
    subst hp ht hst hs
    rfl
  -- The tables, the clock and the frame are one list of packets, which is too long.
  have hone : s.streams.length ≤ 3 := by
    subst hs
    exact length_makeStreams videoOnly
  have hmade := (grew_payloadOf s 0 st longFrame).1
  obtain ⟨ps, hps, -⟩ := grew_beforePes (hmade.count ▸ hone) 0 0
  have hgrew := hmade.trans hps
  rw [ht, List.nil_append] at hgrew
  have hnil : s.generated = [] := by
    subst hs
    rfl
  have hthree : ps.length = 3 := by
    have hgen := hgrew.generated
    rw [hnil, List.nil_append] at hgen
    rw [← hgen]
    exact htlen
  have hall := hgrew.trans (grew_cutPes t 0 st payload 0)
  have hmode : s.mode = .callbackBuffer := by
    subst hs
    rfl
  have hcache : (s.tsWritePacket longFrame).cache =
      (s.cache.pushAll .callbackBuffer (ps ++ (pesPackets st.pid st.codec 0 payload).1)).flush := by
    rw [heq]
    unfold handOver
    rw [if_pos (hall.mode.trans hmode), hall.cache, hmode]
  have hempty : s.cache.cacheSize = 0 := by
    subst hs
    rfl
  have hlen : (ps ++ (pesPackets st.pid st.codec 0 payload).1).length =
      3 + (1 + (200006 - (184 - (pesHeader st.codec 0 200006).length) + 183) / 184) := by
    rw [List.length_append, hthree, hpes, hpayload]
  rw [hpayload] at hhead
  have hmany : cachePackets < (ps ++ (pesPackets st.pid st.codec 0 payload).1).length := by
    rw [hlen]
    unfold cachePackets
    omega
  have hnone := TsCache.none_mem_flush (c := s.cache) hempty hmany (by rw [hlen]; omega)
  rw [← hcache] at hnone
  have hmem : none ∈ (s.tsWritePacket longFrame).generated.map some := by
    rw [← hheld.order]
    exact List.mem_append_left _ hnone
  obtain ⟨p, -, hp⟩ := List.mem_map.mp hmem
  cases hp

end Mpeg2tsMuxer

end Maixii.Muxer
