import Maixii.Muxer.Adts
import Maixii.Muxer.TsTables

/-!
# `Muxer/TsPlayback.lean`: a player gets what the muxer was given

The whole of `ts_write_packet` against a demultiplexer, over any sequence of packets for any
streams. `played` says what a stream is to be, from the packets for it alone; `programOf` says what
the map of the program is to tell of the streams, and `tablesDue` how often it goes out. None of
them asks the muxer: identifiers, stream types and stream ids are the player's own, and AAC is told
by its data, which the player finds behind the ADTS header with a reader of its own.

**The player finds exactly that** (`demultiplexed`): the tables and nothing else on their
identifiers, and on every stream's identifier its frames, whole and in order, each with its time.
-/

set_option autoImplicit false

namespace Maixii.Muxer

open Maixii.Lib

namespace Mpeg2tsMuxer

variable {para : AvPara} {pkts : List AVPacket} {s t : Mpeg2tsMuxer} {st : AVStream}

/-! ## What a stream is to be -/

/-- The packets for the stream on an identifier. -/
def packetsOf (para : AvPara) (pid : Nat) (pkts : List AVPacket) : List AVPacket :=
  pkts.filter fun pkt => (target para pkt).any fun st => st.pid == pid

/-- The time of the first packet. -/
def firstTime (pkts : List AVPacket) : Int := pkts.head?.elim 0 AVPacket.pts

/-- The time of a stream's `k`-th frame, to 33 bits: video counts from its first frame, AAC the
samples so far, and text has no time. -/
def frameTime (st : AVStream) (first : Int) (k : Nat) (pkt : AVPacket) : Int :=
  match st.codec with
  | .h264 | .h265 => (pkt.pts - first) * 90 % 2 ^ 33
  | .aac => ((k * 90000 * 1024 / st.sampleRate : Nat) : Int) % 2 ^ 33
  | .adpcm => pkt.pts * 90 % 2 ^ 33
  | .ggad => 0

/-- The bytes of a stream's `k`-th frame: the header of the stream goes before the first one and all
key frames. Of AAC it is what stands behind the ADTS header. -/
def frameData (st : AVStream) (k : Nat) (pkt : AVPacket) : Bytes :=
  match st.codec with
  | .h264 =>
      [0, 0, 0, 1, 0x09, 0x30] ++
        (if k = 0 ∨ pkt.key = true then st.vosData else []) ++ pkt.data0 ++ pkt.data1
  | .h265 =>
      [0, 0, 0, 1, 70, 1, 0x50] ++
        (if k = 0 ∨ (pkt.data0[4]? == some 0x26) = true then st.vosData else []) ++ pkt.data0 ++
          pkt.data1
  | .aac => pkt.data0 ++ pkt.data1
  | .adpcm | .ggad => pkt.data0

/-- **What a stream is to be**, with the packets for it. A frame of no bytes is left out, but for
AAC, which has a header even then. -/
def played (st : AVStream) (pkts : List AVPacket) : List (Int × Bytes) :=
  (pkts.mapIdx fun k pkt => (frameTime st (firstTime pkts) k pkt, frameData st k pkt)).filter
    fun frame => st.codec == .aac || !frame.2.isEmpty

/-- **What AAC is to be** to a decoder: frames of one block, with the sample rate and the channels
that were declared. -/
def decoded (st : AVStream) (pkts : List AVPacket) : List (Int × AdtsFrame) :=
  pkts.mapIdx fun k pkt => (frameTime st (firstTime pkts) k pkt,
    ⟨1, st.sampleRate, st.channels, 1, pkt.data0 ++ pkt.data1⟩)

/-- What a player takes from a unit: of AAC it skips the header. -/
def readFrame (codec : CodecID) (u : List TsPacket) : Option (Int × Bytes) :=
  (readUnit codec u).bind fun unit =>
    if codec = .aac then
      if 7 ≤ unit.2.length then some (unit.1, unit.2.drop 7) else none
    else some unit

/-- What a decoder of AAC takes from it. -/
def readSound (u : List TsPacket) : Option (Int × AdtsFrame) :=
  (readUnit .aac u).bind fun unit => (readAdts unit.2).map fun frame => (unit.1, frame)

/-- **The map of the program**, by the stream types of the standard: PCM has a descriptor of the
player it was made for. -/
def programOf (para : AvPara) : ProgramMap where
  program := 1
  pcrPid := 0x1000
  streams :=
    (para.video.map fun v => ⟨if v.h265 then 0x24 else 0x1b, 0x1011, []⟩).toList ++
      (para.audio.map fun a =>
        if a.aac then ⟨0x0f, 0x1100, []⟩ else ⟨0x83, 0x1100, [0x83, 0x02, 0x46, 0x3F]⟩).toList ++
      if para.geo then [⟨0x06, 0x0300, []⟩] else []

/-- How packets for a stream are marked. -/
def markOf : CodecID → Nat
  | .h264 | .h265 => 0
  | .aac | .adpcm => 1
  | .ggad => 2

/-- The packets that tables may go before: text does not wait for them. -/
def timed (para : AvPara) (pkts : List AVPacket) : List AVPacket :=
  pkts.filter fun pkt => (target para pkt).isSome && pkt.streamIndex != codecTypeText

/-- The frames of video behind the first packet that had a table. -/
def framesSince (para : AvPara) (pkts : List AVPacket) : Nat :=
  (packetsOf para videoPid (timed para pkts).tail).length

/-- **How often the tables go out**: in a file before every third packet, to a callback before the
first one and every fourth frame of video from there. -/
def tablesDue (mode : OutputMode) (para : AvPara) (pkts : List AVPacket) : Nat :=
  match mode with
  | .tsFile => ((timed para pkts).length + 2) / 3
  | .callbackBuffer => if timed para pkts = [] then 0 else 1 + framesSince para pkts / 4

/-- The text that fits into a PES. -/
def ShortText (para : AvPara) (pkts : List AVPacket) : Prop :=
  ∀ pkt ∈ packetsOf para textPid pkts, pkt.data0.length < 2 ^ 16

/-- The sound of which every frame is one block: with its header it has less than 1024 bytes. -/
def ShortSound (para : AvPara) (pkts : List AVPacket) : Prop :=
  ∀ pkt ∈ packetsOf para audioPid pkts, pkt.data0.length + pkt.data1.length + 7 < 1024

/-- **What a player finds** in the packets. -/
structure Demultiplexed (mode : OutputMode) (para : AvPara) (pkts : List AVPacket)
    (ps : List TsPacket) : Prop where
  pat : demux 0x0000 readPat ps =
    some (List.replicate (tablesDue mode para pkts) [(1, 0x0100)])
  pmt : demux 0x0100 readPmt ps =
    some (List.replicate (tablesDue mode para pkts) (programOf para))
  /-- No sound or picture comes before the tables. -/
  announced : ∃ front rest, ps = front ++ rest ∧ onPid 0x1011 front = [] ∧
    onPid 0x1100 front = [] ∧ (rest = [] ∨ demux 0x0000 readPat front = some [[(1, 0x0100)]] ∧
      demux 0x0100 readPmt front = some [programOf para])
  /-- A packet is for the stream it is marked for, if that was declared along with sound or
  picture. -/
  marked : ∀ pkt ∈ pkts, ∀ st ∈ makeStreams para, para.video.isSome ∨ para.audio.isSome →
    pkt.streamIndex = markOf st.codec → target para pkt = some st
  streams : ∀ st ∈ makeStreams para, (st.codec = .ggad → ShortText para pkts) →
    demux st.pid (readFrame st.codec) ps = some (played st (packetsOf para st.pid pkts))
  /-- The headers of short frames of AAC are right. -/
  sound : ∀ st ∈ makeStreams para, st.codec = .aac → Announced st → ShortSound para pkts →
    demux st.pid readSound ps = some (decoded st (packetsOf para st.pid pkts))

/-! ## What is put into the PES -/

/-- With the ADTS header, if there is one. -/
def payloadData (st : AVStream) (k : Nat) (pkt : AVPacket) : Bytes :=
  (if st.codec = .aac then adtsHeader st (pkt.data0.length + pkt.data1.length + 7) else []) ++
    frameData st k pkt

/-- The payloads of a stream. A PES of no bytes is not made. -/
def carried (st : AVStream) (pkts : List AVPacket) : List (Int × Bytes) :=
  (pkts.mapIdx fun k pkt => (frameTime st (firstTime pkts) k pkt, payloadData st k pkt)).filter
    fun frame => !frame.2.isEmpty

theorem length_adtsHeader (st : AVStream) (n : Nat) : (adtsHeader st n).length = 7 := rfl

/-- AAC is all carried. -/
theorem carried_aac (hcodec : st.codec = .aac) (pkts : List AVPacket) :
    carried st pkts =
      pkts.mapIdx fun k pkt => (frameTime st (firstTime pkts) k pkt, payloadData st k pkt) := by
  refine List.filter_eq_self.mpr fun frame hframe => ?_
  obtain ⟨k, hk, rfl⟩ := List.mem_mapIdx.mp hframe
  unfold payloadData
  rw [if_pos hcodec]
  simp [adtsHeader]

/-- So what is taken from each of its payloads is taken packet by packet. -/
theorem map_carried_aac {α : Type} (hcodec : st.codec = .aac) (pkts : List AVPacket)
    (g : Int × Bytes → α) : (carried st pkts).map g =
      pkts.mapIdx fun k pkt => g (frameTime st (firstTime pkts) k pkt, payloadData st k pkt) := by
  rw [carried_aac hcodec]
  refine List.ext_getElem? fun k => ?_
  rw [List.getElem?_map, List.getElem?_mapIdx, List.getElem?_mapIdx, Option.map_map]
  rfl

/-- A player that skips the header of AAC has the frames. -/
theorem readFrame_carried (st : AVStream) {pkts : List AVPacket} {ps : List TsPacket}
    (h : demux st.pid (readUnit st.codec) ps = some (carried st pkts)) :
    demux st.pid (readFrame st.codec) ps = some (played st pkts) := by
  by_cases hcodec : st.codec = .aac
  · have hplayed : (carried st pkts).map (fun unit => (unit.1, unit.2.drop 7)) =
        played st pkts := by
      rw [map_carried_aac hcodec, played]
      simp only [hcodec, beq_self_eq_true, Bool.true_or, List.filter_true]
      refine List.mapIdx_eq_mapIdx_iff.mpr fun k hk => ?_
      unfold payloadData
      rw [if_pos hcodec]
      exact congrArg _ (List.drop_left' (length_adtsHeader st _))
    rw [← hplayed]
    refine readUnits_bind h fun unit hunit => ?_
    rw [carried_aac hcodec] at hunit
    obtain ⟨k, hk, rfl⟩ := List.mem_mapIdx.mp hunit
    have hseven : 7 ≤ (payloadData st k pkts[k]).length := by
      unfold payloadData
      rw [if_pos hcodec, List.length_append, length_adtsHeader]
      exact Nat.le_add_right 7 _
    rw [if_pos hcodec, if_pos hseven]
  · have hplayed : (carried st pkts).map id = played st pkts := by
      have hdata : ∀ k pkt, payloadData st k pkt = frameData st k pkt := by
        intro k pkt
        unfold payloadData
        rw [if_neg hcodec, List.nil_append]
      rw [List.map_id, carried, played]
      simp only [hdata, beq_false_of_ne hcodec, Bool.false_or]
    rw [← hplayed]
    exact readUnits_bind h fun unit _ => if_neg hcodec

/-- And a decoder of AAC the headers too. -/
theorem readSound_carried (hcodec : st.codec = .aac) (hannounced : Announced st)
    {pkts : List AVPacket} (hshort : ∀ pkt ∈ pkts, pkt.data0.length + pkt.data1.length + 7 < 1024)
    {ps : List TsPacket} (h : demux st.pid (readUnit .aac) ps = some (carried st pkts)) :
    demux st.pid readSound ps = some (decoded st pkts) := by
  have hpayload : ∀ k pkt, payloadData st k pkt =
      adtsHeader st ((pkt.data0 ++ pkt.data1).length + 7) ++ (pkt.data0 ++ pkt.data1) := by
    intro k pkt
    unfold payloadData frameData
    rw [if_pos hcodec, hcodec, List.length_append]
  have hdecoded : (carried st pkts).map (fun unit =>
      (unit.1, (⟨1, st.sampleRate, st.channels, 1, unit.2.drop 7⟩ : AdtsFrame))) =
        decoded st pkts := by
    rw [map_carried_aac hcodec, decoded]
    refine List.mapIdx_eq_mapIdx_iff.mpr fun k hk => ?_
    rw [hpayload, List.drop_left' (length_adtsHeader st _)]
  rw [← hdecoded]
  refine readUnits_bind h fun unit hunit => ?_
  rw [carried_aac hcodec] at hunit
  obtain ⟨k, hk, rfl⟩ := List.mem_mapIdx.mp hunit
  have hlen := hshort _ (List.getElem_mem hk)
  rw [← List.length_append] at hlen
  rw [hpayload, readAdts_short hannounced hlen, Option.map_some,
    List.drop_left' (length_adtsHeader st _)]

/-! ## The packets for a stream -/

theorem packetsOf_own {pkt : AVPacket} {q : Nat} (h : target para pkt = some st)
    (hpid : st.pid = q) : packetsOf para q (pkts ++ [pkt]) = packetsOf para q pkts ++ [pkt] := by
  unfold packetsOf
  rw [List.filter_append, List.filter_singleton, h]
  simp [hpid]

theorem packetsOf_other {pkt : AVPacket} {q : Nat}
    (h : ∀ st, target para pkt = some st → st.pid ≠ q) :
    packetsOf para q (pkts ++ [pkt]) = packetsOf para q pkts := by
  unfold packetsOf
  rw [List.filter_append, List.filter_singleton]
  cases htarget : target para pkt with
  | none => simp
  | some st =>
    have hne : (st.pid == q) = false := beq_false_of_ne (h st htarget)
    simp [hne]

/-- One more frame behind the others. -/
theorem carried_append (st : AVStream) (pkts : List AVPacket) (pkt : AVPacket) :
    carried st (pkts ++ [pkt]) = carried st pkts ++
      if payloadData st pkts.length pkt = [] then []
      else [(frameTime st (firstTime (pkts ++ [pkt])) pkts.length pkt,
        payloadData st pkts.length pkt)] := by
  unfold carried
  rw [List.mapIdx_append, List.filter_append]
  have hfirst : pkts ≠ [] → firstTime (pkts ++ [pkt]) = firstTime pkts := by
    intro hne
    unfold firstTime
    rw [List.head?_append_of_ne_nil _ hne]
  congr 1
  · cases pkts with
    | nil => rfl
    | cons p ps => rw [hfirst (List.cons_ne_nil p ps)]
  · by_cases hnil : payloadData st pkts.length pkt = []
    · simp [hnil]
    · simp [hnil]

/-! ## The members that payloads change -/

/-- What the members are after these packets. -/
structure Fed (para : AvPara) (pkts : List AVPacket) (s : Mpeg2tsMuxer) : Prop where
  vStrmFlag : s.vStrmFlag = para.video.isSome
  aStrmFlag : s.aStrmFlag = para.audio.isSome
  streams : s.streams.map AVStream.fresh = makeStreams para
  firstFrame : ∀ (i : Nat) (st : AVStream), s.streams[i]? = some st → st.pid = videoPid →
    st.firstFrame = (packetsOf para videoPid pkts).isEmpty
  firstVideoPts : s.firstVideoPts = (packetsOf para videoPid pkts).isEmpty
  baseVideoPts : packetsOf para videoPid pkts ≠ [] →
    s.baseVideoPts = firstTime (packetsOf para videoPid pkts)
  audioFrameNum : s.audioFrameNum = (packetsOf para audioPid pkts).length

/-- Other members make no difference. -/
theorem Fed.congr (h : Fed para pkts s) (hview : t.view = s.view) : Fed para pkts t := by
  unfold view at hview
  simp only [Prod.mk.injEq] at hview
  obtain ⟨-, hv, ha, hstreams, hfirst, hbase, hnum⟩ := hview
  exact ⟨hv.trans h.vStrmFlag, ha.trans h.aStrmFlag, hstreams ▸ h.streams,
    fun i st hst => h.firstFrame i st (hstreams ▸ hst), hfirst.trans h.firstVideoPts,
    fun hne => hbase.trans (h.baseVideoPts hne), hnum.trans h.audioFrameNum⟩

/-- The stream of a packet, as it was declared. -/
theorem Fed.target_eq (h : Fed para pkts s) (pkt : AVPacket) :
    target para pkt = (s.streams[s.realStrmIdx pkt.streamIndex]?).map AVStream.fresh := by
  have hidx : s.realStrmIdx pkt.streamIndex =
      (opened .tsFile para).realStrmIdx pkt.streamIndex := by
    unfold realStrmIdx
    rw [h.vStrmFlag, h.aStrmFlag]
    rfl
  rw [hidx, ← List.getElem?_map, h.streams]
  rfl

theorem Fed.mem (h : Fed para pkts s) {i : Nat} (hst : s.streams[i]? = some st) :
    st.fresh ∈ makeStreams para := by
  rw [← h.streams]
  exact List.mem_map_of_mem (List.mem_of_getElem? hst)

/-- A stream in an identifier's place. -/
theorem Fed.index_eq (h : Fed para pkts s) {i j : Nat} {st' : AVStream}
    (hst : s.streams[i]? = some st) (hst' : s.streams[j]? = some st') (hpid : st.pid = st'.pid) :
    i = j := by
  have hnodup : (s.streams.map AVStream.pid).Nodup := by
    have hpids : s.streams.map AVStream.pid = (s.streams.map AVStream.fresh).map AVStream.pid := by
      rw [List.map_map]
      rfl
    rw [hpids, h.streams]
    exact nodup_pids para
  have hlt : i < (s.streams.map AVStream.pid).length := by
    rw [List.length_map]
    exact (List.getElem?_eq_some_iff.mp hst).1
  refine (List.getElem?_inj hlt hnodup).mp ?_
  rw [List.getElem?_map, List.getElem?_map, hst, hst', Option.map_some, Option.map_some, hpid]

/-- The first frame is behind, with a stream that is otherwise as before. -/
theorem Fed.started (h : Fed para pkts s) {i : Nat} {pkt : AVPacket} (hst : s.streams[i]? = some st)
    (htarget : target para pkt = some st.fresh) (hvideo : st.pid = videoPid) {st' : AVStream}
    (hfresh : st'.fresh = st.fresh) (hfirst : st'.firstFrame = false)
    (hstreams : t.streams = s.streams.set i st') (hflags : t.vStrmFlag = s.vStrmFlag ∧
      t.aStrmFlag = s.aStrmFlag ∧ t.audioFrameNum = s.audioFrameNum)
    (hpts : t.firstVideoPts = false)
    (hbase : t.baseVideoPts = firstTime (packetsOf para videoPid (pkts ++ [pkt]))) :
    Fed para (pkts ++ [pkt]) t := by
  have hown : packetsOf para videoPid (pkts ++ [pkt]) = packetsOf para videoPid pkts ++ [pkt] :=
    packetsOf_own htarget hvideo
  have hempty : (packetsOf para videoPid (pkts ++ [pkt])).isEmpty = false := by
    rw [hown]
    simp
  refine ⟨hflags.1.trans h.vStrmFlag, hflags.2.1.trans h.aStrmFlag, ?_, ?_, ?_, fun _ => hbase, ?_⟩
  · rw [hstreams, List.map_set, hfresh, ← h.streams]
    refine List.ext_getElem? fun j => ?_
    rw [List.getElem?_set]
    split
    · rename_i hj
      subst hj
      rw [List.getElem?_map, hst]
      simp [(List.getElem?_eq_some_iff.mp hst).1]
    · rfl
  · intro j st'' hst'' hpid
    rw [hempty]
    rw [hstreams] at hst''
    by_cases hj : i = j
    · subst hj
      rw [List.getElem?_set_self (List.getElem?_eq_some_iff.mp hst).1] at hst''
      obtain rfl := Option.some.inj hst''
      exact hfirst
    · rw [List.getElem?_set_ne hj] at hst''
      exact absurd (h.index_eq hst hst'' (hvideo.trans hpid.symm)) hj
  · rw [hpts, hempty]
  · rw [hflags.2.2, h.audioFrameNum, packetsOf_other]
    intro st₀ hst₀
    rw [htarget] at hst₀
    obtain rfl := Option.some.inj hst₀
    show st.pid ≠ audioPid
    rw [hvideo]
    decide

/-- **A frame of video** takes the header of the stream when it is the first or a key frame, and
counts its time from the first one. -/
theorem Fed.videoPayload (h : Fed para pkts s) {i : Nat} {pkt : AVPacket}
    (hst : s.streams[i]? = some st) (htarget : target para pkt = some st.fresh)
    (hvideo : st.pid = videoPid) (aud : Bytes) (key : Bool) :
    (s.videoPayload i st pkt aud (st.firstFrame || key)).1 =
      aud ++ (if (packetsOf para videoPid pkts).length = 0 ∨ key = true then st.vosData else []) ++
        pkt.data0 ++ pkt.data1 ∧
    (s.videoPayload i st pkt aud (st.firstFrame || key)).2.1 =
      (pkt.pts - firstTime (packetsOf para videoPid (pkts ++ [pkt]))) * 90 ∧
    Fed para (pkts ++ [pkt]) (s.videoPayload i st pkt aud (st.firstFrame || key)).2.2 := by
  have hown : packetsOf para videoPid (pkts ++ [pkt]) = packetsOf para videoPid pkts ++ [pkt] :=
    packetsOf_own htarget hvideo
  have hframe := h.firstFrame i st hst hvideo
  have hpts := h.firstVideoPts
  have hbase := h.baseVideoPts
  have hheader : (if (st.firstFrame || key) = true then st.vosData else []) =
      if (packetsOf para videoPid pkts).length = 0 ∨ key = true then st.vosData else [] := by
    rw [hframe]
    simp
  have hlater : packetsOf para videoPid pkts ≠ [] →
      firstTime (packetsOf para videoPid (pkts ++ [pkt])) = s.baseVideoPts := by
    intro hne
    rw [hbase hne, hown]
    unfold firstTime
    rw [List.head?_append_of_ne_nil _ hne]
  have hstarted : ∀ st' : AVStream, st' = (if (st.firstFrame || key) = true then
      { st with firstFrame := false } else st) → st'.fresh = st.fresh ∧ st'.firstFrame = false := by
    intro st' hst'
    rw [hst']
    cases hb : st.firstFrame <;> cases key <;> simp [AVStream.fresh, hb]
  obtain ⟨hfresh, hfalse⟩ := hstarted _ rfl
  unfold Mpeg2tsMuxer.videoPayload videoPts
  dsimp only
  rw [hpts, hheader]
  cases hps : packetsOf para videoPid pkts with
  | nil =>
    have hfirst : firstTime (packetsOf para videoPid (pkts ++ [pkt])) = pkt.pts := by
      rw [hown, hps]
      rfl
    refine ⟨rfl, ?_, ?_⟩
    · rw [hfirst]
      rfl
    · exact h.started hst htarget hvideo hfresh hfalse rfl ⟨rfl, rfl, rfl⟩ rfl hfirst.symm
  | cons p ps =>
    have hfirst := hlater (by rw [hps]; exact List.cons_ne_nil p ps)
    refine ⟨rfl, ?_, ?_⟩
    · rw [hfirst]
      rfl
    · exact h.started hst htarget hvideo hfresh hfalse rfl ⟨rfl, rfl, rfl⟩ rfl hfirst.symm

/-- A packet for another stream than video. -/
theorem Fed.other (h : Fed para pkts s) {pkt : AVPacket} (htarget : target para pkt = some st.fresh)
    (hpid : st.pid ≠ videoPid) (n : Nat)
    (hn : n = (packetsOf para audioPid (pkts ++ [pkt])).length) :
    Fed para (pkts ++ [pkt]) { s with audioFrameNum := n } := by
  have hvideo : packetsOf para videoPid (pkts ++ [pkt]) = packetsOf para videoPid pkts := by
    refine packetsOf_other fun st₀ hst₀ => ?_
    rw [htarget] at hst₀
    obtain rfl := Option.some.inj hst₀
    exact hpid
  refine ⟨h.vStrmFlag, h.aStrmFlag, h.streams, ?_, ?_, ?_, hn⟩
  · rw [hvideo]
    exact h.firstFrame
  · rw [hvideo]
    exact h.firstVideoPts
  · rw [hvideo]
    exact h.baseVideoPts

/-- **The payload of a packet** is the frame that its stream is to have, with its time. -/
theorem Fed.payloadOf (h : Fed para pkts s) {i : Nat} {pkt : AVPacket}
    (hst : s.streams[i]? = some st) (htarget : target para pkt = some st.fresh) :
    (s.payloadOf i st pkt).1 = payloadData st.fresh (packetsOf para st.pid pkts).length pkt ∧
    (st.codec ≠ .ggad → (s.payloadOf i st pkt).2.1 ≠ -1) ∧
    (if st.codec = .ggad then 0 else (s.payloadOf i st pkt).2.1 % 2 ^ 33) =
      frameTime st.fresh (firstTime (packetsOf para st.pid (pkts ++ [pkt])))
        (packetsOf para st.pid pkts).length pkt ∧
    Fed para (pkts ++ [pkt]) (s.payloadOf i st pkt).2.2 := by
  have hpid : st.pid = pidOf st.codec := @pid_of_mem para st.fresh (h.mem hst)
  have haudio : st.pid = audioPid → s.audioFrameNum + 1 =
      (packetsOf para audioPid (pkts ++ [pkt])).length := by
    intro hpid
    rw [packetsOf_own htarget hpid, List.length_append, h.audioFrameNum]
    rfl
  have htext : st.pid = textPid → s.audioFrameNum =
      (packetsOf para audioPid (pkts ++ [pkt])).length := by
    intro hpid
    rw [h.audioFrameNum, packetsOf_other]
    intro st₀ hst₀
    rw [htarget] at hst₀
    obtain rfl := Option.some.inj hst₀
    show st.pid ≠ audioPid
    rw [hpid]
    decide
  unfold Mpeg2tsMuxer.payloadOf payloadData frameData frameTime
  cases hcodec : st.codec with
  | h264 =>
    have hvideo : st.pid = videoPid := by rw [hpid, hcodec]; rfl
    obtain ⟨hdata, htime, hfed⟩ :=
      h.videoPayload hst htarget hvideo [0, 0, 0, 1, 0x09, 0x30] pkt.key
    have hcodec' : st.fresh.codec = .h264 := hcodec
    rw [hvideo, hcodec']
    refine ⟨hdata, fun _ => ?_, ?_, hfed⟩
    · dsimp only
      rw [htime]
      omega
    · dsimp only
      rw [htime]
      rfl
  | h265 =>
    have hvideo : st.pid = videoPid := by rw [hpid, hcodec]; rfl
    obtain ⟨hdata, htime, hfed⟩ :=
      h.videoPayload hst htarget hvideo [0, 0, 0, 1, 70, 1, 0x50] (pkt.data0[4]? == some 0x26)
    have hcodec' : st.fresh.codec = .h265 := hcodec
    rw [hvideo, hcodec']
    refine ⟨hdata, fun _ => ?_, ?_, hfed⟩
    · dsimp only
      rw [htime]
      omega
    · dsimp only
      rw [htime]
      rfl
  | aac =>
    have hpid' : st.pid = audioPid := by rw [hpid, hcodec]; rfl
    have hcodec' : st.fresh.codec = .aac := hcodec
    have htime : (s.audioFrameNum * 90000 * 1024 / st.sampleRate : Int) =
        (((packetsOf para audioPid pkts).length * 90000 * 1024 / st.sampleRate : Nat) : Int) := by
      rw [h.audioFrameNum]
      push_cast
      rfl
    rw [hpid', hcodec']
    dsimp only
    rw [htime]
    have hnonneg := Int.natCast_nonneg
      ((packetsOf para audioPid pkts).length * 90000 * 1024 / st.sampleRate)
    refine ⟨rfl, fun _ hminus => absurd (hminus ▸ hnonneg) (by decide), rfl, ?_⟩
    exact h.other htarget (by rw [hpid']; decide) _ (haudio hpid')
  | adpcm =>
    have hpid' : st.pid = audioPid := by rw [hpid, hcodec]; rfl
    have hcodec' : st.fresh.codec = .adpcm := hcodec
    rw [hcodec']
    dsimp only
    refine ⟨rfl, fun _ => by omega, rfl, ?_⟩
    exact h.other htarget (by rw [hpid']; decide) _ (haudio hpid')
  | ggad =>
    have hpid' : st.pid = textPid := by rw [hpid, hcodec]; rfl
    have hcodec' : st.fresh.codec = .ggad := hcodec
    rw [hcodec']
    refine ⟨rfl, fun hne => absurd rfl hne, rfl, ?_⟩
    exact h.other htarget (by rw [hpid']; decide) s.audioFrameNum (htext hpid')

/-- What a payload leaves alone, but that it counts frames. -/
theorem payloadOf_rest (s : Mpeg2tsMuxer) (i : Nat) (st : AVStream) (pkt : AVPacket) :
    (s.payloadOf i st pkt).2.2.generated = s.generated ∧
    (s.payloadOf i st pkt).2.2.mode = s.mode ∧
    (s.payloadOf i st pkt).2.2.pace = (s.patPacketCount,
      s.patPmtCounter + (if pidOf st.codec = videoPid then 1 else 0), s.patPmtFlag) ∧
    (Small s → Small (s.payloadOf i st pkt).2.2) := by
  unfold Mpeg2tsMuxer.payloadOf Mpeg2tsMuxer.videoPayload videoPts
  cases st.codec
  all_goals
    dsimp only
    first
      | exact ⟨rfl, rfl, rfl, id⟩
      | split <;> exact ⟨rfl, rfl, rfl, id⟩

/-! ## When the tables go out -/

theorem timed_own (pkts : List AVPacket) {pkt : AVPacket} (h : target para pkt = some st)
    (hidx : pkt.streamIndex ≠ codecTypeText) :
    timed para (pkts ++ [pkt]) = timed para pkts ++ [pkt] := by
  unfold timed
  have hne : (pkt.streamIndex != codecTypeText) = true := bne_iff_ne.mpr hidx
  rw [List.filter_append, List.filter_singleton, h]
  simp [hne]

theorem timed_other (pkts : List AVPacket) {pkt : AVPacket}
    (h : target para pkt = none ∨ pkt.streamIndex = codecTypeText) :
    timed para (pkts ++ [pkt]) = timed para pkts := by
  unfold timed
  rw [List.filter_append, List.filter_singleton]
  rcases h with h | h <;> simp [h]

theorem framesSince_own (pkts : List AVPacket) {pkt : AVPacket} (h : target para pkt = some st)
    (hidx : pkt.streamIndex ≠ codecTypeText) :
    framesSince para (pkts ++ [pkt]) = if timed para pkts = [] then 0
      else framesSince para pkts + if st.pid = videoPid then 1 else 0 := by
  unfold framesSince
  rw [timed_own pkts h hidx]
  cases htimed : timed para pkts with
  | nil => rfl
  | cons p ps =>
    rw [if_neg (List.cons_ne_nil p ps)]
    show (packetsOf para videoPid (ps ++ [pkt])).length = (packetsOf para videoPid ps).length + _
    by_cases hpid : st.pid = videoPid
    · rw [packetsOf_own h hpid, if_pos hpid, List.length_append]
      rfl
    · rw [if_neg hpid, packetsOf_other]
      · rfl
      · intro st₀ hst₀
        rw [h] at hst₀
        obtain rfl := Option.some.inj hst₀
        exact hpid

/-- The counters that say when the next tables are due. -/
def Paced (mode : OutputMode) (para : AvPara) (pkts : List AVPacket) (s : Mpeg2tsMuxer) : Prop :=
  match mode with
  | .tsFile => s.patPacketCount =
      if timed para pkts = [] then patPacketPeriod else ((timed para pkts).length - 1) % 3 + 1
  | .callbackBuffer => s.patPmtFlag = (timed para pkts).isEmpty ∧
      s.patPmtCounter = framesSince para pkts % 4

/-- Nothing is counted. -/
theorem Paced.other {mode : OutputMode} (h : Paced mode para pkts s) {pkt : AVPacket}
    (hpkt : target para pkt = none ∨ pkt.streamIndex = codecTypeText) (hpace : t.pace = s.pace) :
    tablesDue mode para (pkts ++ [pkt]) = tablesDue mode para pkts ∧
      Paced mode para (pkts ++ [pkt]) t := by
  have htimed := timed_other pkts hpkt
  have hframes : framesSince para (pkts ++ [pkt]) = framesSince para pkts := by
    unfold framesSince
    rw [htimed]
  unfold pace at hpace
  simp only [Prod.mk.injEq] at hpace
  obtain ⟨hcount, hcounter, hflag⟩ := hpace
  unfold tablesDue Paced at *
  cases mode with
  | tsFile =>
    rw [htimed, hcount]
    exact ⟨rfl, h⟩
  | callbackBuffer =>
    rw [htimed, hframes, hflag, hcounter]
    exact ⟨rfl, h⟩

/-- **The tables go out when they are due.** -/
theorem Paced.own {mode : OutputMode} (h : Paced mode para pkts s) {pkt : AVPacket}
    (htarget : target para pkt = some st) (hidx : pkt.streamIndex ≠ codecTypeText)
    (hmode : t.mode = mode) (hpace : t.pace = (s.patPacketCount,
      s.patPmtCounter + (if st.pid = videoPid then 1 else 0), s.patPmtFlag)) (pts : Int) :
    tablesDue mode para (pkts ++ [pkt]) =
        tablesDue mode para pkts + (if t.tablesNow then 1 else 0) ∧
      Paced mode para (pkts ++ [pkt]) (t.beforePes pts pkt.streamIndex) := by
  have htimed := timed_own pkts htarget hidx
  have hframes := framesSince_own pkts htarget hidx
  have hnext := pace_beforePes t pts hidx
  have hne : timed para pkts ++ [pkt] ≠ [] := by simp
  unfold pace at hpace
  simp only [Prod.mk.injEq] at hpace
  obtain ⟨hcount, hcounter, hflag⟩ := hpace
  cases mode with
  | tsFile =>
    have hnow : t.tablesNow ↔ s.patPacketCount = 3 := by
      rw [tablesNow_file hmode, hcount]
      rfl
    have hpaced := hnext.2 hmode
    unfold pace at hpaced
    simp only [Prod.mk.injEq] at hpaced
    unfold Paced at h ⊢
    unfold tablesDue
    dsimp only at h ⊢
    rw [hpaced.1, hcount, htimed, if_neg hne, List.length_append, List.length_singleton]
    simp only [hnow]
    by_cases hnil : timed para pkts = []
    · rw [if_pos hnil] at h
      rw [h, hnil]
      decide
    · have hpos := List.length_pos_of_ne_nil hnil
      rw [if_neg hnil] at h
      rw [h]
      split <;> omega
  | callbackBuffer =>
    have hnow : t.tablesNow ↔
        s.patPmtCounter + (if st.pid = videoPid then 1 else 0) = 4 ∨ s.patPmtFlag = true := by
      rw [tablesNow_callback hmode, hcounter, hflag]
    have hpaced := hnext.1 hmode
    unfold pace at hpaced
    rw [hcounter, hflag] at hpaced
    simp only [Prod.mk.injEq] at hpaced
    obtain ⟨-, hpair⟩ := hpaced
    unfold Paced at h ⊢
    unfold tablesDue
    dsimp only at h ⊢
    obtain ⟨hempty, hmod⟩ := h
    rw [htimed, if_neg hne, List.isEmpty_eq_false_iff.mpr hne, hframes]
    generalize hstep : (if st.pid = videoPid then 1 else 0) = v at hnow hpair ⊢
    have hv : v ≤ 1 := by
      rw [← hstep]
      split <;> decide
    by_cases hnil : timed para pkts = []
    · have hgo : t.tablesNow := hnow.mpr (.inr (by rw [hempty, hnil]; rfl))
      rw [if_pos hgo] at hpair ⊢
      rw [if_pos hnil, if_pos hnil]
      exact ⟨rfl, congrArg Prod.snd hpair, congrArg Prod.fst hpair⟩
    · have hfalse : s.patPmtFlag = false := by
        rw [hempty]
        exact List.isEmpty_eq_false_iff.mpr hnil
      have hnow' : t.tablesNow ↔ framesSince para pkts % 4 + v = 4 := by
        rw [hnow, hfalse, hmod]
        simp
      rw [if_neg hnil, if_neg hnil]
      by_cases hgo : t.tablesNow
      · have hfour := hnow'.mp hgo
        rw [if_pos hgo] at hpair ⊢
        have hzero : 0 = (framesSince para pkts + v) % 4 := by omega
        exact ⟨by omega, congrArg Prod.snd hpair, (congrArg Prod.fst hpair).trans hzero⟩
      · have hless : framesSince para pkts % 4 + v ≠ 4 := fun h => hgo (hnow'.mpr h)
        rw [if_neg hgo] at hpair ⊢
        have hmore : s.patPmtCounter + v = (framesSince para pkts + v) % 4 := by omega
        exact ⟨by omega, (congrArg Prod.snd hpair).trans hfalse,
          (congrArg Prod.fst hpair).trans hmore⟩

theorem Paced.congr {mode : OutputMode} (h : Paced mode para pkts s) (hpace : t.pace = s.pace) :
    Paced mode para pkts t := by
  unfold pace at hpace
  simp only [Prod.mk.injEq] at hpace
  obtain ⟨hcount, hcounter, hflag⟩ := hpace
  unfold Paced at h ⊢
  cases mode with
  | tsFile => exact hcount.trans h
  | callbackBuffer => exact ⟨hflag.trans h.1, hcounter.trans h.2⟩

/-! ## One call -/

/-- The packets of a PES, if there are any, are the next unit of their stream. -/
theorem demux_pesPackets {pid : Nat} (hpid : pid < 2 ^ 13) (codec : CodecID) {pts : Int}
    (hpts : codec ≠ .ggad → pts ≠ -1) {payload : Bytes}
    (htext : codec = .ggad → payload.length < 2 ^ 16) {ps : List TsPacket} {rs : List (Int × Bytes)}
    (hps : demux pid (readUnit codec) ps = some rs) :
    demux pid (readUnit codec) (ps ++ (pesPackets pid codec pts payload).1) =
      some (rs ++ if payload = [] then []
        else [(if codec = .ggad then 0 else pts % 2 ^ 33, payload)]) := by
  by_cases hne : payload = []
  · subst hne
    have hnone : (pesPackets pid codec pts []).1 = [] := rfl
    rw [hnone, if_pos rfl, List.append_nil, List.append_nil]
    exact hps
  · rw [if_neg hne]
    exact demux_own (oneUnit_pesPackets hpid codec hpts hne htext) hps

/-- What a PES leaves but packets. -/
theorem cutPes_rest (s : Mpeg2tsMuxer) (i : Nat) (st : AVStream) (payload : Bytes) (pts : Int) :
    ((s.cutPes i st payload pts).handOver).generated =
      s.generated ++ (pesPackets st.pid st.codec pts payload).1 ∧
    ((s.cutPes i st payload pts).handOver).mode = s.mode ∧
    ((s.cutPes i st payload pts).handOver).pace = s.pace ∧
    (Small s → Small (s.cutPes i st payload pts).handOver) := by
  unfold handOver
  split <;> exact ⟨rfl, rfl, rfl, id⟩

theorem Fed.cutPes (h : Fed para pkts s) (i : Nat) (st : AVStream) (payload : Bytes) (pts : Int) :
    Fed para pkts (s.cutPes i st payload pts).handOver := by
  have hcut : Fed para pkts (s.cutPes i st payload pts) := by
    refine ⟨h.vStrmFlag, h.aStrmFlag, ?_, ?_, h.firstVideoPts, h.baseVideoPts, h.audioFrameNum⟩
    · rw [← h.streams]
      refine List.ext_getElem? fun j => ?_
      show ((s.streams.modify i _).map AVStream.fresh)[j]? = _
      rw [List.getElem?_map, List.getElem?_map, List.getElem?_modify]
      cases s.streams[j]? with
      | none => simp
      | some st' => by_cases hij : i = j <;> simp [hij, AVStream.fresh]
    · intro j st' hst' hpid
      have hmodify : (s.streams.modify i fun st => { st with cc :=
          (pesPackets _ _ pts payload).2 })[j]? = some st' := hst'
      rw [List.getElem?_modify] at hmodify
      cases hst₀ : s.streams[j]? with
      | none =>
        rw [hst₀] at hmodify
        simp at hmodify
      | some st₀ =>
        rw [hst₀] at hmodify
        obtain rfl := Option.some.inj hmodify
        by_cases hij : i = j
        · simp only [hij, if_true] at hpid ⊢
          exact h.firstFrame j st₀ hst₀ hpid
        · simp only [hij, if_false] at hpid ⊢
          exact h.firstFrame j st₀ hst₀ hpid
  refine hcut.congr ?_
  unfold handOver
  split <;> rfl

/-- **After these packets**: everything is as it is to be, and the members say what comes next. -/
structure Muxed (mode : OutputMode) (para : AvPara) (pkts : List AVPacket) (s : Mpeg2tsMuxer) :
    Prop where
  fed : Fed para pkts s
  mode_eq : s.mode = mode
  small : Small s
  paced : Paced mode para pkts s
  pat : demux patPid readPat s.generated =
    some (List.replicate (tablesDue mode para pkts) [(1, pmtPid)])
  pmt : demux pmtPid readPmt s.generated =
    some (List.replicate (tablesDue mode para pkts) (programMap (makeStreams para)))
  quiet : timed para pkts = [] →
    onPid videoPid s.generated = [] ∧ onPid audioPid s.generated = []
  heard : timed para pkts ≠ [] → ∃ front rest, s.generated = front ++ rest ∧
    onPid videoPid front = [] ∧ onPid audioPid front = [] ∧
      demux patPid readPat front = some [[(1, pmtPid)]] ∧
        demux pmtPid readPmt front = some [programMap (makeStreams para)]
  streams : ∀ st ∈ makeStreams para, (st.codec = .ggad → ShortText para pkts) →
    demux st.pid (readUnit st.codec) s.generated = some (carried st (packetsOf para st.pid pkts))

theorem ShortText.of_append {pkt : AVPacket} (h : ShortText para (pkts ++ [pkt])) :
    ShortText para pkts := by
  intro p hp
  refine h p ?_
  unfold packetsOf at hp ⊢
  rw [List.filter_append]
  exact List.mem_append_left _ hp

/-- What goes before a PES: as many tables as become due. -/
theorem Paced.beforePes {mode : OutputMode} (h : Paced mode para pkts s) {pkt : AVPacket}
    (hfed : Fed para (pkts ++ [pkt]) t) (htarget : target para pkt = some st)
    (hmode : t.mode = mode) (hpace : t.pace = (s.patPacketCount,
      s.patPmtCounter + (if st.pid = videoPid then 1 else 0), s.patPmtFlag)) (hsmall : Small t)
    (pts : Int) :
    ∃ k u, (t.beforePes pts pkt.streamIndex).generated = t.generated ++ u ∧
      Tables t.streams k u ∧ tablesDue mode para (pkts ++ [pkt]) = tablesDue mode para pkts + k ∧
      Paced mode para (pkts ++ [pkt]) (t.beforePes pts pkt.streamIndex) ∧
      (t.beforePes pts pkt.streamIndex).view = t.view ∧
      Small (t.beforePes pts pkt.streamIndex) := by
  by_cases hidx : pkt.streamIndex = codecTypeText
  · have hsame : t.beforePes pts pkt.streamIndex = t := by
      unfold Mpeg2tsMuxer.beforePes
      rw [if_neg (not_not.mpr hidx)]
    have hpid : st.pid ≠ videoPid := by
      rw [pid_of_mem (List.mem_of_getElem? htarget), text_of_target htarget hidx]
      decide
    rw [if_neg hpid] at hpace
    obtain ⟨hdue, hpaced⟩ := h.other (.inr hidx) hpace
    rw [hsame]
    exact ⟨0, [], (List.append_nil _).symm, tables_of_onPid fun _ => rfl, hdue, hpaced, rfl, hsmall⟩
  · obtain ⟨hdue, hpaced⟩ := h.own htarget hidx hmode hpace pts
    have hpids : ∀ st' ∈ t.streams, st'.pid < 2 ^ 13 := by
      intro st' hst'
      have hmem : st'.fresh ∈ makeStreams para := by
        rw [← hfed.streams]
        exact List.mem_map_of_mem hst'
      have hpid : st'.pid = pidOf st'.codec := @pid_of_mem para st'.fresh hmem
      exact hpid ▸ pidOf_lt st'.codec
    have hcount : t.streams.length ≤ 3 := by
      have hlen := congrArg List.length hfed.streams
      rw [List.length_map] at hlen
      rw [hlen]
      exact length_makeStreams para
    have htold := told_beforePes hsmall hpids hcount pts hidx
    obtain ⟨u, hu, htables⟩ := htold.made
    exact ⟨_, u, hu, htables, hdue, hpaced, htold.view, htold.small⟩

/-- What an identifier has no packets of, it has no more of. -/
theorem onPid_append_nil {q : Nat} {ps u : List TsPacket} (h : onPid q ps = [])
    (h' : onPid q u = []) : onPid q (ps ++ u) = [] := by
  rw [onPid_append, h, h']
  rfl

theorem tablesDue_of_nil (mode : OutputMode) (h : timed para pkts = []) :
    tablesDue mode para pkts = 0 := by
  cases mode <;> simp [tablesDue, h]

theorem tablesDue_of_singleton (mode : OutputMode) {pkt : AVPacket} (h : timed para pkts = [pkt]) :
    tablesDue mode para pkts = 1 := by
  cases mode <;> simp [tablesDue, framesSince, packetsOf, h]

/-- No sound or picture comes before the tables, and none of it is lost. -/
theorem Muxed.hears {mode : OutputMode} (h : Muxed mode para pkts s) {pkt : AVPacket}
    (htarget : target para pkt = some st) {k : Nat} {u pes : List TsPacket}
    (htables : Tables (makeStreams para) k u)
    (hdue : tablesDue mode para (pkts ++ [pkt]) = tablesDue mode para pkts + k)
    (hothers : ∀ q, q ≠ st.pid → onPid q pes = []) :
    (timed para (pkts ++ [pkt]) = [] → onPid videoPid (s.generated ++ u ++ pes) = [] ∧
      onPid audioPid (s.generated ++ u ++ pes) = []) ∧
    (timed para (pkts ++ [pkt]) ≠ [] → ∃ front rest, s.generated ++ u ++ pes = front ++ rest ∧
      onPid videoPid front = [] ∧ onPid audioPid front = [] ∧
        demux patPid readPat front = some [[(1, pmtPid)]] ∧
          demux pmtPid readPmt front = some [programMap (makeStreams para)]) := by
  have hvideo : onPid videoPid u = [] := htables.others _ (by decide) (by decide)
  have haudio : onPid audioPid u = [] := htables.others _ (by decide) (by decide)
  by_cases hidx : pkt.streamIndex = codecTypeText
  · rw [timed_other pkts (.inr hidx)]
    constructor
    · intro hnil
      have hpid : st.pid = textPid := by
        rw [pid_of_mem (List.mem_of_getElem? htarget), text_of_target htarget hidx]
        rfl
      obtain ⟨hv, ha⟩ := h.quiet hnil
      exact ⟨onPid_append_nil (onPid_append_nil hv hvideo) (hothers _ (by rw [hpid]; decide)),
        onPid_append_nil (onPid_append_nil ha haudio) (hothers _ (by rw [hpid]; decide))⟩
    · intro hne
      obtain ⟨front, rest, hparts, hfront⟩ := h.heard hne
      refine ⟨front, rest ++ u ++ pes, ?_, hfront⟩
      rw [hparts]
      simp
  · have htimed := timed_own pkts htarget hidx
    refine ⟨fun hnil => absurd (htimed.symm.trans hnil) (by simp), fun _ => ?_⟩
    by_cases hnil : timed para pkts = []
    · -- The first packet that tables go before.
      have hone : k = 1 := by
        rw [hnil] at htimed
        rw [tablesDue_of_singleton mode htimed, tablesDue_of_nil mode hnil] at hdue
        omega
      obtain ⟨hv, ha⟩ := h.quiet hnil
      have hpat := htables.pat _ _ h.pat
      have hpmt := htables.pmt _ _ h.pmt
      rw [tablesDue_of_nil mode hnil, hone] at hpat hpmt
      exact ⟨s.generated ++ u, pes, rfl, onPid_append_nil hv hvideo, onPid_append_nil ha haudio,
        hpat, hpmt⟩
    · obtain ⟨front, rest, hparts, hfront⟩ := h.heard hnil
      refine ⟨front, rest ++ u ++ pes, ?_, hfront⟩
      rw [hparts]
      simp

/-- **Every stream gets its own**: the one the packet is for its frame, and no other anything. -/
theorem Muxed.plays {mode : OutputMode} (h : Muxed mode para pkts s) {pkt : AVPacket}
    (htarget : target para pkt = some st) {k : Nat} {u : List TsPacket} {pts : Int}
    {payload : Bytes} (htables : Tables (makeStreams para) k u)
    (hminus : st.codec ≠ .ggad → pts ≠ -1)
    (hdata : payload = payloadData st (packetsOf para st.pid pkts).length pkt)
    (htime : (if st.codec = .ggad then 0 else pts % 2 ^ 33) =
      frameTime st (firstTime (packetsOf para st.pid (pkts ++ [pkt])))
        (packetsOf para st.pid pkts).length pkt)
    (st' : AVStream) (hst' : st' ∈ makeStreams para)
    (hshort : st'.codec = .ggad → ShortText para (pkts ++ [pkt])) :
    demux st'.pid (readUnit st'.codec)
        (s.generated ++ u ++ (pesPackets st.pid st.codec pts payload).1) =
      some (carried st' (packetsOf para st'.pid (pkts ++ [pkt]))) := by
  have hmem : st ∈ makeStreams para := List.mem_of_getElem? htarget
  have hlt : st.pid < 2 ^ 13 := pid_of_mem hmem ▸ pidOf_lt st.codec
  have hnot' : st'.pid ≠ patPid ∧ st'.pid ≠ pmtPid := pid_of_mem hst' ▸ pidOf_ne st'.codec
  have hbefore := h.streams st' hst' fun hcodec => (hshort hcodec).of_append
  rw [← demux_append_nil (htables.others st'.pid hnot'.1 hnot'.2)] at hbefore
  by_cases hpid : st'.pid = st.pid
  · obtain rfl := eq_of_pid hst' hmem hpid
    have htext : st'.codec = .ggad → payload.length < 2 ^ 16 := by
      intro hcodec
      have hpid : st'.pid = textPid := by
        rw [pid_of_mem hst', hcodec]
        rfl
      have hframe : payload = pkt.data0 := by
        rw [hdata, payloadData, frameData, hcodec]
        rfl
      rw [hframe]
      refine hshort hcodec pkt ?_
      rw [packetsOf_own htarget hpid]
      exact List.mem_append_right _ List.mem_cons_self
    rw [demux_pesPackets hlt st'.codec hminus htext hbefore, packetsOf_own htarget rfl,
      carried_append, ← hdata, htime, packetsOf_own htarget rfl]
  · have hcounted := (counted_pesPackets hlt st.codec pts payload).1
    rw [demux_append_nil (hcounted.onPid_ne hpid), hbefore, packetsOf_other]
    intro st₀ hst₀
    rw [htarget] at hst₀
    obtain rfl := Option.some.inj hst₀
    exact fun heq => hpid heq.symm

/-- **A packet for a stream**: the tables, if they are due, and its frame. -/
theorem Muxed.sent {mode : OutputMode} (h : Muxed mode para pkts s) {pkt : AVPacket}
    (htarget : target para pkt = some st.fresh) {i : Nat} (hst : s.streams[i]? = some st) :
    Muxed mode para (pkts ++ [pkt])
      ((s.payloadOf i st pkt).2.2.writePes i st (s.payloadOf i st pkt).1 (s.payloadOf i st pkt).2.1
        pkt.streamIndex) := by
  have hpid : st.pid = pidOf st.codec := @pid_of_mem para st.fresh (h.fed.mem hst)
  have hlt : st.pid < 2 ^ 13 := hpid ▸ pidOf_lt st.codec
  have hnot : st.pid ≠ patPid ∧ st.pid ≠ pmtPid := hpid ▸ pidOf_ne st.codec
  obtain ⟨hdata, hminus, htime, hfed⟩ := h.fed.payloadOf hst htarget
  obtain ⟨hgen, hmode, hpace, hsmall⟩ := payloadOf_rest s i st pkt
  generalize (s.payloadOf i st pkt).1 = payload at hdata ⊢
  generalize (s.payloadOf i st pkt).2.1 = pts at hminus htime ⊢
  generalize (s.payloadOf i st pkt).2.2 = t at hfed hgen hmode hpace hsmall ⊢
  rw [← hpid] at hpace
  obtain ⟨k, u, hbefore, htables, hdue, hpaced, hview, hsmall'⟩ :=
    h.paced.beforePes hfed htarget (hmode.trans h.mode_eq) hpace (hsmall h.small) pts
  have hothers : ∀ q, q ≠ st.pid → onPid q (pesPackets st.pid st.codec pts payload).1 = [] :=
    fun q hq => (counted_pesPackets hlt st.codec pts payload).1.onPid_ne hq
  have htables' : Tables (makeStreams para) k u := by
    have hmap : programMap t.streams = programMap (makeStreams para) := by
      rw [← hfed.streams, programMap, programMap, List.map_map]
      rfl
    exact ⟨htables.pat, hmap ▸ htables.pmt, htables.others⟩
  obtain ⟨hmade, hmode', hpace', hsmall''⟩ :=
    cutPes_rest (t.beforePes pts pkt.streamIndex) i st payload pts
  rw [hbefore, hgen] at hmade
  have hmode'' : (t.beforePes pts pkt.streamIndex).mode = t.mode := congrArg Prod.fst hview
  obtain ⟨hquiet, hheard⟩ := h.hears htarget htables' hdue hothers
  unfold writePes
  refine ⟨(hfed.congr hview).cutPes i st payload pts,
    hmode'.trans (hmode''.trans (hmode.trans h.mode_eq)), hsmall'' hsmall', hpaced.congr hpace',
    ?_, ?_, hmade ▸ hquiet, hmade ▸ hheard, ?_⟩
  · rw [hmade, demux_append_nil (hothers patPid hnot.1.symm), htables'.pat _ _ h.pat, hdue,
      List.replicate_add]
  · rw [hmade, demux_append_nil (hothers pmtPid hnot.2.symm), htables'.pmt _ _ h.pmt, hdue,
      List.replicate_add]
  · rw [hmade]
    exact h.plays htarget htables' hminus hdata htime

/-- **One call.** -/
theorem Muxed.tsWritePacket {mode : OutputMode} (h : Muxed mode para pkts s) (pkt : AVPacket) :
    Muxed mode para (pkts ++ [pkt]) (s.tsWritePacket pkt) := by
  have htarget := h.fed.target_eq pkt
  unfold Mpeg2tsMuxer.tsWritePacket
  dsimp only
  cases hst : s.streams[s.realStrmIdx pkt.streamIndex]? with
  | none =>
    -- There is no such stream.
    rw [hst, Option.map_none] at htarget
    have hsame : ∀ q, packetsOf para q (pkts ++ [pkt]) = packetsOf para q pkts := by
      intro q
      refine packetsOf_other fun st hst => ?_
      rw [htarget] at hst
      cases hst
    have htimed := timed_other pkts (.inl htarget)
    obtain ⟨hdue, hpaced⟩ := h.paced.other (.inl htarget) (t := s) rfl
    have hfed : Fed para (pkts ++ [pkt]) s := by
      refine ⟨h.fed.vStrmFlag, h.fed.aStrmFlag, h.fed.streams, ?_, ?_, ?_, ?_⟩
      · rw [hsame]
        exact h.fed.firstFrame
      · rw [hsame]
        exact h.fed.firstVideoPts
      · rw [hsame]
        exact h.fed.baseVideoPts
      · rw [hsame]
        exact h.fed.audioFrameNum
    refine ⟨hfed, h.mode_eq, h.small, hpaced, hdue ▸ h.pat, hdue ▸ h.pmt, ?_, ?_, ?_⟩
    · rw [htimed]
      exact h.quiet
    · rw [htimed]
      exact h.heard
    · intro st hst hshort
      rw [hsame]
      exact h.streams st hst fun hcodec => (hshort hcodec).of_append
  | some st =>
    rw [hst, Option.map_some] at htarget
    exact h.sent htarget hst

/-! ## All calls -/

/-- The map is the one a player is to find. -/
theorem programMap_makeStreams (para : AvPara) :
    programMap (makeStreams para) = programOf para := by
  obtain ⟨video, audio, geo⟩ := para
  have hvideo : ∀ v : VideoPara, elementaryStream
      ⟨if v.h265 then .h265 else .h264, 0x1011, 15, v.vosData, true, 0, 0⟩ =
        ⟨if v.h265 then 0x24 else 0x1b, 0x1011, []⟩ := by
    intro v
    cases h : v.h265 <;> rfl
  have haudio : ∀ a : AudioPara, elementaryStream
      ⟨if a.aac then .aac else .adpcm, 0x1100, 15, [], true, a.channels, a.sampleRate⟩ =
        if a.aac then ⟨0x0f, 0x1100, []⟩ else ⟨0x83, 0x1100, [0x83, 0x02, 0x46, 0x3F]⟩ := by
    intro a
    cases h : a.aac <;> rfl
  have htext : (if geo then [(⟨.ggad, 0x300, 15, [], true, 0, 0⟩ : AVStream)] else []).map
      elementaryStream = if geo then [⟨0x06, 0x0300, []⟩] else [] := by
    cases geo <;> rfl
  unfold programMap programOf makeStreams
  refine congrArg (ProgramMap.mk 1 0x1000) ?_
  rw [List.map_append, List.map_append, htext]
  congr 2
  · cases video with
    | none => rfl
    | some v => exact congrArg (fun es => [es]) (hvideo v)
  · cases audio with
    | none => rfl
    | some a => exact congrArg (fun es => [es]) (haudio a)

/-- With sound or picture, the marks are what they say. -/
theorem target_marked (para : AvPara) (hany : para.video.isSome ∨ para.audio.isSome)
    (hmem : st ∈ makeStreams para) {pkt : AVPacket} (hmark : pkt.streamIndex = markOf st.codec) :
    target para pkt = some st := by
  have hvideo : ∀ b : Bool, markOf (if b then .h265 else .h264) = 0 := by decide
  have haudio : ∀ b : Bool, markOf (if b then .aac else .adpcm) = 1 := by decide
  have htext : markOf .ggad = 2 := rfl
  obtain ⟨video, audio, geo⟩ := para
  unfold target
  rw [hmark]
  cases video <;> cases audio <;> cases geo <;> simp [makeStreams] at hany hmem
  all_goals
    first
      | subst hmem
      | rcases hmem with rfl | rfl | rfl
  all_goals
    simp [makeStreams, realStrmIdx, opened, hvideo, haudio, htext, codecTypeText, codecTypeAudio]

/-- What is made is what a player is to find. -/
theorem Muxed.found {mode : OutputMode} (h : Muxed mode para pkts s) :
    Demultiplexed mode para pkts s.generated where
  pat := h.pat
  pmt := programMap_makeStreams para ▸ h.pmt
  announced := by
    by_cases hnil : timed para pkts = []
    · obtain ⟨hvideo, haudio⟩ := h.quiet hnil
      exact ⟨_, [], (List.append_nil _).symm, hvideo, haudio, .inl rfl⟩
    · obtain ⟨front, rest, hparts, hv, ha, htables⟩ := h.heard hnil
      exact ⟨front, rest, hparts, hv, ha, .inr (programMap_makeStreams para ▸ htables)⟩
  marked _ _ _ hst hany hmark := target_marked para hany hst hmark
  streams st hst hshort := readFrame_carried st (h.streams st hst hshort)
  sound st hst hcodec hannounced hshort := by
    have hpid : st.pid = audioPid := by
      rw [pid_of_mem hst, hcodec]
      rfl
    have hcarried := h.streams st hst fun hggad => by rw [hcodec] at hggad; cases hggad
    rw [hcodec] at hcarried
    exact readSound_carried hcodec hannounced (hpid ▸ hshort) hcarried

end Mpeg2tsMuxer

end Maixii.Muxer
