import Maixii.Mp4.MovRecording

/-!
# `Mp4/MovSteps.lean`: which packets can be written

`Sound` is what a packet needs so that `mov_write_packet` stays within its buffers. A sound packet
keeps `Recorded` as long as there is room for its key frame (`Recorded.step`), and no other packet
has a result (`Recorded.sound`).
-/

set_option autoImplicit false

namespace Maixii.Mp4

open Maixii.Lib

/-- The codecs of video that `mov_write_packet` knows. -/
def IsVideo (codec : CodecID) : Prop :=
  codec = .h264 ∨ codec = .h265 ∨ codec = .mpeg4 ∨ codec = .mjpeg

instance (codec : CodecID) : Decidable (IsVideo codec) := by
  unfold IsVideo
  infer_instance

/-- The fifth byte of a frame can be read, or it is not looked for. -/
def FifthByte (s : AVFormatContext) (p : AVPacket) : Prop :=
  if p.data0 = [] then (s.codec .video).codecId = .h265 ∨ (s.codec .video).codecId = .mjpeg
  else 5 ≤ p.data0.length + p.data1.length

instance (s : AVFormatContext) (p : AVPacket) : Decidable (FifthByte s p) := by
  unfold FifthByte
  infer_instance

/-- **A packet that can be written**: its size is an `int`, a frame has its fifth byte, and a frame
of PCM is not empty. -/
structure Sound (s : AVFormatContext) (p : AVPacket) : Prop where
  size_lt : packetSize s p < 2 ^ 31
  byte : p.streamIndex = .video → FifthByte s p
  pcm : (s.codec p.streamIndex).codecId = .pcm →
    (s.codec p.streamIndex).channels * ((s.codec p.streamIndex).bitsPerSample / 8) ≠ 0

instance (s : AVFormatContext) (p : AVPacket) : Decidable (Sound s p) :=
  decidable_of_iff (packetSize s p < 2 ^ 31 ∧ (p.streamIndex = .video → FifthByte s p) ∧
    ((s.codec p.streamIndex).codecId = .pcm →
      (s.codec p.streamIndex).channels * ((s.codec p.streamIndex).bitsPerSample / 8) ≠ 0))
    ⟨fun h => ⟨h.1, h.2.1, h.2.2⟩, fun h => ⟨h.size_lt, h.byte, h.pcm⟩⟩

variable {s : AVFormatContext} {start : OutFile} {pkts : List AVPacket} {p : AVPacket}
  {mov mov' : MovContext}

/-! ## What is written -/

theorem needSpecialWrite_video (h : needSpecialWrite s p = true) : p.streamIndex = .video := by
  simp only [needSpecialWrite, Bool.and_eq_true, decide_eq_true_eq] at h
  exact h.1.1

/-- The length takes the place of four bytes, in whichever part they are. -/
theorem length_parts (h : p.streamIndex = .video → FifthByte s p) :
    (writtenFirst s p).length + (writtenSecond s p).length = p.data0.length + p.data1.length := by
  unfold writtenFirst writtenSecond
  by_cases hnil : p.data0 = []
  · rw [if_pos hnil, if_neg (fun hand => hand.1 hnil), hnil]
  · have hpos : 0 < p.data0.length := List.length_pos_iff.mpr hnil
    rw [if_neg hnil]
    by_cases hspecial : needSpecialWrite s p = true
    · have hfive := h (needSpecialWrite_video hspecial)
      rw [FifthByte, if_neg hnil] at hfive
      rw [if_pos hspecial, List.length_append, length_putBe32, List.length_drop]
      by_cases hshort : p.data0.length ≤ 4
      · rw [if_pos ⟨hnil, hspecial, hshort⟩, List.length_drop]
        omega
      · rw [if_neg (fun hand => hshort hand.2.2)]
        omega
    · rw [if_neg hspecial, if_neg (fun hand => hspecial hand.2.1)]

/-- **As many bytes are written as the tables say.** -/
theorem length_written (h : p.streamIndex = .video → FifthByte s p) :
    (written s p).length = packetSize s p := by
  rw [written, List.length_append, List.length_append, length_parts h, packetSize]
  split <;> rfl

/-! ## The key frames -/

/-- **The byte that is looked at** is the fifth of both parts together. -/
theorem tmpStrmByte_eq (hne : p.data0 ≠ []) (h : 5 ≤ p.data0.length + p.data1.length) :
    tmpStrmByte p = some ((p.data0 ++ p.data1)[4]?) := by
  have hpos : 0 < p.data0.length := List.length_pos_iff.mpr hne
  unfold tmpStrmByte
  by_cases hlong : 5 ≤ p.data0.length
  · rw [if_pos hlong, List.getElem?_append_left (by omega)]
  · have hin : 4 - p.data0.length < p.data1.length := by omega
    rw [if_neg hlong, if_pos hpos, List.getElem?_append_right (by omega),
      List.getElem?_eq_getElem hin]
    rfl

theorem tmpStrmByte_nil (h : p.data0 = []) : tmpStrmByte p = some none := by
  unfold tmpStrmByte
  rw [h]
  rfl

/-- **A frame's kind is known.** -/
theorem isKeyFrame_eq {index : Nat} (hcodec : IsVideo (s.codec .video).codecId)
    (h : FifthByte s p)
    (hjpeg : (s.codec .video).codecId = .mjpeg → mov.keyframeNum = index % 25) :
    isKeyFrame mov p (s.codec .video).codecId = some (some (KeyFrame s p index)) := by
  unfold FifthByte at h
  unfold KeyFrame
  by_cases hnil : p.data0 = []
  · rw [if_pos hnil] at h
    rcases h with h | h
    · simp only [h, isKeyFrame, tmpStrmByte_nil hnil, Option.bind_eq_bind, Option.bind_some]
    · simp only [h, isKeyFrame, tmpStrmByte_nil hnil, Option.bind_eq_bind, Option.bind_some,
        hjpeg h]
  · rw [if_neg hnil] at h
    have hlt : 4 < (p.data0 ++ p.data1).length := by
      rw [List.length_append]
      omega
    have hbyte := tmpStrmByte_eq hnil h
    rw [List.getElem?_eq_getElem hlt] at hbyte ⊢
    rcases hcodec with hc | hc | hc | hc
    · simp only [hc, isKeyFrame, hbyte, Option.bind_eq_bind, Option.bind_some, Option.any_some]
    · simp only [hc, isKeyFrame, hbyte, Option.bind_eq_bind, Option.bind_some]
    · simp only [hc, isKeyFrame, hbyte, Option.bind_eq_bind, Option.bind_some, Option.any_some]
    · simp only [hc, isKeyFrame, hbyte, Option.bind_eq_bind, Option.bind_some, hjpeg hc]

/-- Without the fifth byte it is not. -/
theorem fifthByte_of_isKeyFrame {r : Option Bool}
    (h : isKeyFrame mov p (s.codec .video).codecId = some r)
    (hcodec : IsVideo (s.codec .video).codecId) : FifthByte s p := by
  unfold FifthByte
  by_cases hnil : p.data0 = []
  · rw [if_pos hnil]
    rcases hcodec with hc | hc | hc | hc
    · simp [hc, isKeyFrame, tmpStrmByte_nil hnil] at h
    · exact Or.inl hc
    · simp [hc, isKeyFrame, tmpStrmByte_nil hnil] at h
    · exact Or.inr hc
  · rw [if_neg hnil]
    by_contra hshort
    have hpos : 0 < p.data0.length := List.length_pos_iff.mpr hnil
    have hnone : tmpStrmByte p = none := by
      unfold tmpStrmByte
      rw [if_neg (by omega), if_pos hpos, List.getElem?_eq_none (by omega)]
      rfl
    rcases hcodec with hc | hc | hc | hc <;> simp [hc, isKeyFrame, hnone] at h

/-! ## The steps of a packet -/

/-- What the chunk of a packet puts into the tables. -/
def beginWords (mov : MovContext) (p : AVPacket) (t : Table) : List UInt32 :=
  if mov.lastStreamIndex = some p.streamIndex then [] else mov.chunkWords p.streamIndex t

/-- **Chunk and sample are told.** -/
theorem Recorded.sampled (h : Recorded s start pkts mov)
    (hpcm : (s.codec p.streamIndex).codecId = .pcm →
      (s.codec p.streamIndex).channels * ((s.codec p.streamIndex).bitsPerSample / 8) ≠ 0) :
    ∃ mov₁ mov₂, mov.newChunk p = some mov₁ ∧
      MovContext.addSample s { mov₁ with lastStreamIndex := some p.streamIndex } p = some mov₂ ∧
      mov₂.Caches (fun t => t.history s pkts ++ beginWords mov p t ++
        MovContext.sampleWords s p t) ∧
      (∀ t, mov₂.size t = t.entries s pkts + (beginWords mov p t).length +
        if t = .stsz p.streamIndex then sampleCount s p else 0) ∧
      mov₂.stscCnt = openCount s (pkts ++ [p]) ∧ mov₂.lastStreamIndex = some p.streamIndex ∧
      mov.SameFrames mov₂ := by
  obtain ⟨mov₁, hchunk, hcaches, hsize, hcount, hframes⟩ : ∃ mov₁, mov.newChunk p = some mov₁ ∧
      mov₁.Caches (fun t => t.history s pkts ++ beginWords mov p t) ∧
      (∀ t, mov₁.size t = t.entries s pkts + (beginWords mov p t).length) ∧
      mov₁.stscCnt + sampleCount s p = openCount s (pkts ++ [p]) ∧ mov.SameFrames mov₁ := by
    unfold beginWords
    by_cases hbegin : BeginsChunk pkts p
    · have hnew := h.begins_iff.mp hbegin
      obtain ⟨mov₁, hchunk, hcaches, hsize, hzero, hframes⟩ := h.caches.newChunk hnew
      simp only [if_neg hnew]
      refine ⟨mov₁, hchunk, hcaches, ?_, ?_, hframes⟩
      · intro t
        rw [hsize t, h.size t]
      · rw [hzero, Nat.zero_add, openCount_new hbegin]
    · have hsame := h.last_eq hbegin
      simp only [if_pos hsame, List.append_nil, List.length_nil, Nat.add_zero]
      refine ⟨mov, if_pos hsame, h.caches, h.size, ?_, ⟨rfl, rfl, rfl, rfl, rfl⟩⟩
      rw [h.count, openCount_same hbegin]
  have hmarked : MovContext.Caches { mov₁ with lastStreamIndex := some p.streamIndex }
      (fun t => t.history s pkts ++ beginWords mov p t) := hcaches.congr rfl rfl rfl rfl
  obtain ⟨mov₂, hsample, hcaches₂, hsize₂, hcount₂, hlast₂, hframes₂⟩ := hmarked.addSample hpcm
  refine ⟨mov₁, mov₂, hchunk, hsample, hcaches₂, ?_, ?_, hlast₂, ?_⟩
  · intro t
    rw [hsize₂]
    by_cases ht : t = .stsz p.streamIndex
    · subst ht
      rw [Function.update_self, if_pos rfl]
      exact congrArg (· + sampleCount s p) (hsize _)
    · rw [Function.update_of_ne ht, if_neg ht, Nat.add_zero]
      exact hsize t
  · rw [hcount₂]
    exact hcount
  · have hmark : MovContext.SameFrames mov₁
        { mov₁ with lastStreamIndex := some p.streamIndex } := ⟨rfl, rfl, rfl, rfl, rfl⟩
    exact (hframes.trans hmark).trans hframes₂

/-- **The frame is told**, and whether it is a key frame. -/
theorem addFrame_eq {H : Table → List UInt32} (index : Nat) (h : mov.Caches H)
    (hcodec : IsVideo (s.codec .video).codecId) (hbyte : FifthByte s p)
    (hjpeg : (s.codec .video).codecId = .mjpeg → mov.keyframeNum = index % 25)
    (hroom : KeyFrame s p index = true → mov.keyFrameNum < keyframeCacheEntries) :
    ∃ mov', mov.addFrame s p = some (true, mov') ∧
      mov'.Caches (fun t => H t ++ MovContext.oneWord .stts p.duration t) ∧
      mov'.size = Function.update mov.size .stts (mov.size .stts + 1) ∧
      mov'.stscCnt = mov.stscCnt ∧ mov'.lastStreamIndex = mov.lastStreamIndex ∧
      mov'.mdatSize = mov.mdatSize ∧ mov'.pb = mov.pb ∧
      words mov'.cacheKeyframe 0 mov'.keyFrameNum = words mov.cacheKeyframe 0 mov.keyFrameNum ++
        (if KeyFrame s p index then [UInt32.ofNat (mov.size .stts + 1)] else []) ∧
      ((s.codec .video).codecId = .mjpeg → mov'.keyframeNum = (index + 1) % 25) := by
  obtain ⟨mov₁, hduration, hcaches, hsize, hcount, hlast, hframes⟩ := h.addDuration (p := p)
  have hkey : isKeyFrame mov₁ p (s.codec .video).codecId = some (some (KeyFrame s p index)) :=
    isKeyFrame_eq hcodec hbyte (fun hc => hframes.keyframeNum.trans (hjpeg hc))
  -- the key frame, and then the count of JPEGs
  obtain ⟨mov₂, hadd, hcaches₂, hsize₂, hcount₂, hlast₂, hmdat₂, hpb₂, hkeys₂, hjpegs₂⟩ :
      ∃ mov₂, (if KeyFrame s p index then mov₁.addKeyFrame else some mov₁) = some mov₂ ∧
        mov₂.Caches (fun t => H t ++ MovContext.oneWord .stts p.duration t) ∧
        mov₂.size = mov₁.size ∧ mov₂.stscCnt = mov₁.stscCnt ∧
        mov₂.lastStreamIndex = mov₁.lastStreamIndex ∧ mov₂.mdatSize = mov₁.mdatSize ∧
        mov₂.pb = mov₁.pb ∧
        words mov₂.cacheKeyframe 0 mov₂.keyFrameNum =
          words mov.cacheKeyframe 0 mov.keyFrameNum ++
            (if KeyFrame s p index then [UInt32.ofNat (mov.size .stts + 1)] else []) ∧
        mov₂.keyframeNum = mov₁.keyframeNum := by
    by_cases hk : KeyFrame s p index = true
    · have hlt := hroom hk
      rw [← hframes.keyFrameNum] at hlt
      have hstts : mov₁.size .stts = mov.size .stts + 1 := by rw [hsize, Function.update_self]
      refine ⟨mov₁.noteKeyFrame, ?_, hcaches.congr rfl rfl rfl rfl, rfl, rfl, rfl, rfl, rfl, ?_,
        rfl⟩
      · rw [if_pos hk, MovContext.addKeyFrame, if_pos hlt]
      · show words (Function.update mov₁.cacheKeyframe mov₁.keyFrameNum
          (UInt32.ofNat (mov₁.size .stts))) 0 (mov₁.keyFrameNum + 1) = _
        rw [words_update, if_pos hk, hframes.cacheKeyframe, hframes.keyFrameNum, hstts]
    · refine ⟨mov₁, if_neg hk, hcaches, rfl, rfl, rfl, rfl, rfl, ?_, rfl⟩
      rw [if_neg hk, List.append_nil, hframes.cacheKeyframe, hframes.keyFrameNum]
  have hresult : mov.addFrame s p = some (true, mov₂.countJpeg (s.codec .video).codecId) := by
    unfold MovContext.addFrame
    simp only [hduration, hkey, Option.bind_eq_bind, Option.bind_some]
    cases hk : KeyFrame s p index with
    | false =>
      rw [hk] at hadd
      obtain rfl := Option.some.inj hadd
      rfl
    | true =>
      rw [hk] at hadd
      rw [if_pos rfl, show mov₁.addKeyFrame = some mov₂ from hadd]
      rfl
  refine ⟨_, hresult, hcaches₂.congr rfl rfl rfl rfl, hsize₂.trans hsize, hcount₂.trans hcount,
    hlast₂.trans hlast, hmdat₂.trans hframes.mdatSize, hpb₂.trans hframes.pb, hkeys₂, ?_⟩
  intro hc
  have hold := hjpeg hc
  show (if (s.codec .video).codecId = .mjpeg then
    if 25 ≤ mov₂.keyframeNum + 1 then 0 else mov₂.keyframeNum + 1 else mov₂.keyframeNum) = _
  rw [if_pos hc, hjpegs₂, hframes.keyframeNum, hold]
  split <;> omega

theorem Recorded.keyFrameNum_eq (h : Recorded s start pkts mov) :
    mov.keyFrameNum = (keyNumbers s pkts).length := by
  have hlen := congrArg List.length h.keys
  rwa [length_words, List.length_map] at hlen

/-- Every entry that is counted is one of the words of the packet, or a sample. -/
theorem Recorded.entries_snoc (h : Recorded s start pkts mov) (t : Table) :
    t.entries s (pkts ++ [p]) = t.entries s pkts + (beginWords mov p t).length +
      (if t = .stsz p.streamIndex then sampleCount s p else 0) +
      (if p.streamIndex = .video then MovContext.oneWord .stts p.duration t else []).length := by
  have hwords : ∀ u : Table, (∀ st, u ≠ .stsz st) →
      (u.history s (pkts ++ [p])).length = (u.history s pkts).length + (beginWords mov p u).length +
        (if u = .stsz p.streamIndex then sampleCount s p else 0) +
        (if p.streamIndex = .video then MovContext.oneWord .stts p.duration u else []).length := by
    intro u hu
    have hnone : MovContext.sampleWords s p u = [] := by
      unfold MovContext.sampleWords MovContext.oneWord
      rw [if_neg (hu _), ite_self]
    rw [h.history_snoc, if_neg (hu _), List.length_append, packetWords, List.length_append, hnone,
      List.append_nil, beginWords, Nat.add_zero, Nat.add_assoc]
  cases t with
  | stco st => exact hwords (.stco st) fun _ => Table.noConfusion
  | stsc st => exact hwords (.stsc st) fun _ => Table.noConfusion
  | stts => exact hwords .stts fun _ => Table.noConfusion
  | stsz st =>
    have hbegin : beginWords mov p (.stsz st) = [] := by
      unfold beginWords MovContext.chunkWords MovContext.endWords MovContext.oneWord
      split
      · rfl
      · split <;> rfl
    have hframe : (if p.streamIndex = .video then
        MovContext.oneWord .stts p.duration (.stsz st) else []) = [] := ite_self _
    rw [hbegin, hframe, Table.entries, Table.entries, packetsOf_snoc]
    by_cases hst : p.streamIndex = st
    · rw [if_pos hst, if_pos (congrArg Table.stsz hst.symm), sampleCounts_snoc]
      rfl
    · rw [if_neg hst, if_neg (fun he => hst (Table.stsz.inj he).symm), List.append_nil]
      rfl

/-- A frame that is a key frame has a place for its number. -/
theorem Recorded.key_room (h : Recorded s start pkts mov) (hst : p.streamIndex = .video)
    (hroom : (keyNumbers s (pkts ++ [p])).length ≤ keyframeCacheEntries)
    (hkey : KeyFrame s p (packetsOf .video pkts).length = true) :
    mov.keyFrameNum < keyframeCacheEntries := by
  rw [keyNumbers_snoc hst, if_pos hkey, List.length_append, List.length_singleton,
    ← h.keyFrameNum_eq] at hroom
  exact hroom

/-- **The frame of a sound packet is told.** -/
theorem Recorded.framed {mov₂ : MovContext} {H : Table → List UInt32}
    (h : Recorded s start pkts mov) (hcodec : IsVideo (s.codec .video).codecId)
    (hsound : Sound s p) (hroom : (keyNumbers s (pkts ++ [p])).length ≤ keyframeCacheEntries)
    (hcaches : mov₂.Caches H) (hstts : mov₂.size .stts = (packetsOf .video pkts).length)
    (hframes : mov.SameFrames mov₂) :
    ∃ mov₃, mov₂.addVideo s p = some (true, mov₃) ∧
      mov₃.Caches (fun t => H t ++
        if p.streamIndex = .video then MovContext.oneWord .stts p.duration t else []) ∧
      (∀ t, mov₃.size t = mov₂.size t +
        (if p.streamIndex = .video then MovContext.oneWord .stts p.duration t else []).length) ∧
      mov₃.stscCnt = mov₂.stscCnt ∧ mov₃.lastStreamIndex = mov₂.lastStreamIndex ∧
      mov₃.mdatSize = mov.mdatSize ∧ mov₃.pb = mov.pb ∧
      words mov₃.cacheKeyframe 0 mov₃.keyFrameNum =
        (keyNumbers s (pkts ++ [p])).map UInt32.ofNat ∧
      ((s.codec .video).codecId = .mjpeg →
        mov₃.keyframeNum = (packetsOf .video (pkts ++ [p])).length % 25) := by
  unfold MovContext.addVideo
  cases hst : p.streamIndex with
  | audio =>
    have hnot : ¬ p.streamIndex = .video := by
      rw [hst]
      exact nofun
    have hvideo : packetsOf .video (pkts ++ [p]) = packetsOf .video pkts := by
      rw [packetsOf_snoc, if_neg hnot, List.append_nil]
    refine ⟨mov₂, rfl, ?_, fun _ => rfl, rfl, rfl, hframes.mdatSize, hframes.pb, ?_, ?_⟩
    · simpa using hcaches
    · rw [keyNumbers, hvideo, hframes.cacheKeyframe, hframes.keyFrameNum]
      exact h.keys
    · intro hc
      rw [hvideo, hframes.keyframeNum]
      exact h.jpegs hc
  | video =>
    obtain ⟨mov₃, hframe, hcaches₃, hsize, hcount, hlast, hmdat, hpb, hkeys, hjpegs⟩ :=
      addFrame_eq (packetsOf .video pkts).length hcaches hcodec (hsound.byte hst)
        (fun hc => hframes.keyframeNum.trans (h.jpegs hc))
        (fun hkey => by
          rw [hframes.keyFrameNum]
          exact h.key_room hst hroom hkey)
    refine ⟨mov₃, hframe, ?_, ?_, hcount, hlast, hmdat.trans hframes.mdatSize,
      hpb.trans hframes.pb, ?_, ?_⟩
    · simpa using hcaches₃
    · intro t
      rw [hsize, if_pos rfl]
      exact MovContext.update_count ..
    · rw [hkeys, hframes.cacheKeyframe, hframes.keyFrameNum, h.keys, keyNumbers_snoc hst,
        List.map_append, hstts]
      split <;> rfl
    · intro hc
      rw [hjpegs hc, packetsOf_snoc, if_pos hst, List.length_append, List.length_singleton]

/-- **A packet more is recorded.** -/
theorem Recorded.step (h : Recorded s start pkts mov) (hstart : start.pos ≤ start.bytes.length)
    (hcodec : IsVideo (s.codec .video).codecId) (hsound : Sound s p)
    (hroom : (keyNumbers s (pkts ++ [p])).length ≤ keyframeCacheEntries) :
    ∃ mov', movWritePacket s mov p = some (true, mov') ∧ Recorded s start (pkts ++ [p]) mov' := by
  obtain ⟨mov₁, mov₂, hchunk, hsample, hcaches, hsize, hcount, hlast, hframes⟩ :=
    h.sampled hsound.pcm
  have hstts : mov₂.size .stts = (packetsOf .video pkts).length := by
    have hnone : beginWords mov p .stts = [] := by
      unfold beginWords MovContext.chunkWords MovContext.endWords MovContext.oneWord
      split
      · rfl
      · split <;> rfl
    rw [hsize, hnone]
    exact List.length_map _
  obtain ⟨mov₃, hframe, hcaches₃, hsize₃, hcount₃, hlast₃, hmdat₃, hpb₃, hkeys₃, hjpegs₃⟩ :=
    h.framed hcodec hsound hroom hcaches hstts hframes
  have hlen := length_written hsound.byte
  refine ⟨{ mov₃ with
    mdatSize := mov₃.mdatSize + packetSize s p
    pb := mov₃.pb.write (written s p) }, ?_, ?_, ?_, ?_, ?_, ?_, ?_, hkeys₃, hjpegs₃⟩
  · unfold movWritePacket
    rw [if_neg (Nat.not_le.mpr hsound.size_lt), hchunk]
    show (MovContext.addSample s { mov₁ with lastStreamIndex := some p.streamIndex } p).bind _ = _
    rw [hsample]
    show (mov₂.addVideo s p).bind _ = _
    rw [hframe]
    rfl
  · have hwords : (fun t : Table => t.history s (pkts ++ [p])) = fun t => t.history s pkts ++
        beginWords mov p t ++ MovContext.sampleWords s p t ++
          if p.streamIndex = .video then MovContext.oneWord .stts p.duration t else [] := by
      funext t
      rw [h.history_snoc, packetWords]
      simp only [List.append_assoc]
      rfl
    rw [hwords]
    exact hcaches₃.congr rfl rfl rfl rfl
  · intro t
    rw [h.entries_snoc t, ← hsize t]
    exact hsize₃ t
  · rw [List.getLast?_concat, Option.map_some]
    exact hlast₃.trans hlast
  · exact hcount₃.trans hcount
  · show mov₃.mdatSize + packetSize s p = _
    rw [hmdat₃, h.mdat, sampleData_snoc, List.length_append, hlen]
  · show mov₃.pb.write (written s p) = _
    rw [hpb₃, h.pb, OutFile.write_write hstart, sampleData_snoc]

/-! ## No other packet can be written -/

/-- **What has a result is sound.** -/
theorem sound_of_movWritePacket {r : Bool × MovContext} (hcodec : IsVideo (s.codec .video).codecId)
    (h : movWritePacket s mov p = some r) : Sound s p := by
  unfold movWritePacket at h
  by_cases hbig : 2 ^ 31 ≤ packetSize s p
  · rw [if_pos hbig] at h
    cases h
  rw [if_neg hbig] at h
  obtain ⟨mov₁, -, h⟩ := Option.bind_eq_some_iff.mp h
  obtain ⟨mov₂, hsample, h⟩ := Option.bind_eq_some_iff.mp h
  obtain ⟨r₃, hvideo, -⟩ := Option.bind_eq_some_iff.mp h
  refine ⟨Nat.not_le.mp hbig, ?_, ?_⟩
  · intro hst
    unfold MovContext.addVideo at hvideo
    rw [hst] at hvideo
    unfold MovContext.addFrame at hvideo
    obtain ⟨mov₄, -, hvideo⟩ := Option.bind_eq_some_iff.mp hvideo
    obtain ⟨key, hkey, -⟩ := Option.bind_eq_some_iff.mp hvideo
    exact fifthByte_of_isKeyFrame hkey hcodec
  · intro hpcm hzero
    unfold MovContext.addSample at hsample
    simp only [if_pos hpcm, pcmSamples, if_pos hzero, Option.bind_eq_bind, Option.bind_none] at hsample
    cases hsample

/-- **The key frame that finds the array full has no result.** -/
theorem Recorded.room_of_some {r : Bool × MovContext} (h : Recorded s start pkts mov)
    (hcodec : IsVideo (s.codec .video).codecId)
    (hold : (keyNumbers s pkts).length ≤ keyframeCacheEntries)
    (hr : movWritePacket s mov p = some r) :
    (keyNumbers s (pkts ++ [p])).length ≤ keyframeCacheEntries := by
  have hsound := sound_of_movWritePacket hcodec hr
  cases hst : p.streamIndex with
  | audio =>
    have hnot : ¬ p.streamIndex = .video := by
      rw [hst]
      decide
    rwa [keyNumbers, packetsOf_snoc, if_neg hnot, List.append_nil]
  | video =>
    rw [keyNumbers_snoc hst]
    cases hkey : KeyFrame s p (packetsOf .video pkts).length with
    | false => simpa using hold
    | true =>
      rw [if_pos rfl, List.length_append, List.length_singleton, ← h.keyFrameNum_eq]
      by_contra hfull
      obtain ⟨mov₁, mov₂, hchunk, hsample, hcaches, -, -, -, hframes⟩ := h.sampled hsound.pcm
      obtain ⟨mov₃, hduration, -, -, -, -, hframes₃⟩ := hcaches.addDuration (p := p)
      have hnone : mov₃.addKeyFrame = none := by
        refine if_neg ?_
        rw [hframes₃.keyFrameNum, hframes.keyFrameNum]
        omega
      have hkind : isKeyFrame mov₃ p (s.codec .video).codecId = some (some true) := by
        rw [← hkey]
        refine isKeyFrame_eq hcodec (hsound.byte hst) ?_
        intro hc
        rw [hframes₃.keyframeNum, hframes.keyframeNum]
        exact h.jpegs hc
      have hframe : mov₂.addVideo s p = none := by
        unfold MovContext.addVideo
        rw [hst]
        unfold MovContext.addFrame
        simp only [hduration, hkind, hnone, Option.bind_eq_bind, Option.bind_some, if_true,
          Option.bind_none]
      unfold movWritePacket at hr
      rw [if_neg (Nat.not_le.mpr hsound.size_lt), hchunk] at hr
      replace hr : (MovContext.addSample s { mov₁ with lastStreamIndex := some p.streamIndex }
        p).bind _ = some r := hr
      rw [hsample] at hr
      replace hr : (mov₂.addVideo s p).bind _ = some r := hr
      rw [hframe] at hr
      cases hr

/-! ## Runs -/

/-- With more packets there are not fewer key frames. -/
theorem keyNumbers_mono (s : AVFormatContext) (pkts more : List AVPacket) :
    (keyNumbers s pkts).length ≤ (keyNumbers s (pkts ++ more)).length := by
  unfold keyNumbers packetsOf
  rw [List.filter_append, List.zipIdx_append, List.filter_append, List.map_append,
    List.length_append]
  exact Nat.le_add_right _ _

/-- **The run lemma**: sound packets are all recorded, -/
theorem Recorded.run (h : Recorded s start pkts mov) (hstart : start.pos ≤ start.bytes.length)
    (hcodec : IsVideo (s.codec .video).codecId) {more : List AVPacket}
    (hsound : ∀ p ∈ more, Sound s p)
    (hroom : (keyNumbers s (pkts ++ more)).length ≤ keyframeCacheEntries) :
    ∃ mov', movWritePackets s mov more = some mov' ∧ Recorded s start (pkts ++ more) mov' := by
  induction more generalizing pkts mov with
  | nil =>
    refine ⟨mov, rfl, ?_⟩
    rwa [List.append_nil]
  | cons p more ih =>
    have happend : pkts ++ p :: more = pkts ++ [p] ++ more := by simp
    rw [happend] at hroom ⊢
    obtain ⟨mov₁, hstep, hrec⟩ := h.step hstart hcodec (hsound p List.mem_cons_self)
      (Nat.le_trans (keyNumbers_mono ..) hroom)
    obtain ⟨mov', hrun, hrec'⟩ := ih hrec (fun q hq => hsound q (List.mem_cons_of_mem p hq)) hroom
    refine ⟨mov', ?_, hrec'⟩
    show (movWritePacket s mov p).bind _ = _
    rw [hstep]
    exact hrun

/-- and what has a result was sound. -/
theorem Recorded.run_sound (h : Recorded s start pkts mov)
    (hstart : start.pos ≤ start.bytes.length) (hcodec : IsVideo (s.codec .video).codecId)
    (hold : (keyNumbers s pkts).length ≤ keyframeCacheEntries) {more : List AVPacket}
    (hrun : movWritePackets s mov more = some mov') :
    (∀ p ∈ more, Sound s p) ∧
      (keyNumbers s (pkts ++ more)).length ≤ keyframeCacheEntries := by
  induction more generalizing pkts mov with
  | nil =>
    rw [List.append_nil]
    exact ⟨nofun, hold⟩
  | cons p more ih =>
    obtain ⟨r, hstep, hrun⟩ := Option.bind_eq_some_iff.mp hrun
    have hsound := sound_of_movWritePacket hcodec hstep
    have hroom := h.room_of_some hcodec hold hstep
    obtain ⟨mov₁, hstep', hrec⟩ := h.step hstart hcodec hsound hroom
    obtain rfl := Option.some.inj (hstep.symm.trans hstep')
    obtain ⟨hall, hkeys⟩ := ih hrec hroom hrun
    have happend : pkts ++ p :: more = pkts ++ [p] ++ more := by simp
    rw [happend]
    exact ⟨List.forall_mem_cons.mpr ⟨hsound, hall⟩, hkeys⟩

end Maixii.Mp4
