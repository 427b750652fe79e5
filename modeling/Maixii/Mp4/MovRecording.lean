import Maixii.Mp4.Chunks
import Maixii.Mp4.MovCaches

/-!
# `Mp4/MovRecording.lean`: the caches after any packets

`Recorded` ties the caches to the packets so far: every table is the one that `Mp4/Chunks.lean`
describes, but the last chunk, which is open, is not in `stsc` yet. A packet keeps it
(`Recorded.step`) exactly if it can be written at all.
-/

set_option autoImplicit false

namespace Maixii.Mp4

open Maixii.Lib

namespace MovContext

variable {mov mov' mov'' : MovContext} {H : Table → List UInt32} {s : AVFormatContext}
  {p : AVPacket} {v : UInt32}

/-- Neither `mdat` nor the key frames have changed. -/
structure SameFrames (mov mov' : MovContext) : Prop where
  mdatSize : mov'.mdatSize = mov.mdatSize
  pb : mov'.pb = mov.pb
  cacheKeyframe : mov'.cacheKeyframe = mov.cacheKeyframe
  keyFrameNum : mov'.keyFrameNum = mov.keyFrameNum
  keyframeNum : mov'.keyframeNum = mov.keyframeNum

theorem SameFrames.trans (h : SameFrames mov mov') (h' : SameFrames mov' mov'') :
    SameFrames mov mov'' :=
  ⟨h'.mdatSize.trans h.mdatSize, h'.pb.trans h.pb, h'.cacheKeyframe.trans h.cacheKeyframe,
    h'.keyFrameNum.trans h.keyFrameNum, h'.keyframeNum.trans h.keyframeNum⟩

theorem sameFrames_settle (mov : MovContext) (t trk : Table) :
    SameFrames mov (mov.settle t trk) :=
  ⟨mdatSize_settle .., pb_settle .., cacheKeyframe_settle .., keyFrameNum_settle ..,
    keyframeNum_settle ..⟩

/-- One word for the table `t`. -/
def oneWord (t : Table) (v : UInt32) (u : Table) : List UInt32 := if u = t then [v] else []

theorem update_words (H : Table → List UInt32) (t : Table) (v : UInt32) :
    Function.update H t (H t ++ [v]) = fun u => H u ++ oneWord t v u := by
  funext u
  unfold oneWord
  by_cases hu : u = t
  · subst hu
    rw [Function.update_self, if_pos rfl]
  · rw [Function.update_of_ne hu, if_neg hu, List.append_nil]

theorem update_count (n : Table → Nat) (t : Table) (v : UInt32) (u : Table) :
    Function.update n t (n t + 1) u = n u + (oneWord t v u).length := by
  unfold oneWord
  by_cases hu : u = t
  · subst hu
    rw [Function.update_self, if_pos rfl, List.length_singleton]
  · rw [Function.update_of_ne hu, if_neg hu, List.length_nil, Nat.add_zero]

/-- What ending a chunk puts into the tables: its samples. -/
def endWords (mov : MovContext) (t : Table) : List UInt32 :=
  match mov.lastStreamIndex with
  | none => []
  | some last => oneWord (.stsc last) (UInt32.ofNat mov.stscCnt) t

/-- What a new chunk puts into them: its offset, and the samples of the one before. -/
def chunkWords (mov : MovContext) (here : StreamType) (t : Table) : List UInt32 :=
  endWords mov t ++ oneWord (.stco here) (UInt32.ofNat (mov.mdatSize + mdatStartPos)) t

/-- **A chunk is over**: its samples are in `stsc`, whose page the other track counts. -/
theorem CachesBut.endChunk {here : StreamType} (h : CachesBut mov (.stco here) v H)
    (hnew : mov.lastStreamIndex ≠ some here) :
    ∃ mov', mov.endChunk here = some mov' ∧
      CachesBut mov' (.stco here) v (fun t => H t ++ mov.endWords t) ∧
      (∀ t, mov'.size t = mov.size t + (mov.endWords t).length) ∧ SameFrames mov mov' := by
  unfold MovContext.endChunk endWords
  cases hlast : mov.lastStreamIndex with
  | none =>
    refine ⟨mov, rfl, ?_, fun _ => rfl, ⟨rfl, rfl, rfl, rfl, rfl⟩⟩
    simpa only [List.append_nil] using h
  | some last =>
    have hne : last ≠ here := by
      rintro rfl
      exact hnew hlast
    have hcounter : (Table.stsc last).counter = .stsc here := by
      rw [Table.counter, StreamType.other_eq hne]
    have hpush := h.push (u := .stsc last) nofun (UInt32.ofNat mov.stscCnt)
    rw [hcounter, update_words] at hpush
    refine ⟨_, ?_, hpush, ?_, ?_⟩
    · show (mov.store (.stsc last) (UInt32.ofNat mov.stscCnt)).bind _ = _
      rw [(h.holds (.stsc last) nofun).store]
      rfl
    · intro t
      rw [size_settle]
      exact update_count mov.size (.stsc last) (UInt32.ofNat mov.stscCnt) t
    · have hstored : SameFrames mov ((mov.stored (.stsc last) (UInt32.ofNat mov.stscCnt)).counted
          (.stsc last)) := ⟨rfl, rfl, rfl, rfl, rfl⟩
      exact hstored.trans (sameFrames_settle ..)

/-- **A new chunk is told in the tables**, in two of them at most. -/
theorem Caches.newChunk (h : Caches mov H) (hnew : mov.lastStreamIndex ≠ some p.streamIndex) :
    ∃ mov', mov.newChunk p = some mov' ∧
      Caches mov' (fun t => H t ++ mov.chunkWords p.streamIndex t) ∧
      (∀ t, mov'.size t = mov.size t + (mov.chunkWords p.streamIndex t).length) ∧
      mov'.stscCnt = 0 ∧ SameFrames mov mov' := by
  generalize hoffset : UInt32.ofNat (mov.mdatSize + mdatStartPos) = offset
  have hput := h.store (.stco p.streamIndex) offset
  have hstore := (h.holds (.stco p.streamIndex)).store offset
  obtain ⟨mov₂, hend, hbut, hsize, hframes⟩ := hput.endChunk hnew
  have hzero : CachesBut { mov₂ with stscCnt := 0 } (.stco p.streamIndex) offset
      (fun t => H t ++ mov.endWords t) := hbut.congr rfl rfl rfl rfl
  have hsettle := hzero.settle
  rw [update_words] at hsettle
  refine ⟨MovContext.settle { mov₂ with stscCnt := 0 } (.stco p.streamIndex)
    (.stco p.streamIndex), ?_, ?_, ?_, stscCnt_settle .., ?_⟩
  · unfold MovContext.newChunk
    rw [if_neg hnew, hoffset, hstore]
    show (((mov.stored (.stco p.streamIndex) offset).counted (.stco p.streamIndex)).endChunk
      p.streamIndex).bind _ = _
    rw [hend]
    rfl
  · simp only [chunkWords, ← List.append_assoc, hoffset]
    exact hsettle
  · intro t
    have hcount := update_count mov.size (.stco p.streamIndex) offset t
    rw [size_settle, chunkWords, hoffset, List.length_append]
    show mov₂.size t = _
    rw [hsize t]
    show Function.update mov.size (.stco p.streamIndex) (mov.size (.stco p.streamIndex) + 1) t +
      (mov.endWords t).length = _
    omega
  · have hstored : SameFrames mov ((mov.stored (.stco p.streamIndex) offset).counted
        (.stco p.streamIndex)) := ⟨rfl, rfl, rfl, rfl, rfl⟩
    have hmarked : SameFrames mov₂ { mov₂ with stscCnt := 0 } := ⟨rfl, rfl, rfl, rfl, rfl⟩
    exact (hstored.trans hframes).trans (hmarked.trans (sameFrames_settle ..))

/-! ## The samples -/

/-- Between two stores there is nothing to settle. -/
theorem Holds.settle_eq_self {t trk : Table} {l : List UInt32} (h : mov.Holds t l) :
    mov.settle t trk = mov := by
  obtain ⟨hlo, hhi⟩ := h.kept.write_mem t.paged
  have hwrap : mov.wrapWrite t = mov := by
    have hend : ¬ (mov.cache t).endPtr < (mov.cache t).writePtr := by
      rw [h.end_eq]
      omega
    unfold wrapWrite advance
    simp only [Nat.add_zero, if_neg hend, Function.update_eq_self]
  have hroom : ¬ t.cacheSize ≤ (mov.cache t).cacheSize := by
    have hheld := h.kept.held_eq
    have hlt := t.paged.lt_room (n := l.length)
    have hpos := t.paged.cap_pos
    omega
  rw [settle, hwrap, spill]
  exact if_neg hroom

/-- What the samples of a packet put into the tables: the size, unless they are PCM. -/
def sampleWords (s : AVFormatContext) (p : AVPacket) (t : Table) : List UInt32 :=
  if (s.codec p.streamIndex).codecId = .pcm then []
  else oneWord (.stsz p.streamIndex) (UInt32.ofNat (packetSize s p)) t

/-- **The samples of a packet are told.** -/
theorem Caches.addSample (h : Caches mov H)
    (hpcm : (s.codec p.streamIndex).codecId = .pcm →
      (s.codec p.streamIndex).channels * ((s.codec p.streamIndex).bitsPerSample / 8) ≠ 0) :
    ∃ mov', mov.addSample s p = some mov' ∧
      Caches mov' (fun t => H t ++ sampleWords s p t) ∧
      mov'.size = Function.update mov.size (.stsz p.streamIndex)
        (mov.size (.stsz p.streamIndex) + sampleCount s p) ∧
      mov'.stscCnt = mov.stscCnt + sampleCount s p ∧
      mov'.lastStreamIndex = mov.lastStreamIndex ∧ SameFrames mov mov' := by
  unfold MovContext.addSample sampleWords sampleCount
  by_cases hcodec : (s.codec p.streamIndex).codecId = .pcm
  · generalize hn : packetSize s p / ((s.codec p.streamIndex).channels *
      ((s.codec p.streamIndex).bitsPerSample / 8)) = n
    have hcount : Caches (mov.countSamples (.stsz p.streamIndex) n) H := h.congr rfl rfl rfl rfl
    refine ⟨mov.countSamples (.stsz p.streamIndex) n, ?_, ?_, ?_, ?_, rfl,
      ⟨rfl, rfl, rfl, rfl, rfl⟩⟩
    · simp only [if_pos hcodec, pcmSamples, if_neg (hpcm hcodec), hn, Option.bind_eq_bind,
        Option.bind_some, (hcount.holds _).settle_eq_self]
    · simp only [if_pos hcodec, List.append_nil]
      exact hcount
    · simp only [if_pos hcodec, hn]
      rfl
    · simp only [if_pos hcodec, hn]
      rfl
  · have hput := h.store (.stsz p.streamIndex) (UInt32.ofNat (packetSize s p))
    have hmarked : CachesBut
        { ((mov.stored (.stsz p.streamIndex) (UInt32.ofNat (packetSize s p))).counted
          (.stsz p.streamIndex)) with stscCnt := mov.stscCnt + 1 }
        (.stsz p.streamIndex) (UInt32.ofNat (packetSize s p)) H := hput.congr rfl rfl rfl rfl
    have hsettle := hmarked.settle
    rw [update_words] at hsettle
    refine ⟨MovContext.settle
      { ((mov.stored (.stsz p.streamIndex) (UInt32.ofNat (packetSize s p))).counted
        (.stsz p.streamIndex)) with stscCnt := mov.stscCnt + 1 }
      (.stsz p.streamIndex) (.stsz p.streamIndex), ?_, ?_, ?_, ?_, ?_, ?_⟩
    · simp only [if_neg hcodec, (h.holds (.stsz p.streamIndex)).store, Option.bind_eq_bind,
        Option.bind_some]
      rfl
    · simp only [if_neg hcodec]
      exact hsettle
    · simp only [if_neg hcodec, size_settle]
      rfl
    · simp only [if_neg hcodec, stscCnt_settle]
    · rw [lastStreamIndex_settle]
      rfl
    · have hstored : SameFrames mov
          { ((mov.stored (.stsz p.streamIndex) (UInt32.ofNat (packetSize s p))).counted
            (.stsz p.streamIndex)) with stscCnt := mov.stscCnt + 1 } := ⟨rfl, rfl, rfl, rfl, rfl⟩
      exact hstored.trans (sameFrames_settle ..)

/-- **The duration of a frame is told.** -/
theorem Caches.addDuration (h : Caches mov H) :
    ∃ mov', mov.addDuration p = some mov' ∧
      Caches mov' (fun t => H t ++ oneWord .stts p.duration t) ∧
      mov'.size = Function.update mov.size .stts (mov.size .stts + 1) ∧
      mov'.stscCnt = mov.stscCnt ∧
      mov'.lastStreamIndex = mov.lastStreamIndex ∧ SameFrames mov mov' := by
  have hsettle := (h.store .stts p.duration).settle
  rw [update_words] at hsettle
  have hstored : SameFrames mov ((mov.stored .stts p.duration).counted .stts) :=
    ⟨rfl, rfl, rfl, rfl, rfl⟩
  refine ⟨_, ?_, hsettle, size_settle .., stscCnt_settle .., lastStreamIndex_settle ..,
    hstored.trans (sameFrames_settle ..)⟩
  unfold MovContext.addDuration
  rw [(h.holds .stts).store]
  rfl

end MovContext

/-! ## The tables after some packets -/

/-- **What has been stored in a table** after these packets. The last chunk is still open. -/
def Table.history (s : AVFormatContext) (pkts : List AVPacket) : Table → List UInt32
  | .stco st => (chunkOffsets s st pkts).map UInt32.ofNat
  | .stsz st =>
    if (s.codec st).codecId = .pcm then [] else (sampleSizes s st pkts).map UInt32.ofNat
  | .stsc st => (chunkCounts s st (chunkPackets pkts).dropLast).map UInt32.ofNat
  | .stts => durations pkts

/-- The entries that are counted: for the sizes, the samples. -/
def Table.entries (s : AVFormatContext) (pkts : List AVPacket) : Table → Nat
  | .stsz st => sampleCounts s (packetsOf st pkts)
  | t => (t.history s pkts).length

/-- **The caches after these packets.** -/
structure Recorded (s : AVFormatContext) (start : OutFile) (pkts : List AVPacket)
    (mov : MovContext) : Prop where
  caches : mov.Caches fun t => t.history s pkts
  size : ∀ t, mov.size t = t.entries s pkts
  last : mov.lastStreamIndex = pkts.getLast?.map AVPacket.streamIndex
  count : mov.stscCnt = openCount s pkts
  mdat : mov.mdatSize = (sampleData s pkts).length
  pb : mov.pb = start.write (sampleData s pkts)
  keys : words mov.cacheKeyframe 0 mov.keyFrameNum = (keyNumbers s pkts).map UInt32.ofNat
  jpegs : (s.codec .video).codecId = .mjpeg →
    mov.keyframeNum = (packetsOf .video pkts).length % 25

variable {s : AVFormatContext} {start : OutFile} {pkts : List AVPacket} {p : AVPacket}
  {mov mov' : MovContext}

/-- What a packet puts into the tables. -/
def packetWords (s : AVFormatContext) (mov : MovContext) (p : AVPacket) (t : Table) :
    List UInt32 :=
  (if mov.lastStreamIndex = some p.streamIndex then [] else mov.chunkWords p.streamIndex t) ++
    MovContext.sampleWords s p t ++
      if p.streamIndex = .video then MovContext.oneWord .stts p.duration t else []

theorem Recorded.begins_iff (h : Recorded s start pkts mov) :
    BeginsChunk pkts p ↔ mov.lastStreamIndex ≠ some p.streamIndex := by
  rw [h.last]
  unfold BeginsChunk
  cases pkts.getLast? with
  | none => simp
  | some x => simp

theorem Recorded.last_eq (h : Recorded s start pkts mov) (hbegin : ¬ BeginsChunk pkts p) :
    mov.lastStreamIndex = some p.streamIndex := by
  by_contra hne
  exact hbegin (h.begins_iff.mpr hne)

theorem endWords_stco (mov : MovContext) (st : StreamType) : mov.endWords (.stco st) = [] := by
  unfold MovContext.endWords MovContext.oneWord
  split <;> rfl

theorem Recorded.history_stco (h : Recorded s start pkts mov) (st : StreamType) :
    (Table.stco st).history s (pkts ++ [p]) =
      (Table.stco st).history s pkts ++ packetWords s mov p (.stco st) := by
  have hrest : packetWords s mov p (.stco st) =
      if mov.lastStreamIndex = some p.streamIndex then []
      else mov.chunkWords p.streamIndex (.stco st) := by
    simp [packetWords, MovContext.sampleWords, MovContext.oneWord]
  rw [hrest]
  by_cases hbegin : BeginsChunk pkts p
  · rw [if_neg (h.begins_iff.mp hbegin), Table.history, chunkOffsets_new hbegin, List.map_append]
    refine congrArg ((Table.stco st).history s pkts ++ ·) ?_
    rw [MovContext.chunkWords, endWords_stco, List.nil_append, h.mdat, Nat.add_comm,
      MovContext.oneWord]
    by_cases hst : p.streamIndex = st
    · rw [if_pos hst, if_pos (congrArg Table.stco hst.symm), List.map_singleton]
    · rw [if_neg hst, if_neg (fun he => hst (Table.stco.inj he).symm), List.map_nil]
  · rw [if_pos (h.last_eq hbegin), List.append_nil, Table.history, Table.history,
      chunkOffsets_same hbegin]

/-- **A chunk that is over is told when the next begins.** -/
theorem Recorded.history_stsc (h : Recorded s start pkts mov) (st : StreamType) :
    (Table.stsc st).history s (pkts ++ [p]) =
      (Table.stsc st).history s pkts ++ packetWords s mov p (.stsc st) := by
  have hrest : packetWords s mov p (.stsc st) =
      if mov.lastStreamIndex = some p.streamIndex then [] else mov.endWords (.stsc st) := by
    simp [packetWords, MovContext.sampleWords, MovContext.oneWord, MovContext.chunkWords]
  rw [hrest]
  by_cases hbegin : BeginsChunk pkts p
  · rw [if_neg (h.begins_iff.mp hbegin), Table.history, closed_new hbegin, Table.history,
      MovContext.endWords, h.last]
    cases hlast : pkts.getLast? with
    | none =>
      obtain rfl := List.getLast?_eq_none_iff.mp hlast
      rfl
    | some x =>
      rw [chunkCounts_last hlast, List.map_append, Option.map_some, h.count]
      refine congrArg (((chunkCounts s st (chunkPackets pkts).dropLast).map UInt32.ofNat) ++ ·) ?_
      show _ = MovContext.oneWord (.stsc x.streamIndex) (UInt32.ofNat (openCount s pkts)) (.stsc st)
      rw [MovContext.oneWord]
      by_cases hst : x.streamIndex = st
      · rw [if_pos hst, if_pos (congrArg Table.stsc hst.symm), List.map_singleton]
      · rw [if_neg hst, if_neg (fun he => hst (Table.stsc.inj he).symm), List.map_nil]
  · rw [if_pos (h.last_eq hbegin), List.append_nil, Table.history, Table.history,
      closed_same hbegin]

theorem history_stsz (mov : MovContext) (st : StreamType) :
    (Table.stsz st).history s (pkts ++ [p]) =
      (Table.stsz st).history s pkts ++ packetWords s mov p (.stsz st) := by
  have hchunk : mov.chunkWords p.streamIndex (.stsz st) = [] := by
    unfold MovContext.chunkWords MovContext.endWords MovContext.oneWord
    split <;> rfl
  have hrest : packetWords s mov p (.stsz st) = MovContext.sampleWords s p (.stsz st) := by
    simp [packetWords, hchunk, MovContext.oneWord]
  rw [hrest, MovContext.sampleWords, MovContext.oneWord, Table.history, Table.history,
    sampleSizes, packetsOf_snoc, List.map_append, List.map_append]
  by_cases hst : p.streamIndex = st
  · subst hst
    split <;> simp [sampleSizes]
  · rw [if_neg hst, if_neg (fun he => hst (Table.stsz.inj he).symm)]
    split <;> simp [sampleSizes]

theorem history_stts (mov : MovContext) :
    Table.stts.history s (pkts ++ [p]) =
      Table.stts.history s pkts ++ packetWords s mov p .stts := by
  have hchunk : mov.chunkWords p.streamIndex .stts = [] := by
    unfold MovContext.chunkWords MovContext.endWords MovContext.oneWord
    split <;> rfl
  have hrest : packetWords s mov p .stts =
      if p.streamIndex = .video then [p.duration] else [] := by
    simp [packetWords, hchunk, MovContext.sampleWords, MovContext.oneWord]
  rw [hrest, Table.history, Table.history, durations, durations, packetsOf_snoc, List.map_append]
  refine congrArg ((packetsOf .video pkts).map AVPacket.duration ++ ·) ?_
  split <;> rfl

/-- **A packet more**, a few words more. -/
theorem Recorded.history_snoc (h : Recorded s start pkts mov) (t : Table) :
    t.history s (pkts ++ [p]) = t.history s pkts ++ packetWords s mov p t := by
  cases t with
  | stco st => exact h.history_stco st
  | stsz st => exact history_stsz mov st
  | stsc st => exact h.history_stsc st
  | stts => exact history_stts mov

end Maixii.Mp4
