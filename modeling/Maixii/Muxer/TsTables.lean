import Mathlib.Data.List.Nodup
import Maixii.Muxer.TsDemux

/-!
# `Muxer/TsTables.lean`: the tables that go out from time to time

`mpegts_write_pat`, `mpegts_write_pmt` and `retransmit_si_info` against a demultiplexer. The tables
are read back as they were meant (`writePat_eq`, `writePmt_eq`), and a call adds either one of each
kind or none (`told_beforePes`), as its counters say (`pace_beforePes`).
-/

set_option autoImplicit false

namespace Maixii.Muxer

open Maixii.Lib

/-! ## The tables -/

/-- What the map of the program says of a stream. -/
def elementaryStream (st : AVStream) : ElementaryStream where
  type := Mpeg2tsMuxer.streamType st.codec
  pid := st.pid
  descriptors := if st.codec = .adpcm then [0x83, 0x02, 0x46, 0x3F] else []

/-- The map of the one program there is. -/
def programMap (streams : List AVStream) : ProgramMap := ⟨1, pcrPid, streams.map elementaryStream⟩

/-- An identifier behind three bits that are set. -/
theorem readPid_put16 {pid : Nat} (hpid : pid < 2 ^ 13) :
    (UInt8.ofNat ((0xe000 ||| pid) / 256)).toNat % 32 * 256 + (UInt8.ofNat (0xe000 ||| pid)).toNat =
      pid := by
  have hor : 0xe000 ||| pid = 0xe000 + pid := (Nat.two_pow_add_eq_or_of_lt hpid 7).symm
  rw [hor, UInt8.toNat_ofNat', UInt8.toNat_ofNat']
  omega

/-- A length behind four bits that are set. -/
theorem readLength_put16 {n : Nat} (hn : n < 2 ^ 12) :
    (UInt8.ofNat ((0xf000 ||| n) / 256)).toNat % 16 * 256 + (UInt8.ofNat (0xf000 ||| n)).toNat =
      n := by
  have hor : 0xf000 ||| n = 0xf000 + n := (Nat.two_pow_add_eq_or_of_lt hn 15).symm
  rw [hor, UInt8.toNat_ofNat', UInt8.toNat_ofNat']
  omega

/-- An entry of the map. -/
def mapEntry (es : ElementaryStream) : Bytes :=
  [es.type] ++ put16 (0xe000 ||| es.pid) ++ put16 (0xf000 ||| es.descriptors.length) ++
    es.descriptors

theorem readStreams_cons {es : ElementaryStream} (hpid : es.pid < 2 ^ 13)
    (hlen : es.descriptors.length < 2 ^ 12) (n : Nat) (rest : Bytes) :
    readStreams (n + 1) (mapEntry es ++ rest) =
      (readStreams n rest).map fun streams => es :: streams := by
  have hentry : mapEntry es ++ rest =
      es.type :: UInt8.ofNat ((0xe000 ||| es.pid) / 256) :: UInt8.ofNat (0xe000 ||| es.pid) ::
        UInt8.ofNat ((0xf000 ||| es.descriptors.length) / 256) ::
          UInt8.ofNat (0xf000 ||| es.descriptors.length) :: (es.descriptors ++ rest) := by
    simp [mapEntry, put16]
  rw [hentry, readStreams, readPid_put16 hpid, readLength_put16 hlen, List.drop_left,
    List.take_left, if_pos (by rw [List.length_append]; exact Nat.le_add_right _ _)]

/-- **The streams are read back** from the map. -/
theorem readStreams_map {streams : List ElementaryStream} (hpids : ∀ es ∈ streams, es.pid < 2 ^ 13)
    (hlens : ∀ es ∈ streams, es.descriptors.length < 2 ^ 12) {n : Nat} (hn : streams.length ≤ n) :
    readStreams n (streams.flatMap mapEntry) = some streams := by
  induction streams generalizing n with
  | nil => cases n <;> rfl
  | cons es streams ih =>
    obtain ⟨n, rfl⟩ := Nat.exists_eq_succ_of_ne_zero (Nat.lt_of_lt_of_le (Nat.succ_pos _) hn).ne'
    have hrest := ih (fun es' h => hpids es' (List.mem_cons_of_mem es h))
      (fun es' h => hlens es' (List.mem_cons_of_mem es h)) (Nat.le_of_succ_le_succ hn)
    rw [List.flatMap_cons, readStreams_cons (hpids es List.mem_cons_self)
      (hlens es List.mem_cons_self), hrest, Option.map_some]

theorem descriptors_length (st : AVStream) : (elementaryStream st).descriptors.length ≤ 4 := by
  unfold elementaryStream
  dsimp only
  split <;> simp

/-- What is written of the streams are their entries. -/
theorem pmtData_eq (streams : List AVStream) :
    Mpeg2tsMuxer.pmtData streams = put16 (0xe000 ||| pcrPid) ++ put16 (0xf000 ||| 0) ++
      (streams.map elementaryStream).flatMap mapEntry := by
  have hentry : ∀ st : AVStream, [Mpeg2tsMuxer.streamType st.codec] ++ put16 (0xe000 ||| st.pid) ++
      (if st.codec = .adpcm then put16 (0xf000 ||| 4) ++ [0x83, 0x02, 0x46, 0x3F]
        else put16 0xf000) = mapEntry (elementaryStream st) := by
    intro st
    unfold mapEntry elementaryStream
    by_cases hcodec : st.codec = .adpcm
    · rw [if_pos hcodec, if_pos hcodec, ← List.append_assoc]
      rfl
    · rw [if_neg hcodec, if_neg hcodec, List.append_nil, List.length_nil, Nat.or_zero]
  unfold Mpeg2tsMuxer.pmtData
  rw [List.flatMap_map]
  congr 1
  exact List.flatMap_congr fun st _ => hentry st

/-- There is something of every entry. -/
theorem length_mapEntries (streams : List AVStream) :
    streams.length ≤ ((streams.map elementaryStream).flatMap mapEntry).length := by
  induction streams with
  | nil => exact Nat.le_refl 0
  | cons st streams ih =>
    have hlen : 0 < (mapEntry (elementaryStream st)).length := by simp [mapEntry]
    rw [List.map_cons, List.flatMap_cons, List.length_append, List.length_cons]
    omega

theorem readMap_pmtData {streams : List AVStream} (hpids : ∀ st ∈ streams, st.pid < 2 ^ 13) :
    readMap 1 (Mpeg2tsMuxer.pmtData streams) = some (programMap streams) := by
  have hpids' : ∀ es ∈ streams.map elementaryStream, es.pid < 2 ^ 13 := by
    intro es hes
    obtain ⟨st, hst, rfl⟩ := List.mem_map.mp hes
    exact hpids st hst
  have hlens : ∀ es ∈ streams.map elementaryStream, es.descriptors.length < 2 ^ 12 := by
    intro es hes
    obtain ⟨st, -, rfl⟩ := List.mem_map.mp hes
    have := descriptors_length st
    omega
  have hcount : (streams.map elementaryStream).length ≤
      ((streams.map elementaryStream).flatMap mapEntry).length := by
    rw [List.length_map]
    exact length_mapEntries streams
  have hstreams := readStreams_map hpids' hlens hcount
  have hpcr := readPid_put16 (by decide : pcrPid < 2 ^ 13)
  have hinfo := readLength_put16 (n := 0) (by decide)
  rw [pmtData_eq]
  generalize (streams.map elementaryStream).flatMap mapEntry = rest at hstreams ⊢
  show readMap 1 (UInt8.ofNat _ :: UInt8.ofNat _ :: UInt8.ofNat _ :: UInt8.ofNat _ :: rest) = _
  rw [readMap, hpcr, hinfo, List.drop_zero, hstreams, Option.map_some, programMap]

/-- A stream as it was declared. -/
def AVStream.fresh (st : AVStream) : AVStream := { st with cc := 15, firstFrame := true }

namespace Mpeg2tsMuxer

variable {para : AvPara} {s t : Mpeg2tsMuxer} {st : AVStream}

/-! ## The streams -/

def videoPid : Nat := 0x1011

def audioPid : Nat := 0x1100

def textPid : Nat := 0x300

/-- The stream a packet goes to. -/
def target (para : AvPara) (pkt : AVPacket) : Option AVStream :=
  (makeStreams para)[(opened .tsFile para).realStrmIdx pkt.streamIndex]?

def pidOf : CodecID → Nat
  | .h264 | .h265 => videoPid
  | .aac | .adpcm => audioPid
  | .ggad => textPid

/-- The streams that are declared. -/
theorem eq_of_mem (h : st ∈ makeStreams para) :
    st = ⟨st.codec, pidOf st.codec, 15, st.vosData, true, st.channels, st.sampleRate⟩ := by
  obtain ⟨video, audio, geo⟩ := para
  unfold makeStreams at h
  simp only [List.mem_append, Option.mem_toList, Option.map_eq_some_iff] at h
  rcases h with (⟨v, -, rfl⟩ | ⟨a, -, rfl⟩) | h
  · dsimp only
    split <;> rfl
  · dsimp only
    split <;> rfl
  · split at h
    · obtain rfl := List.mem_singleton.mp h
      rfl
    · simp at h

theorem pid_of_mem (h : st ∈ makeStreams para) : st.pid = pidOf st.codec :=
  congrArg AVStream.pid (eq_of_mem h)

/-- Every stream has an identifier of its own. -/
theorem nodup_pids (para : AvPara) : ((makeStreams para).map AVStream.pid).Nodup := by
  obtain ⟨video, audio, geo⟩ := para
  cases video <;> cases audio <;> cases geo <;> simp [makeStreams]

theorem text_of_target {pkt : AVPacket} (h : target para pkt = some st)
    (hidx : pkt.streamIndex = codecTypeText) : st.codec = .ggad := by
  obtain ⟨video, audio, geo⟩ := para
  unfold target at h
  rw [hidx] at h
  cases video <;> cases audio <;> cases geo <;>
    simp [makeStreams, realStrmIdx, opened, codecTypeText, codecTypeAudio] at h <;> rw [← h]

theorem pidOf_lt (codec : CodecID) : pidOf codec < 2 ^ 13 := by
  cases codec <;> decide

theorem pidOf_ne (codec : CodecID) : pidOf codec ≠ patPid ∧ pidOf codec ≠ pmtPid := by
  cases codec <;> decide

/-- Streams on one identifier are one stream. -/
theorem eq_of_pid {st' : AVStream} (h : st ∈ makeStreams para) (h' : st' ∈ makeStreams para)
    (hpid : st.pid = st'.pid) : st = st' :=
  List.inj_on_of_nodup_map (nodup_pids para) h h' hpid

/-! ## The tables of a call -/

/-- Packets that hold tables, `k` of each kind, and clocks. -/
structure Tables (streams : List AVStream) (k : Nat) (u : List TsPacket) : Prop where
  pat : ∀ ps rs, demux patPid readPat ps = some rs →
    demux patPid readPat (ps ++ u) = some (rs ++ List.replicate k [(1, pmtPid)])
  pmt : ∀ ps rs, demux pmtPid readPmt ps = some rs →
    demux pmtPid readPmt (ps ++ u) = some (rs ++ List.replicate k (programMap streams))
  others : ∀ q, q ≠ patPid → q ≠ pmtPid → onPid q u = []

theorem tables_of_onPid {streams : List AVStream} {u : List TsPacket} (h : ∀ q, onPid q u = []) :
    Tables streams 0 u where
  pat ps rs hps := by
    rw [demux_append_nil (h _), List.replicate_zero, List.append_nil]
    exact hps
  pmt ps rs hps := by
    rw [demux_append_nil (h _), List.replicate_zero, List.append_nil]
    exact hps
  others q _ _ := h q

theorem Tables.append {streams : List AVStream} {j k : Nat} {u v : List TsPacket}
    (h : Tables streams j u) (h' : Tables streams k v) : Tables streams (j + k) (u ++ v) where
  pat ps rs hps := by
    rw [← List.append_assoc, h'.pat _ _ (h.pat _ _ hps), List.append_assoc, ← List.replicate_add]
  pmt ps rs hps := by
    rw [← List.append_assoc, h'.pmt _ _ (h.pmt _ _ hps), List.append_assoc, ← List.replicate_add]
  others q hpat hpmt := by
    rw [onPid_append, h.others q hpat hpmt, h'.others q hpat hpmt, List.append_nil]

/-- An association table and a map. -/
theorem tables_of_units {streams : List AVStream} {u v : List TsPacket}
    (hu : OneUnit patPid readPat [(1, pmtPid)] u)
    (hv : OneUnit pmtPid readPmt (programMap streams) v) : Tables streams 1 (u ++ v) where
  pat ps rs hps := by
    rw [← List.append_assoc, demux_other hv (by decide)]
    exact demux_own hu hps
  pmt ps rs hps := by
    rw [← List.append_assoc]
    refine demux_own hv ?_
    rw [demux_other hu (by decide)]
    exact hps
  others q hpat hpmt := by
    rw [onPid_append, hu.others q hpat, hv.others q hpmt, List.append_nil]

/-- What the members say that only a payload changes. -/
def view (s : Mpeg2tsMuxer) :=
  (s.mode, s.vStrmFlag, s.aStrmFlag, s.streams, s.firstVideoPts, s.baseVideoPts, s.audioFrameNum)

/-- The counters of the packets that are made in between fit into them. -/
def Small (s : Mpeg2tsMuxer) : Prop := s.patCc < 16 ∧ s.pmtCc < 16 ∧ s.pcrCounter < 16

/-- Between the states tables were made. -/
structure Told (k : Nat) (s t : Mpeg2tsMuxer) : Prop where
  made : ∃ u, t.generated = s.generated ++ u ∧ Tables s.streams k u
  view : t.view = s.view
  small : Small t

theorem Told.streams {k : Nat} (h : Told k s t) : t.streams = s.streams := by
  have hview := h.view
  unfold Mpeg2tsMuxer.view at hview
  simp only [Prod.mk.injEq] at hview
  exact hview.2.2.2.1

theorem Told.trans {j k : Nat} {u : Mpeg2tsMuxer} (h : Told j s t) (h' : Told k t u) :
    Told (j + k) s u := by
  obtain ⟨v, hv, htables⟩ := h.made
  obtain ⟨w, hw, htables'⟩ := h'.made
  rw [h.streams] at htables'
  refine ⟨⟨v ++ w, ?_, htables.append htables'⟩, h'.view.trans h.view, h'.small⟩
  rw [hw, hv, List.append_assoc]

theorem told_of_eq (hgen : t.generated = s.generated) (hview : t.view = s.view) (hsmall : Small t) :
    Told 0 s t :=
  ⟨⟨[], by rw [hgen, List.append_nil], tables_of_onPid fun _ => rfl⟩, hview, hsmall⟩

/-- The association table is one unit. -/
theorem writePat_eq (hcc : s.patCc < 16) : ∃ u cc, OneUnit patPid readPat [(1, pmtPid)] u ∧
    cc < 16 ∧ s.writePat = { s.generate u with patCc := cc } := by
  obtain ⟨buf, hbuf⟩ : ∃ buf,
      sectionBytes 0x00 0x0000 (put16 1 ++ put16 (0xe000 ||| pmtPid)) = some buf :=
    ⟨_, sectionBytes_eq _ _ (by decide)⟩
  have hread : Section.programs ⟨0x00, 0x0000, put16 1 ++ put16 (0xe000 ||| pmtPid)⟩ =
      some [(1, pmtPid)] := by decide
  have hunit := oneUnit_sectionPackets (by decide : patPid < 2 ^ 13) hcc 0x00 (by decide)
    (by decide) hbuf Section.programs hread
  have hleft := (counted_sectionPackets (by decide : patPid < 2 ^ 13) buf.length true s.patCc hcc
    buf).2
  refine ⟨_, (sectionPackets patPid buf.length true s.patCc buf).2, hunit, ?_, ?_⟩
  · rw [hleft]
    exact Nat.mod_lt _ (by decide)
  · unfold writePat
    rw [hbuf]

/-- And so is the map. -/
theorem writePmt_eq (hcc : s.pmtCc < 16) (hpids : ∀ st ∈ s.streams, st.pid < 2 ^ 13)
    (hcount : s.streams.length ≤ 3) :
    ∃ u cc, OneUnit pmtPid readPmt (programMap s.streams) u ∧
      cc < 16 ∧ s.writePmt = { s.generate u with pmtCc := cc } := by
  have hlen : (pmtData s.streams).length ≤ 1012 :=
    Nat.le_trans (length_pmtData s.streams) (by omega)
  obtain ⟨buf, hbuf⟩ : ∃ buf, sectionBytes 0x02 0x0001 (pmtData s.streams) = some buf :=
    ⟨_, sectionBytes_eq _ _ hlen⟩
  have hread : Section.programMap ⟨0x02, 0x0001, pmtData s.streams⟩ =
      some (programMap s.streams) := (if_pos rfl).trans (readMap_pmtData hpids)
  have hunit := oneUnit_sectionPackets (by decide : pmtPid < 2 ^ 13) hcc 0x02 (by decide) hlen hbuf
    Section.programMap hread
  have hleft := (counted_sectionPackets (by decide : pmtPid < 2 ^ 13) buf.length true s.pmtCc hcc
    buf).2
  refine ⟨_, (sectionPackets pmtPid buf.length true s.pmtCc buf).2, hunit, ?_, ?_⟩
  · rw [hleft]
    exact Nat.mod_lt _ (by decide)
  · unfold writePmt
    rw [hbuf]

/-- **Both tables** at once. -/
theorem told_tables (hsmall : Small s) (hpids : ∀ st ∈ s.streams, st.pid < 2 ^ 13)
    (hcount : s.streams.length ≤ 3) : Told 1 s s.writePat.writePmt := by
  obtain ⟨hpat, hpmt, hpcr⟩ := hsmall
  obtain ⟨u, cc, hu, hcc, hwrite⟩ := writePat_eq hpat
  rw [hwrite]
  obtain ⟨v, cc', hv, hcc', hwrite'⟩ :=
    writePmt_eq (s := { s.generate u with patCc := cc }) hpmt hpids hcount
  rw [hwrite']
  exact ⟨⟨u ++ v, List.append_assoc .., tables_of_units hu hv⟩, rfl, hcc, hcc', hpcr⟩

theorem told_writePcrTable (hsmall : Small s) (pts : Int) : Told 0 s (s.writePcrTable pts) where
  made := ⟨_, rfl, tables_of_onPid fun q => onPid_pcrPacket q _ hsmall.2.2 pts⟩
  view := rfl
  small := ⟨hsmall.1, hsmall.2.1, Nat.mod_lt _ (by decide)⟩

/-- When the tables go out. -/
def tablesNow (s : Mpeg2tsMuxer) : Prop :=
  s.mode = .callbackBuffer ∧ (s.patPmtCounter = 4 ∨ s.patPmtFlag = true) ∨
    s.mode = .tsFile ∧ s.patPacketCount = patPacketPeriod

instance (s : Mpeg2tsMuxer) : Decidable s.tablesNow :=
  inferInstanceAs (Decidable (s.mode = .callbackBuffer ∧ _ ∨ s.mode = .tsFile ∧ _))

theorem tablesNow_callback (hmode : s.mode = .callbackBuffer) :
    s.tablesNow ↔ s.patPmtCounter = 4 ∨ s.patPmtFlag = true := by
  simp [tablesNow, hmode]

theorem tablesNow_file (hmode : s.mode = .tsFile) :
    s.tablesNow ↔ s.patPacketCount = patPacketPeriod := by
  simp [tablesNow, hmode]

/-- The clock goes out with every frame of video to a callback. -/
def clocked (s : Mpeg2tsMuxer) (pts : Int) (idx : Nat) : Mpeg2tsMuxer :=
  if idx = codecTypeVideo then s.writePcrTable pts else s

theorem retransmitSiInfo_callback (hmode : s.mode = .callbackBuffer) (pts : Int) (idx : Nat) :
    s.retransmitSiInfo pts idx =
      clocked (if s.tablesNow then
        writePmt (writePat { s with patPmtCounter := 0, patPmtFlag := false }) else s) pts idx := by
  simp only [tablesNow_callback hmode]
  unfold retransmitSiInfo
  rw [hmode]
  rfl

theorem retransmitSiInfo_file (hmode : s.mode = .tsFile) (pts : Int) (idx : Nat) :
    s.retransmitSiInfo pts idx =
      if s.tablesNow then (writePmt (writePat { s with patPacketCount := 0 })).writePcrTable pts
      else s := by
  simp only [tablesNow_file hmode]
  unfold retransmitSiInfo
  rw [hmode]

theorem told_clocked (hsmall : Small s) (pts : Int) (idx : Nat) : Told 0 s (s.clocked pts idx) := by
  unfold clocked
  split
  · exact told_writePcrTable hsmall pts
  · exact told_of_eq rfl rfl hsmall

/-- **What goes before a PES** is the tables, when it is time. -/
theorem told_retransmitSiInfo (hsmall : Small s) (hpids : ∀ st ∈ s.streams, st.pid < 2 ^ 13)
    (hcount : s.streams.length ≤ 3) (pts : Int) (idx : Nat) :
    Told (if s.tablesNow then 1 else 0) s (s.retransmitSiInfo pts idx) := by
  have hself : Told 0 s s := told_of_eq rfl rfl hsmall
  cases hmode : s.mode with
  | callbackBuffer =>
    rw [retransmitSiInfo_callback hmode]
    split
    · have hreset := told_of_eq (s := s) (t := { s with patPmtCounter := 0, patPmtFlag := false })
        rfl rfl hsmall
      have htables := hreset.trans (told_tables hsmall hpids hcount)
      exact htables.trans (told_clocked htables.small pts idx)
    · exact told_clocked hsmall pts idx
  | tsFile =>
    rw [retransmitSiInfo_file hmode]
    split
    · have hreset := told_of_eq (s := s) (t := { s with patPacketCount := 0 }) rfl rfl hsmall
      have htables := hreset.trans (told_tables hsmall hpids hcount)
      exact htables.trans (told_writePcrTable htables.small pts)
    · exact hself

theorem told_beforePes (hsmall : Small s) (hpids : ∀ st ∈ s.streams, st.pid < 2 ^ 13)
    (hcount : s.streams.length ≤ 3) (pts : Int) {idx : Nat} (hidx : idx ≠ codecTypeText) :
    Told (if s.tablesNow then 1 else 0) s (s.beforePes pts idx) := by
  have htold := told_retransmitSiInfo hsmall hpids hcount pts idx
  have hcounted : Told 0 (s.retransmitSiInfo pts idx) (s.beforePes pts idx) := by
    unfold beforePes
    rw [if_pos hidx]
    exact told_of_eq rfl rfl htold.small
  exact htold.trans hcounted

/-! ## The pace of the tables -/

/-- The members that decide about it. -/
def pace (s : Mpeg2tsMuxer) : Nat × Nat × Bool :=
  (s.patPacketCount, s.patPmtCounter, s.patPmtFlag)

theorem pace_writePat (s : Mpeg2tsMuxer) : s.writePat.pace = s.pace := by
  unfold writePat
  split <;> rfl

theorem pace_writePmt (s : Mpeg2tsMuxer) : s.writePmt.pace = s.pace := by
  unfold writePmt
  split <;> rfl

theorem pace_clocked (s : Mpeg2tsMuxer) (pts : Int) (idx : Nat) :
    (s.clocked pts idx).pace = s.pace := by
  unfold clocked
  split <;> rfl

/-- A table starts the count again. -/
theorem pace_beforePes (s : Mpeg2tsMuxer) (pts : Int) {idx : Nat} (hidx : idx ≠ codecTypeText) :
    (s.mode = .callbackBuffer → (s.beforePes pts idx).pace =
      (s.patPacketCount + 1, if s.tablesNow then (0, false) else s.pace.2)) ∧
    (s.mode = .tsFile → (s.beforePes pts idx).pace =
      ((if s.tablesNow then 0 else s.patPacketCount) + 1, s.pace.2)) := by
  have hcounted : (s.beforePes pts idx).pace =
      ((s.retransmitSiInfo pts idx).pace.1 + 1, (s.retransmitSiInfo pts idx).pace.2) := by
    unfold beforePes
    rw [if_pos hidx]
    rfl
  constructor
  · intro hmode
    rw [hcounted, retransmitSiInfo_callback hmode, pace_clocked]
    split
    · rw [pace_writePmt, pace_writePat]
      rfl
    · rfl
  · intro hmode
    rw [hcounted, retransmitSiInfo_file hmode]
    split
    · have hpcr : ∀ t : Mpeg2tsMuxer, (t.writePcrTable pts).pace = t.pace := fun _ => rfl
      rw [hpcr, pace_writePmt, pace_writePat]
      rfl
    · rfl

end Mpeg2tsMuxer

end Maixii.Muxer
