import Maixii.Lib.Movie
import Maixii.Mp4.MovFile

/-!
# `Mp4/MovPlayed.lean`: what was recorded can be played

A player that follows the tables of the file finds every packet again, in order and byte by byte:
`readMovie` of `Lib/Movie.lean` on the file of a recording gives the tracks that `trackOf` tells in
terms of the packets. The chunks of a stream are blocks of samples in `mdat` (`blocks`), and the
tables are these blocks.
-/

set_option autoImplicit false

namespace Maixii.Mp4

open Maixii.Lib

/-! ## What is to be played -/

/-- So many frames of PCM. -/
def cutFrames (k : Nat) : Nat → Bytes → List Bytes
  | 0, _ => []
  | n + 1, bs => bs.take k :: cutFrames k n (bs.drop k)

/-- The samples of a packet. -/
def packetSamples (s : AVFormatContext) (p : AVPacket) : List Bytes :=
  if (s.codec p.streamIndex).codecId = .pcm then
    cutFrames (pcmFrame s p.streamIndex) (sampleCount s p) (written s p)
  else [written s p]

/-- What plays a stream. -/
def handlerOf : StreamType → FourCC
  | .video => fourcc "vide"
  | .audio => fourcc "soun"

/-- **The track of a stream.** -/
def trackOf (s : AVFormatContext) (pkts : List AVPacket) (st : StreamType) : Track where
  handler := handlerOf st
  durations := sttsEntries s st pkts
  keys := (trackTables s st pkts).stss
  samples := (packetsOf st pkts).flatMap (packetSamples s)

/-- **A recording that can be played**: PCM comes in whole frames, and the file is below 4 GB. -/
structure Playable (s : AVFormatContext) (pkts : List AVPacket) (addr : Nat) (avcc : Bytes) : Prop
    extends Recordable s pkts addr avcc where
  frames : ∀ p ∈ pkts, (s.codec p.streamIndex).codecId = .pcm →
    pcmFrame s p.streamIndex ∣ packetSize s p
  frameSize_lt : (s.codec .audio).frameSize < 2 ^ 32
  file_lt : (Atom.allBytes (fileAtoms s pkts avcc)).length < 2 ^ 32

/-! ## Samples -/

theorem cutFrames_spec {k : Nat} : ∀ {n : Nat} {bs : Bytes}, bs.length = k * n →
    (cutFrames k n bs).flatten = bs ∧ (cutFrames k n bs).map List.length = List.replicate n k := by
  intro n
  induction n with
  | zero =>
    intro bs h
    exact ⟨(List.eq_nil_of_length_eq_zero h).symm, rfl⟩
  | succ n ih =>
    intro bs h
    rw [Nat.mul_succ] at h
    have hdrop : (bs.drop k).length = k * n := by
      rw [List.length_drop]
      omega
    obtain ⟨hflat, hlen⟩ := ih hdrop
    constructor
    · rw [cutFrames, List.flatten_cons, hflat, List.take_append_drop]
    · rw [cutFrames, List.map_cons, hlen, List.length_take, Nat.min_eq_left (by omega)]
      rfl

section

variable {s : AVFormatContext} {p : AVPacket} {st : StreamType} {pkts : List AVPacket}
  {addr : Nat} {avcc : Bytes}

theorem pcm_length (hsound : Sound s p) (hpcm : (s.codec p.streamIndex).codecId = .pcm)
    (hdvd : pcmFrame s p.streamIndex ∣ packetSize s p) :
    (written s p).length = pcmFrame s p.streamIndex * sampleCount s p := by
  rw [length_written hsound.byte, sampleCount, if_pos hpcm]
  exact (Nat.mul_div_cancel' hdvd).symm

/-- **The samples of a packet are its data.** -/
theorem Playable.flatten_samples (h : Playable s pkts addr avcc) (hp : p ∈ pkts) :
    (packetSamples s p).flatten = written s p := by
  unfold packetSamples
  by_cases hpcm : (s.codec p.streamIndex).codecId = .pcm
  · rw [if_pos hpcm]
    exact (cutFrames_spec (pcm_length (h.sound p hp) hpcm (h.frames p hp hpcm))).1
  · rw [if_neg hpcm]
    exact List.append_nil _

theorem Playable.sizes_samples (h : Playable s pkts addr avcc) (hp : p ∈ pkts) :
    (packetSamples s p).map List.length =
      if (s.codec p.streamIndex).codecId = .pcm then
        List.replicate (sampleCount s p) (pcmFrame s p.streamIndex)
      else [packetSize s p] := by
  unfold packetSamples
  by_cases hpcm : (s.codec p.streamIndex).codecId = .pcm
  · rw [if_pos hpcm, if_pos hpcm]
    exact (cutFrames_spec (pcm_length (h.sound p hp) hpcm (h.frames p hp hpcm))).2
  · rw [if_neg hpcm, if_neg hpcm, List.map_singleton, length_written (h.sound p hp).byte]

theorem Playable.length_samples (h : Playable s pkts addr avcc) (hp : p ∈ pkts) :
    (packetSamples s p).length = sampleCount s p := by
  have hlen := congrArg List.length (h.sizes_samples hp)
  rw [List.length_map] at hlen
  rw [hlen]
  by_cases hpcm : (s.codec p.streamIndex).codecId = .pcm
  · rw [if_pos hpcm, List.length_replicate]
  · rw [if_neg hpcm, sampleCount, if_neg hpcm]
    rfl

/-- Some packets of the recording. -/
theorem Playable.flatten_all (h : Playable s pkts addr avcc) {ps : List AVPacket}
    (hps : ∀ p ∈ ps, p ∈ pkts) : (ps.flatMap (packetSamples s)).flatten = sampleData s ps := by
  induction ps with
  | nil => rfl
  | cons p ps ih =>
    rw [List.flatMap_cons, List.flatten_append, h.flatten_samples (hps p List.mem_cons_self),
      ih fun q hq => hps q (List.mem_cons_of_mem p hq)]
    rfl

theorem Playable.length_all (h : Playable s pkts addr avcc) {ps : List AVPacket}
    (hps : ∀ p ∈ ps, p ∈ pkts) : (ps.flatMap (packetSamples s)).length = sampleCounts s ps := by
  induction ps with
  | nil => rfl
  | cons p ps ih =>
    rw [List.flatMap_cons, List.length_append, h.length_samples (hps p List.mem_cons_self),
      ih fun q hq => hps q (List.mem_cons_of_mem p hq)]
    rfl

theorem stream_of_mem (hp : p ∈ packetsOf st pkts) : p.streamIndex = st ∧ p ∈ pkts := by
  obtain ⟨hmem, hst⟩ := List.mem_filter.mp hp
  exact ⟨by simpa using hst, hmem⟩

/-- **The sizes in `stsz`** are those of the samples. -/
theorem Playable.sizes_all (h : Playable s pkts addr avcc) (st : StreamType) :
    ((packetsOf st pkts).flatMap (packetSamples s)).map List.length =
      if (s.codec st).codecId = .pcm then
        List.replicate (sampleCounts s (packetsOf st pkts)) (pcmFrame s st)
      else sampleSizes s st pkts := by
  have hall : ∀ ps : List AVPacket, (∀ p ∈ ps, p.streamIndex = st ∧ p ∈ pkts) →
      (ps.flatMap (packetSamples s)).map List.length =
        if (s.codec st).codecId = .pcm then
          List.replicate (sampleCounts s ps) (pcmFrame s st)
        else ps.map (packetSize s) := by
    intro ps hps
    induction ps with
    | nil => exact (ite_self _).symm
    | cons p ps ih =>
      obtain ⟨hst, hmem⟩ := hps p List.mem_cons_self
      rw [List.flatMap_cons, List.map_append, h.sizes_samples hmem, hst,
        ih fun q hq => hps q (List.mem_cons_of_mem p hq)]
      by_cases hpcm : (s.codec st).codecId = .pcm
      · rw [if_pos hpcm, if_pos hpcm, if_pos hpcm, List.replicate_append_replicate]
        rfl
      · rw [if_neg hpcm, if_neg hpcm, if_neg hpcm]
        rfl
  exact hall _ fun p hp => stream_of_mem hp

/-! ## Chunks are blocks of samples -/

/-- The chunks of a stream with their places. -/
def placedOf (s : AVFormatContext) (st : StreamType) (pkts : List AVPacket) :
    List (Nat × List AVPacket) :=
  (placed s mdatStartPos (chunkPackets pkts)).filter fun c => ofStream st c.2

/-- The same as blocks of samples. -/
def blocks (s : AVFormatContext) (st : StreamType) (pkts : List AVPacket) :
    List (Nat × List Bytes) :=
  (placedOf s st pkts).map fun c => (c.1, c.2.flatMap (packetSamples s))

theorem map_snd_placed (pos : Nat) (chunks : List (List AVPacket)) :
    (placed s pos chunks).map Prod.snd = chunks := by
  induction chunks generalizing pos with
  | nil => rfl
  | cons chunk chunks ih => rw [placed, List.map_cons, ih]

/-- The chunks of the stream. -/
theorem map_snd_placedOf (s : AVFormatContext) (st : StreamType) (pkts : List AVPacket) :
    (placedOf s st pkts).map Prod.snd = (chunkPackets pkts).filter (ofStream st) := by
  rw [placedOf, ← map_snd_placed (s := s) mdatStartPos (chunkPackets pkts), List.filter_map,
    map_snd_placed]
  rfl

/-- **The packets of a stream are those of its chunks.** -/
theorem flatten_chunks (st : StreamType) (pkts : List AVPacket) :
    ((chunkPackets pkts).filter (ofStream st)).flatten = packetsOf st pkts := by
  have hflat : (chunkPackets pkts).flatten = pkts := flatten_runs _ _
  have hone : ∀ chunk ∈ chunkPackets pkts,
      (chunk.filter fun p => decide (p.streamIndex = st)) =
        if ofStream st chunk then chunk else [] := by
    intro chunk hchunk
    have hne := ne_nil_of_mem_runs hchunk
    cases hc : chunk with
    | nil => exact absurd hc hne
    | cons q qs =>
      have hsame : ∀ p ∈ q :: qs, p.streamIndex = q.streamIndex := by
        intro p hp
        exact eq_of_mem_run hchunk (hc ▸ hp) (hc ▸ List.mem_cons_self)
      have hof : ofStream st (q :: qs) = (q.streamIndex == st) := rfl
      rw [hof]
      by_cases hst : q.streamIndex = st
      · rw [if_pos (beq_iff_eq.mpr hst), List.filter_eq_self]
        intro p hp
        exact decide_eq_true ((hsame p hp).trans hst)
      · rw [if_neg (fun he => hst (beq_iff_eq.mp he)), List.filter_eq_nil_iff]
        intro p hp he
        exact hst ((hsame p hp).symm.trans (of_decide_eq_true he))
  have hall : ∀ chunks : List (List AVPacket), (∀ c ∈ chunks, c ∈ chunkPackets pkts) →
      (chunks.filter (ofStream st)).flatten =
        chunks.flatten.filter fun p => decide (p.streamIndex = st) := by
    intro chunks hmem
    induction chunks with
    | nil => rfl
    | cons c chunks ih =>
      rw [List.flatten_cons, List.filter_append, hone c (hmem c List.mem_cons_self),
        ← ih fun d hd => hmem d (List.mem_cons_of_mem c hd), List.filter_cons]
      by_cases hof : ofStream st c = true
      · rw [if_pos hof, if_pos hof, List.flatten_cons]
      · rw [if_neg hof, if_neg hof, List.nil_append]
  rw [hall _ fun _ hc => hc, hflat, packetsOf]

theorem flatMap_blocks (s : AVFormatContext) (st : StreamType) (pkts : List AVPacket) :
    (blocks s st pkts).flatMap Prod.snd = (packetsOf st pkts).flatMap (packetSamples s) := by
  have hmap : (blocks s st pkts).flatMap Prod.snd =
      (((placedOf s st pkts).map Prod.snd).flatten).flatMap (packetSamples s) := by
    rw [blocks]
    induction placedOf s st pkts with
    | nil => rfl
    | cons c cs ih =>
      rw [List.map_cons, List.flatMap_cons, ih, List.map_cons, List.flatten_cons,
        List.flatMap_append]
  rw [hmap, map_snd_placedOf, flatten_chunks]

/-- A packet of a chunk is one of the recording. -/
theorem mem_of_placedOf {c : Nat × List AVPacket} (hc : c ∈ placedOf s st pkts) :
    ∀ p ∈ c.2, p ∈ pkts := by
  intro p hp
  have hmem : c.2 ∈ chunkPackets pkts := by
    rw [← map_snd_placed (s := s) mdatStartPos (chunkPackets pkts)]
    exact List.mem_map_of_mem (List.mem_of_mem_filter hc)
  have hflat : (chunkPackets pkts).flatten = pkts := flatten_runs _ _
  rw [← hflat]
  exact List.mem_flatten_of_mem hmem hp

/-- **The tables are the blocks**: offsets and numbers of samples. -/
theorem Playable.zip_blocks (h : Playable s pkts addr avcc) (st : StreamType) :
    (chunkOffsets s st pkts).zip (chunkCounts s st (chunkPackets pkts)) =
      (blocks s st pkts).map fun b => (b.1, b.2.length) := by
  have hcounts : chunkCounts s st (chunkPackets pkts) =
      (placedOf s st pkts).map fun c => sampleCounts s c.2 := by
    rw [chunkCounts, ← map_snd_placedOf s, List.map_map]
    rfl
  have hoffsets : chunkOffsets s st pkts = (placedOf s st pkts).map Prod.fst := rfl
  rw [hcounts, hoffsets, List.zip_map', blocks, List.map_map]
  refine List.map_congr_left fun c hc => ?_
  exact Prod.ext rfl (h.length_all (mem_of_placedOf hc)).symm

/-- A chunk lies where it was placed. -/
theorem at_place {file : Bytes} {pos : Nat} {chunks : List (List AVPacket)} {pre post : Bytes}
    (hfile : file = pre ++ sampleData s chunks.flatten ++ post) (hpos : pos = pre.length)
    {c : Nat × List AVPacket} (hc : c ∈ placed s pos chunks) :
    ∃ pre post, file = pre ++ sampleData s c.2 ++ post ∧ c.1 = pre.length := by
  induction chunks generalizing pos pre with
  | nil => cases hc
  | cons chunk chunks ih =>
    have hcut : file = pre ++ sampleData s chunk ++ (sampleData s chunks.flatten ++ post) := by
      rw [hfile, List.flatten_cons, sampleData, List.flatMap_append]
      simp only [List.append_assoc]
      rfl
    rw [placed] at hc
    rcases List.mem_cons.mp hc with rfl | hmem
    · exact ⟨pre, _, hcut, hpos⟩
    · have hnext : file =
          (pre ++ sampleData s chunk) ++ sampleData s chunks.flatten ++ post := by
        rw [hcut]
        simp only [List.append_assoc]
      refine ih hnext ?_ hmem
      rw [hpos, List.length_append]

/-- **The blocks lie in `mdat`.** -/
theorem Playable.at_blocks (h : Playable s pkts addr avcc) {file front back : Bytes}
    (hfile : file = front ++ sampleData s pkts ++ back) (hfront : front.length = mdatStartPos)
    (st : StreamType) :
    ∀ b ∈ blocks s st pkts, ∃ pre post, file = pre ++ b.2.flatten ++ post ∧ b.1 = pre.length := by
  intro b hb
  obtain ⟨c, hc, rfl⟩ := List.mem_map.mp hb
  have hflat : (chunkPackets pkts).flatten = pkts := flatten_runs _ _
  have hfile' : file = front ++ sampleData s (chunkPackets pkts).flatten ++ back := by
    rw [hflat]
    exact hfile
  rw [h.flatten_all (mem_of_placedOf hc)]
  exact at_place hfile' hfront.symm (List.mem_of_mem_filter hc)

/-! ## The data lies in `mdat` -/

/-- The data begins where the offsets count from. -/
theorem fileAtoms_data (s : AVFormatContext) (pkts : List AVPacket) (avcc : Bytes) :
    ∃ front back, Atom.allBytes (fileAtoms s pkts avcc) = front ++ sampleData s pkts ++ back ∧
      front.length = mdatStartPos := by
  obtain ⟨front, hatoms, hfront⟩ := fileAtoms_mdat s pkts avcc
  refine ⟨Atom.allBytes front ++ (putBe32 ((sampleData s pkts).length + 8) ++ ascii "mdat"),
    Atom.allBytes (behindMdat s pkts avcc), ?_, ?_⟩
  · rw [hatoms, Atom.allBytes_append, Atom.allBytes_cons, ← mdat_bytes]
    simp only [List.append_assoc]
  · rw [List.length_append, hfront]
    rfl

/-- The boxes of a box that is there are within the file. -/
theorem length_kids_le {i : FourCC} {head : Bytes} {kids : List Atom} {n : Nat}
    (h : (Atom.box i head kids).bytes.length ≤ n) : (Atom.allBytes kids).length ≤ n := by
  rw [length_box] at h
  omega

theorem length_le_kids {a : Atom} {i : FourCC} {head : Bytes} {kids : List Atom} {n : Nat}
    (hmem : a ∈ kids) (h : (Atom.box i head kids).bytes.length ≤ n) : a.bytes.length ≤ n :=
  Nat.le_trans (Atom.length_le_allBytes hmem) (length_kids_le h)

theorem length_trak_le (hst : st ∈ present s pkts) :
    (trakAtom s st pkts avcc).bytes.length ≤ (moovAtom s pkts avcc).bytes.length := by
  refine length_le_kids ?_ (Nat.le_refl _)
  rw [moovKids]
  exact List.mem_append_left _ (List.mem_cons_of_mem _ (List.mem_map_of_mem hst))

theorem length_mdia_le (hst : st ∈ present s pkts) :
    (mdiaAtom s st pkts avcc).bytes.length ≤ (moovAtom s pkts avcc).bytes.length :=
  length_le_kids (List.mem_cons_of_mem _ List.mem_cons_self) (length_trak_le hst)

theorem length_minf_le (hst : st ∈ present s pkts) :
    (minfAtom s st pkts avcc).bytes.length ≤ (moovAtom s pkts avcc).bytes.length :=
  length_le_kids (List.mem_cons_of_mem _ (List.mem_cons_of_mem _ List.mem_cons_self))
    (length_mdia_le hst)

theorem length_stbl_le (hst : st ∈ present s pkts) :
    (stblAtom s st pkts avcc).bytes.length ≤ (moovAtom s pkts avcc).bytes.length :=
  length_le_kids (List.mem_cons_of_mem _ (List.mem_cons_of_mem _ List.mem_cons_self))
    (length_minf_le hst)

/-- **The tables are short**, because they are in `moov`. -/
theorem Playable.length_table (h : Playable s pkts addr avcc) (hst : st ∈ present s pkts) {i : FourCC}
    {vs : List Nat} (hmem : Atom.leaf i (numbers vs) ∈ (trackTables s st pkts).atoms) :
    vs.length < 2 ^ 29 := by
  have hle : (Atom.leaf i (numbers vs)).bytes.length ≤ (moovAtom s pkts avcc).bytes.length :=
    length_le_kids (List.mem_cons_of_mem _ hmem) (length_stbl_le hst)
  rw [length_leaf, length_numbers] at hle
  have hmoov := h.moov_lt
  omega

/-! ## Every number fits -/

theorem sampleCounts_ne (hst : st ∈ present s pkts) : sampleCounts s (packetsOf st pkts) ≠ 0 := by
  have hkeep := List.of_mem_filter hst
  exact of_decide_eq_true hkeep

/-- Something is recorded of a stream that is there. -/
theorem exists_packet (hst : st ∈ present s pkts) :
    ∃ p ∈ pkts, p.streamIndex = st ∧ sampleCount s p ≠ 0 := by
  by_contra hnone
  have hzero : ∀ n ∈ (packetsOf st pkts).map (sampleCount s), n = 0 := by
    intro n hn
    obtain ⟨p, hp, rfl⟩ := List.mem_map.mp hn
    obtain ⟨hstream, hmem⟩ := stream_of_mem hp
    by_contra hpos
    exact hnone ⟨p, hmem, hstream, hpos⟩
  exact sampleCounts_ne hst (List.sum_eq_zero_iff_forall_eq_nat.mpr hzero)

/-- **A frame of PCM** has a size, which is that of no more than a packet. -/
theorem Playable.pcmFrame_fits (h : Playable s pkts addr avcc) (hst : st ∈ present s pkts)
    (hpcm : (s.codec st).codecId = .pcm) : pcmFrame s st ≠ 0 ∧ pcmFrame s st < 2 ^ 32 := by
  obtain ⟨p, hp, rfl, hcount⟩ := exists_packet hst
  have hsound := h.sound p hp
  refine ⟨hsound.pcm hpcm, ?_⟩
  have hle : pcmFrame s p.streamIndex ≤ packetSize s p := by
    by_contra hlt
    rw [sampleCount, if_pos hpcm] at hcount
    exact hcount (Nat.div_eq_of_lt (Nat.not_le.mp hlt))
  have hsize := hsound.size_lt
  omega

/-- The data of some packets is that of all and more. -/
theorem length_sampleData_le {qs ps : List AVPacket} (h : qs.Sublist ps) :
    (sampleData s qs).length ≤ (sampleData s ps).length :=
  (h.flatMap (written s)).length_le

theorem Playable.data_lt (h : Playable s pkts addr avcc) : (sampleData s pkts).length < 2 ^ 32 := by
  obtain ⟨front, back, hfile, -⟩ := fileAtoms_data s pkts avcc
  have hlt := h.file_lt
  rw [hfile, List.length_append, List.length_append] at hlt
  omega

theorem mem_sizes (s : AVFormatContext) (st : StreamType) (pkts : List AVPacket) :
    Atom.leaf (fourcc "stsz") (trackTables s st pkts).stszBody ∈ (trackTables s st pkts).atoms :=
  List.mem_append_right _ (List.mem_cons_of_mem _ List.mem_cons_self)

/-- **The number of samples fits.** -/
theorem Playable.sampleCounts_lt (h : Playable s pkts addr avcc) (hst : st ∈ present s pkts) :
    sampleCounts s (packetsOf st pkts) < 2 ^ 32 := by
  by_cases hpcm : (s.codec st).codecId = .pcm
  · have hne := (h.pcmFrame_fits hst hpcm).1
    have hdata : (sampleData s (packetsOf st pkts)).length =
        sampleCounts s (packetsOf st pkts) * pcmFrame s st := by
      rw [← h.flatten_all fun p hp => (stream_of_mem hp).2, List.length_flatten, h.sizes_all,
        if_pos hpcm, List.sum_replicate_nat]
    have hle := length_sampleData_le (s := s) (List.filter_sublist (l := pkts)
      (p := fun p => decide (p.streamIndex = st)))
    have hlt := h.data_lt
    have hmul := Nat.le_mul_of_pos_right (sampleCounts s (packetsOf st pkts))
      (Nat.pos_of_ne_zero hne)
    have hle' : (sampleData s (packetsOf st pkts)).length ≤ (sampleData s pkts).length := hle
    omega
  · have hlen := h.length_table hst (mem_sizes s st pkts)
    rw [List.length_cons, List.length_cons, List.length_cons] at hlen
    have hsizes : (trackTables s st pkts).sizes = sampleSizes s st pkts := if_neg hpcm
    rw [hsizes, sampleSizes, List.length_map] at hlen
    rw [sampleCounts_eq hpcm]
    omega

theorem fits_row {n : Nat} {vs : List Nat} (hn : n < 2 ^ 32) (hvs : ∀ v ∈ vs, v < 2 ^ 32) :
    ∀ v ∈ 0 :: n :: vs, v < 2 ^ 32 := by
  intro v hv
  rcases List.mem_cons.mp hv with rfl | hv
  · decide
  rcases List.mem_cons.mp hv with rfl | hv
  · exact hn
  · exact hvs v hv

/-! ## The tables are read back -/

theorem Playable.readStts (h : Playable s pkts addr avcc) (hst : st ∈ present s pkts) :
    readTable 2 (trackTables s st pkts).sttsBody =
      some ((sttsEntries s st pkts).flatMap fun e => [e.1, e.2]) := by
  have hlen := h.length_table hst (List.mem_append_left _ (List.mem_append_left _
    (List.mem_singleton_self (Atom.leaf (fourcc "stts") (trackTables s st pkts).sttsBody))))
  have hentries : (trackTables s st pkts).stts = sttsEntries s st pkts := rfl
  rw [List.length_cons, List.length_cons, length_pairs, hentries] at hlen
  have hcount : (trackTables s st pkts).stts.length < 2 ^ 32 := by
    rw [hentries]
    omega
  refine readTable_row (length_pairs _) (fits_row hcount ?_)
  intro v hv
  obtain ⟨e, he, hv⟩ := List.mem_flatMap.mp hv
  cases st with
  | video =>
    obtain ⟨d, hd, rfl⟩ := List.mem_map.mp he
    have hdur : d < 2 ^ 32 := by
      rcases List.mem_append.mp hd with hd | hd
      · obtain ⟨u, -, rfl⟩ := List.mem_map.mp hd
        exact u.toNat_lt
      · rw [List.mem_singleton.mp hd]
        decide
    rcases List.mem_cons.mp hv with rfl | hv
    · show 1 < 2 ^ 32
      decide
    · rwa [List.mem_singleton.mp hv]
  | audio =>
    obtain rfl := List.mem_singleton.mp he
    rcases List.mem_cons.mp hv with rfl | hv
    · exact h.sampleCounts_lt hst
    · rw [List.mem_singleton.mp hv]
      show (if (s.codec .audio).codecId = .pcm then 1 else (s.codec .audio).frameSize) < 2 ^ 32
      split
      · decide
      · exact h.frameSize_lt

/-- A key frame has the number of a frame. -/
theorem keyNumbers_le (s : AVFormatContext) (pkts : List AVPacket) :
    ∀ k ∈ keyNumbers s pkts, k ≤ (packetsOf .video pkts).length := by
  intro k hk
  obtain ⟨c, hc, rfl⟩ := List.mem_map.mp hk
  have hlt := List.snd_lt_of_mem_zipIdx (List.mem_of_mem_filter hc)
  exact hlt

theorem length_keyNumbers_le (s : AVFormatContext) (pkts : List AVPacket) :
    (keyNumbers s pkts).length ≤ (packetsOf .video pkts).length := by
  rw [keyNumbers, List.length_map]
  exact Nat.le_trans (List.length_filter_le _ _) (Nat.le_of_eq List.length_zipIdx)

theorem Playable.readStss (h : Playable s pkts addr avcc) (hst : StreamType.video ∈ present s pkts) :
    readTable 1 (TrackTables.stssBody (keyNumbers s pkts)) = some (keyNumbers s pkts) := by
  have hframes : (packetsOf .video pkts).length < 2 ^ 32 := by
    have hlen := h.length_table hst (List.mem_append_left _ (List.mem_append_left _
      (List.mem_singleton_self (Atom.leaf (fourcc "stts") (trackTables s .video pkts).sttsBody))))
    rw [List.length_cons, List.length_cons, length_pairs, stts_video, List.length_append,
      List.length_map, List.length_tail, durations, List.length_map] at hlen
    omega
  have hkeys := length_keyNumbers_le s pkts
  refine readTable_row (Nat.one_mul _).symm (fits_row (by omega) ?_)
  intro k hk
  exact Nat.lt_of_le_of_lt (keyNumbers_le s pkts k hk) hframes

theorem Playable.readStco (h : Playable s pkts addr avcc) (hst : st ∈ present s pkts) :
    readTable 1 (trackTables s st pkts).stcoBody = some (chunkOffsets s st pkts) := by
  have hlen := h.length_table hst (List.mem_append_right _ (List.mem_cons_of_mem _
    (List.mem_cons_of_mem _ (List.mem_singleton_self
      (Atom.leaf (fourcc "stco") (trackTables s st pkts).stcoBody)))))
  rw [List.length_cons, List.length_cons] at hlen
  refine readTable_row (Nat.one_mul _).symm (fits_row (by omega) ?_)
  intro v hv
  obtain ⟨c, hc, rfl⟩ := List.mem_map.mp hv
  obtain ⟨front, back, hfile, hfront⟩ := fileAtoms_data s pkts avcc
  have hmem : (c.1, c.2.flatMap (packetSamples s)) ∈ blocks s st pkts :=
    List.mem_map_of_mem (f := fun c : Nat × List AVPacket => (c.1, c.2.flatMap (packetSamples s))) hc
  obtain ⟨before, after, hplace, hpos⟩ := h.at_blocks hfile hfront st _ hmem
  have hlt := h.file_lt
  have hpos' : c.1 = before.length := hpos
  rw [hplace, List.length_append, List.length_append] at hlt
  omega

/-- No chunk has more samples than the track. -/
theorem Playable.chunkCount_le (h : Playable s pkts addr avcc) {chunk : List AVPacket}
    (hchunk : chunk ∈ (chunkPackets pkts).filter (ofStream st)) :
    sampleCounts s chunk ≤ sampleCounts s (packetsOf st pkts) := by
  have hsub : chunk.Sublist (packetsOf st pkts) := by
    rw [← flatten_chunks]
    exact List.sublist_flatten_of_mem hchunk
  have hmem : ∀ p ∈ packetsOf st pkts, p ∈ pkts := fun p hp => (stream_of_mem hp).2
  rw [← h.length_all hmem, ← h.length_all fun p hp => hmem p (hsub.subset hp)]
  exact (hsub.flatMap (packetSamples s)).length_le

theorem Playable.readStsc (h : Playable s pkts addr avcc) (hst : st ∈ present s pkts) :
    readTable 3 (trackTables s st pkts).stscBody =
      some ((trackTables s st pkts).stsc.flatMap fun e => [e.1, e.2, 1]) := by
  have hlen := h.length_table hst (List.mem_append_right _ (List.mem_cons_self (a :=
    Atom.leaf (fourcc "stsc") (trackTables s st pkts).stscBody)))
  rw [List.length_cons, List.length_cons, length_triples] at hlen
  refine readTable_row (length_triples _) (fits_row (by omega) ?_)
  intro v hv
  obtain ⟨e, he, hv⟩ := List.mem_flatMap.mp hv
  obtain ⟨c, hc, rfl⟩ := List.mem_map.mp he
  have hindex := List.snd_lt_of_mem_zipIdx hc
  have hcount : (trackTables s st pkts).stsc.length =
      (chunkCounts s st (chunkPackets pkts)).length := by
    show (List.map _ _).length = _
    rw [List.length_map, List.length_zipIdx]
  have hmem : c.1 ∈ chunkCounts s st (chunkPackets pkts) := by
    have := List.mem_map_of_mem (f := Prod.fst) hc
    rwa [List.zipIdx_map_fst] at this
  simp only [List.mem_cons, List.not_mem_nil, or_false] at hv
  rcases hv with rfl | rfl | rfl
  · omega
  · obtain ⟨chunk, hchunk, hsum⟩ := List.mem_map.mp hmem
    rw [← hsum]
    exact Nat.lt_of_le_of_lt (h.chunkCount_le hchunk) (h.sampleCounts_lt hst)
  · decide

/-- **The sizes of all samples.** -/
theorem Playable.readStsz (h : Playable s pkts addr avcc) (hst : st ∈ present s pkts) :
    readSizes (trackTables s st pkts).stszBody =
      some (((packetsOf st pkts).flatMap (packetSamples s)).map List.length) := by
  have hcount := h.sampleCounts_lt hst
  rw [h.sizes_all, TrackTables.stszBody, trackTables]
  by_cases hpcm : (s.codec st).codecId = .pcm
  · obtain ⟨hne, hlt⟩ := h.pcmFrame_fits hst hpcm
    rw [if_pos hpcm, if_pos hpcm, if_pos hpcm]
    refine readSizes_all hne (fits_row hlt ?_)
    intro v hv
    rwa [List.mem_singleton.mp hv]
  · have hlen : sampleCounts s (packetsOf st pkts) = (sampleSizes s st pkts).length := by
      rw [sampleCounts_eq hpcm, sampleSizes, List.length_map]
    rw [if_neg hpcm, if_neg hpcm, if_neg hpcm, hlen]
    refine readSizes_row (fits_row (by decide) ?_)
    intro v hv
    rcases List.mem_cons.mp hv with rfl | hv
    · rwa [← hlen]
    · obtain ⟨p, hp, rfl⟩ := List.mem_map.mp hv
      have hsize := (h.sound p (stream_of_mem hp).2).size_lt
      omega

/-! ## The player -/

/-- The boxes of a box are found in it. -/
theorem Playable.within_box (h : Playable s pkts addr avcc) {i : FourCC} {kids : List Atom}
    (hle : (Atom.box i [] kids).bytes.length ≤ (moovAtom s pkts avcc).bytes.length)
    (name : String) : within name (Atom.box i [] kids).body =
      (kids.find? fun a => decide (a.id = fourcc name)).map Atom.body := by
  rw [Atom.body_box, List.nil_append]
  refine within_kids ?_ name
  have hkids := length_kids_le hle
  have hmoov := h.moov_lt
  omega

/-- So are the tables. -/
theorem Playable.within_stbl (h : Playable s pkts addr avcc) (hst : st ∈ present s pkts) {name : String}
    {content : Bytes}
    (hfind : ((stsdAtom s st avcc :: (trackTables s st pkts).atoms).find?
      fun a => decide (a.id = fourcc name)) = some (Atom.leaf (fourcc name) content)) :
    within name (stblAtom s st pkts avcc).body = some content := by
  rw [stblAtom, h.within_box (length_stbl_le hst), hfind, Option.map_some, Atom.body_leaf]

/-- **The samples of a track are found.** -/
theorem Playable.readSamples (h : Playable s pkts addr avcc) (hst : st ∈ present s pkts) :
    Lib.readSamples (Atom.allBytes (fileAtoms s pkts avcc)) (stblAtom s st pkts avcc).body =
      some ((packetsOf st pkts).flatMap (packetSamples s)) := by
  obtain ⟨front, back, hfile, hfront⟩ := fileAtoms_data s pkts avcc
  have hstco : within "stco" (stblAtom s st pkts avcc).body =
      some (trackTables s st pkts).stcoBody := h.within_stbl hst (by cases st <;> rfl)
  have hstsc : within "stsc" (stblAtom s st pkts avcc).body =
      some (trackTables s st pkts).stscBody := h.within_stbl hst (by cases st <;> rfl)
  have hstsz : within "stsz" (stblAtom s st pkts avcc).body =
      some (trackTables s st pkts).stszBody := h.within_stbl hst (by cases st <;> rfl)
  have hcounts : perChunk (chunkOffsets s st pkts).length (trackTables s st pkts).stsc =
      chunkCounts s st (chunkPackets pkts) := by
    have hlen : (chunkOffsets s st pkts).length =
        0 + (chunkCounts s st (chunkPackets pkts)).length := by
      rw [Nat.zero_add, chunkCounts, List.length_map, ← map_snd_placedOf s, List.length_map]
      exact List.length_map _
    rw [hlen]
    exact perChunk_each _ 0
  rw [Lib.readSamples, hstco, hstsc, hstsz, Option.bind_some, Option.bind_some, Option.bind_some,
    h.readStco hst, h.readStsc hst, h.readStsz hst, Option.bind_some, Option.bind_some,
    Option.map_some, firstOfThree_flatMap, hcounts, h.zip_blocks, ← flatMap_blocks]
  exact congrArg some (samplesIn_blocks (h.at_blocks hfile hfront st))

/-- **A track is read back.** -/
theorem Playable.readTrack (h : Playable s pkts addr avcc) (hst : st ∈ present s pkts) :
    Lib.readTrack (Atom.allBytes (fileAtoms s pkts avcc)) (trakAtom s st pkts avcc).body =
      some (trackOf s pkts st) := by
  have hmdia : within "mdia" (trakAtom s st pkts avcc).body =
      some (mdiaAtom s st pkts avcc).body := by
    rw [trakAtom, h.within_box (length_trak_le hst)]
    rfl
  have hminf : within "minf" (mdiaAtom s st pkts avcc).body =
      some (minfAtom s st pkts avcc).body := by
    rw [mdiaAtom, h.within_box (length_mdia_le hst)]
    rfl
  have hhdlr : within "hdlr" (mdiaAtom s st pkts avcc).body = some (hdlrBody st) := by
    rw [mdiaAtom, h.within_box (length_mdia_le hst)]
    cases st <;> rfl
  have hstbl : within "stbl" (minfAtom s st pkts avcc).body =
      some (stblAtom s st pkts avcc).body := by
    rw [minfAtom, h.within_box (length_minf_le hst)]
    cases st <;> rfl
  have hstts : within "stts" (stblAtom s st pkts avcc).body =
      some (trackTables s st pkts).sttsBody := h.within_stbl hst (by cases st <;> rfl)
  have hkeys : readKeys (stblAtom s st pkts avcc).body =
      some (trackTables s st pkts).stss := by
    cases st with
    | video =>
      have hstss : within "stss" (stblAtom s .video pkts avcc).body =
          some (TrackTables.stssBody (keyNumbers s pkts)) := h.within_stbl hst rfl
      rw [readKeys, hstss]
      show (readTable 1 _).map some = _
      rw [h.readStss hst]
      rfl
    | audio =>
      have hstss : within "stss" (stblAtom s .audio pkts avcc).body = none := by
        rw [stblAtom, h.within_box (length_stbl_le hst)]
        rfl
      rw [readKeys, hstss]
      rfl
  have hhandler : (Riff.readId ((hdlrBody st).drop 8)).map Prod.fst = some (handlerOf st) := by
    cases st <;> decide
  obtain ⟨r, hread, hfst⟩ := Option.map_eq_some_iff.mp hhandler
  rw [Lib.readTrack, hmdia, Option.bind_some, hhdlr, Option.bind_some, hread, Option.bind_some,
    hminf, Option.bind_some, hstbl, Option.bind_some, hstts, Option.bind_some, h.readStts hst,
    Option.bind_some, hkeys, Option.bind_some, h.readSamples hst, Option.map_some,
    pairs_flatMap, hfst]
  rfl

/-- All at once. -/
theorem mapM_eq {α β : Type} {f : α → Option β} {g : α → β} :
    ∀ {l : List α}, (∀ a ∈ l, f a = some (g a)) → l.mapM f = some (l.map g) := by
  intro l h
  induction l with
  | nil => rfl
  | cons a l ih =>
    rw [List.mapM_cons, h a List.mem_cons_self, ih fun b hb => h b (List.mem_cons_of_mem a hb)]
    rfl

/-- The tracks among the boxes of `moov`. -/
theorem filter_traks (s : AVFormatContext) (pkts : List AVPacket) (avcc : Bytes) :
    (moovKids s pkts avcc).filter (fun a => decide (a.id = fourcc "trak")) =
      (present s pkts).map (trakAtom s · pkts avcc) := by
  have hgps : (if s.geoAvailable then [Atom.leaf (fourcc "gps ") (putBe32 0x00000101 ++ putBe32 0)]
      else []).filter (fun a => decide (a.id = fourcc "trak")) = [] := by
    cases s.geoAvailable <;> rfl
  have htraks : ((present s pkts).map (trakAtom s · pkts avcc)).filter
      (fun a => decide (a.id = fourcc "trak")) = (present s pkts).map (trakAtom s · pkts avcc) := by
    rw [List.filter_eq_self]
    intro a ha
    obtain ⟨st, -, rfl⟩ := List.mem_map.mp ha
    rfl
  rw [moovKids, List.filter_append, hgps, List.append_nil]
  exact htraks

/-- **The whole file is read back.** -/
theorem Playable.readMovie (h : Playable s pkts addr avcc) :
    Lib.readMovie (Atom.allBytes (fileAtoms s pkts avcc)) =
      some ((present s pkts).map (trackOf s pkts)) := by
  have hmoov : within "moov" (Atom.allBytes (fileAtoms s pkts avcc)) =
      some (moovAtom s pkts avcc).body := by
    rw [within_kids h.file_lt, fileAtoms]
    split <;> rfl
  have hbody : (moovAtom s pkts avcc).body = Atom.allBytes (moovKids s pkts avcc) := rfl
  have hkids : (Atom.allBytes (moovKids s pkts avcc)).length < 2 ^ 32 := by
    have hle : (Atom.allBytes (moovKids s pkts avcc)).length ≤
        (moovAtom s pkts avcc).bytes.length := length_kids_le (Nat.le_refl _)
    have hlt := h.moov_lt
    omega
  have htraks : (((moovKids s pkts avcc).map Atom.toBox).filter
      fun b => decide (b.id = fourcc "trak")) =
        (present s pkts).map fun st => (trakAtom s st pkts avcc).toBox := by
    have hmap := congrArg (List.map Atom.toBox) (filter_traks s pkts avcc)
    rw [List.map_map] at hmap
    rw [List.filter_map]
    exact hmap
  rw [Lib.readMovie, hmoov, Option.bind_some, hbody, Atom.readBoxes_kids hkids, Option.bind_some,
    htraks, List.mapM_map]
  exact mapM_eq fun st hst => h.readTrack hst

variable (mem keys page : Nat → UInt32)

/-- **What was recorded can be played**: the tables of the closed file lead to every sample of every
packet, in order and byte by byte. The reader gets the bytes of the file and nothing else, and goes
by the offsets, the chunks and the sizes that it finds in the boxes; what it is to find is told from
the packets, without a look at the tables. Packets of both streams come in any order. -/
theorem recorded_played (h : Playable s pkts addr avcc) :
    ∃ mov, recorded s addr mem keys page pkts = some mov ∧
      Lib.readMovie mov.pb.bytes = some ((present s pkts).map (trackOf s pkts)) := by
  obtain ⟨mov, hrec, hfile⟩ := h.file mem keys page
  refine ⟨mov, hrec, ?_⟩
  rw [hfile]
  exact h.readMovie

/-- The length of the file, without its zeros. -/
theorem length_file_le (s : AVFormatContext) (pkts : List AVPacket) (avcc : Bytes) :
    (Atom.allBytes (fileAtoms s pkts avcc)).length ≤
      mdatStartPos + (sampleData s pkts).length + (moovAtom s pkts avcc).bytes.length := by
  obtain ⟨front, hatoms, hfront⟩ := fileAtoms_mdat s pkts avcc
  have hback : (Atom.allBytes (behindMdat s pkts avcc)).length ≤
      (moovAtom s pkts avcc).bytes.length := by
    unfold behindMdat
    split
    · rw [Atom.allBytes_nil]
      exact Nat.zero_le _
    · rw [allBytes_one]
  have hstart : mdatStartPos = headerReserveSize + 8 := rfl
  have hmdat : (mdatAtom s pkts).bytes.length = 8 + (sampleData s pkts).length := length_leaf _ _
  rw [hatoms, Atom.allBytes_append, Atom.allBytes_cons, List.length_append, List.length_append,
    hfront, hmdat]
  omega

theorem recorded_played_once :
    ∃ mov, recorded cameraFormat 0 noWords noWords noWords cameraPackets = some mov ∧
      Lib.readMovie mov.pb.bytes = some ((present cameraFormat cameraPackets).map
        (trackOf cameraFormat cameraPackets)) :=
  recorded_played noWords noWords noWords
    { cameraRecordable with
      frames := by decide +kernel
      frameSize_lt := by decide
      file_lt := Nat.lt_of_le_of_lt (length_file_le _ _ _) (by decide +kernel) }

example : (present cameraFormat cameraPackets).map (trackOf cameraFormat cameraPackets) =
    [⟨fourcc "vide", [(1, 40), (1, 0)], some [1],
        [[0, 0, 0, 2, 0x65, 0x88], [0, 0, 0, 2, 0x41, 0x9a]]⟩,
      ⟨fourcc "soun", [(2, 1)], none, [[1, 2, 3, 4], [5, 6, 7, 8]]⟩] := by decide +kernel

end

end Maixii.Mp4
