import Maixii.Mp4.MovBoxes
import Maixii.Mp4.SampleTables

/-!
# `Mp4/TrackTables.lean`: the tables of a track

`trackTables` says in terms of the packets what the tables of a track are to hold, and
`movWriteTables_eq` that they are what is written, if the counters of `stsc` are right. The tables
are drained one after the other; all that one leaves behind is the tiny page.
-/

set_option autoImplicit false

namespace Maixii.Mp4

open Maixii.Lib

/-! ## What is to be written -/

/-- The tables of one track. -/
structure TrackTables where
  /-- How many samples last how long. -/
  stts : List (Nat × Nat)
  /-- The key frames, for video. -/
  stss : Option (List Nat)
  /-- From which chunk on there are how many samples in each. -/
  stsc : List (Nat × Nat)
  /-- The size of all samples, or zero. -/
  sampleSize : Nat
  sampleCount : Nat
  sizes : List Nat
  stco : List Nat

/-- Numbers of 32 bits. -/
def numbers (vs : List Nat) : Bytes := vs.flatMap (be 4)

namespace TrackTables

variable (t : TrackTables)

def sttsBody : Bytes := numbers (0 :: t.stts.length :: t.stts.flatMap fun e => [e.1, e.2])

def stssBody (keys : List Nat) : Bytes := numbers (0 :: keys.length :: keys)

/-- Every chunk has its own entry, and there is one description. -/
def stscBody : Bytes := numbers (0 :: t.stsc.length :: t.stsc.flatMap fun e => [e.1, e.2, 1])

def stszBody : Bytes := numbers (0 :: t.sampleSize :: t.sampleCount :: t.sizes)

def stcoBody : Bytes := numbers (0 :: t.stco.length :: t.stco)

/-- The boxes of the tables. -/
def atoms : List Atom :=
  [.leaf (fourcc "stts") t.sttsBody] ++
    (t.stss.toList.map fun keys => Atom.leaf (fourcc "stss") (stssBody keys)) ++
    [.leaf (fourcc "stsc") t.stscBody, .leaf (fourcc "stsz") t.stszBody,
      .leaf (fourcc "stco") t.stcoBody]

end TrackTables

section

variable (s : AVFormatContext) (st : StreamType) (pkts : List AVPacket)

/-- The size of a frame of PCM. -/
def pcmFrame : Nat := (s.codec st).channels * ((s.codec st).bitsPerSample / 8)

/-- The durations: a frame of video has that of the next packet, the last has none. -/
def sttsEntries : List (Nat × Nat) :=
  match st with
  | .video => ((durations pkts).tail.map UInt32.toNat ++ [0]).map fun d => (1, d)
  | .audio => [(sampleCounts s (packetsOf .audio pkts),
      if (s.codec .audio).codecId = .pcm then 1 else (s.codec .audio).frameSize)]

/-- **The tables of these packets.** -/
def trackTables : TrackTables where
  stts := sttsEntries s st pkts
  stss := if st = .video then some (keyNumbers s pkts) else none
  stsc := (chunkCounts s st (chunkPackets pkts)).zipIdx.map fun c => (c.2 + 1, c.1)
  sampleSize := if (s.codec st).codecId = .pcm then pcmFrame s st else 0
  sampleCount := sampleCounts s (packetsOf st pkts)
  sizes := if (s.codec st).codecId = .pcm then [] else sampleSizes s st pkts
  stco := chunkOffsets s st pkts

end

/-! ## Numbers -/

theorem numbers_cons (v : Nat) (vs : List Nat) : numbers (v :: vs) = putBe32 v ++ numbers vs := by
  rw [numbers, List.flatMap_cons, putBe32_eq]
  rfl

theorem numbers_nil : numbers [] = [] := rfl

theorem numbers_append (us vs : List Nat) : numbers (us ++ vs) = numbers us ++ numbers vs :=
  List.flatMap_append

theorem length_numbers (vs : List Nat) : (numbers vs).length = 4 * vs.length :=
  length_flatMap_records (length_be 4) vs

/-- What a word has lost is not written either. -/
theorem putBe32_ofNat (n : Nat) : putBe32 (UInt32.ofNat n).toNat = putBe32 n := by
  rw [putBe32_eq, putBe32_eq, be, be, UInt32.toNat_ofNat']
  exact congrArg List.reverse (le_mod 4 n)

theorem putWords_map (vs : List Nat) : putWords (vs.map UInt32.ofNat) = numbers vs := by
  induction vs with
  | nil => rfl
  | cons v vs ih =>
    rw [numbers_cons, ← ih, putWords, putWords, List.map_cons, List.flatMap_cons, putBe32_ofNat]

theorem sttsEntries_numbers (ds : List UInt32) :
    ds.flatMap sttsEntry =
      numbers ((ds.map fun d => (1, d.toNat)).flatMap fun e : Nat × Nat => [e.1, e.2]) := by
  induction ds with
  | nil => rfl
  | cons d ds ih =>
    rw [List.flatMap_cons, ih, List.map_cons, List.flatMap_cons, numbers_append, numbers_cons,
      numbers_cons, numbers_nil, List.append_nil]
    rfl

theorem stscEntries_numbers (vs : List Nat) (k : Nat) :
    ((vs.map UInt32.ofNat).zipIdx k).flatMap stscEntry =
      numbers (((vs.zipIdx k).map fun c => (c.2 + 1, c.1)).flatMap
        fun e : Nat × Nat => [e.1, e.2, 1]) := by
  induction vs generalizing k with
  | nil => rfl
  | cons v vs ih =>
    rw [List.map_cons, List.zipIdx_cons, List.flatMap_cons, ih, List.zipIdx_cons, List.map_cons,
      List.flatMap_cons, numbers_append, numbers_cons, numbers_cons, numbers_cons, numbers_nil,
      List.append_nil, stscEntry, putBe32_ofNat]
    simp only [List.append_assoc]

/-- Entries of `k` numbers. -/
theorem length_entries {α : Type} (f : α → List Nat) {k : Nat} (hf : ∀ a, (f a).length = k)
    (l : List α) : (l.flatMap f).length = k * l.length := by
  induction l with
  | nil => rfl
  | cons a l ih =>
    rw [List.flatMap_cons, List.length_append, hf, ih, List.length_cons, Nat.mul_succ, Nat.add_comm]

theorem length_pairs (es : List (Nat × Nat)) :
    (es.flatMap fun e => [e.1, e.2]).length = 2 * es.length := by
  refine length_entries _ ?_ _
  exact fun _ => rfl

theorem length_triples (es : List (Nat × Nat)) :
    (es.flatMap fun e => [e.1, e.2, 1]).length = 3 * es.length := by
  refine length_entries _ ?_ _
  exact fun _ => rfl

/-! ## The boxes -/

/-- A box as the code writes one: its size, its name and the rest. -/
theorem leaf_bytes (name : String) (hname : (fourcc name).bytes = ascii name) (content : Bytes) :
    putBe32 (8 + content.length) ++ ascii name ++ content =
      (Atom.leaf (fourcc name) content).bytes := by
  rw [Atom.leaf, Atom.bytes, Atom.allBytes_nil, List.append_nil, List.length_nil, Nat.add_zero,
    hname, putBe32_eq]

section

variable {s : AVFormatContext} {start : OutFile} {st : StreamType} {pkts : List AVPacket}
  {mov : MovContext}

/-- A packet that is not PCM is one sample. -/
theorem sampleCounts_eq (hpcm : (s.codec st).codecId ≠ .pcm) :
    sampleCounts s (packetsOf st pkts) = (packetsOf st pkts).length := by
  have hone : ∀ p ∈ packetsOf st pkts, sampleCount s p = 1 := by
    intro p hp
    have hst : p.streamIndex = st := by simpa [packetsOf] using (List.mem_filter.mp hp).2
    rw [sampleCount, hst]
    exact if_neg hpcm
  have hmap : (packetsOf st pkts).map (sampleCount s) =
      List.replicate (packetsOf st pkts).length 1 := by
    rw [List.eq_replicate_iff, List.length_map]
    refine ⟨rfl, ?_⟩
    intro n hn
    obtain ⟨p, hp, rfl⟩ := List.mem_map.mp hn
    exact hone p hp
  rw [sampleCounts, hmap, List.sum_replicate_nat, Nat.mul_one]

/-- All tables but `stsz` are drained. -/
theorem Finished.drain_eq (h : Finished s start pkts mov) (hne : pkts ≠ [])
    (hswap : ¬ Swapped pkts) {t : Table} (hsize : mov.size t = (t.final s pkts).length)
    (page : Nat → UInt32) :
    ∃ page', (mov.withPage page).drain t = (t.final s pkts, mov.withPage page') :=
  (h.readable t).drain hsize (h.tinyPages_eq hne hswap t) page

/-! The sizes that are told beforehand. -/

theorem size_stco (h : Finished s start pkts mov) (st : StreamType) :
    mov.size (.stco st) = (chunkOffsets s st pkts).length := by
  rw [h.size (.stco st) fun _ => Table.noConfusion]
  exact List.length_map _

theorem movGetStcoTagSize_eq (h : Finished s start pkts mov) (st : StreamType) :
    movGetStcoTagSize mov st = 8 + (trackTables s st pkts).stcoBody.length := by
  rw [TrackTables.stcoBody, length_numbers, movGetStcoTagSize, size_stco h]
  show (_ + 4) * 4 = 8 + 4 * ((chunkOffsets s st pkts).length + 1 + 1)
  omega

theorem movGetStszTagSize_eq (h : Finished s start pkts mov) (st : StreamType) :
    movGetStszTagSize s mov st = 8 + (trackTables s st pkts).stszBody.length := by
  rw [movGetStszTagSize, TrackTables.stszBody, length_numbers, h.sizes st, trackTables]
  by_cases hpcm : (s.codec st).codecId = .pcm
  · rw [if_pos hpcm, if_pos hpcm, if_pos hpcm]
    rfl
  · rw [if_neg hpcm, if_neg hpcm, if_neg hpcm, sampleCounts_eq hpcm]
    show (_ + 5) * 4 = 8 + 4 * ((sampleSizes s st pkts).length + 1 + 1 + 1)
    rw [sampleSizes, List.length_map]
    omega

theorem size_stsc (h : Finished s start pkts mov) (st : StreamType) :
    (trackTables s st pkts).stsc.length = mov.size (.stsc st) := by
  have hcount : mov.size (.stsc st) = (chunkCounts s st (chunkPackets pkts)).length := by
    rw [h.size (.stsc st) fun _ => Table.noConfusion]
    exact List.length_map _
  rw [hcount]
  show (((chunkCounts s st (chunkPackets pkts)).zipIdx).map _).length = _
  rw [List.length_map, List.length_zipIdx]

theorem movGetStscTagSize_eq (h : Finished s start pkts mov) (st : StreamType) :
    movGetStscTagSize mov st = 8 + (trackTables s st pkts).stscBody.length := by
  have htriples : ((trackTables s st pkts).stsc.flatMap fun e => [e.1, e.2, 1]).length =
      3 * mov.size (.stsc st) := by
    rw [length_triples, size_stsc h]
  rw [TrackTables.stscBody, length_numbers, List.length_cons, List.length_cons, htriples]
  show (mov.size (.stsc st) * 3 + 4) * 4 = _
  omega

theorem size_keys (h : Finished s start pkts mov) : mov.keyFrameNum = (keyNumbers s pkts).length := by
  have hlen := congrArg List.length h.keys
  rwa [length_words, List.length_map] at hlen

theorem movGetStssTagSize_eq (h : Finished s start pkts mov) :
    movGetStssTagSize mov = 8 + (TrackTables.stssBody (keyNumbers s pkts)).length := by
  rw [TrackTables.stssBody, length_numbers, List.length_cons, List.length_cons, movGetStssTagSize,
    size_keys h]
  omega

/-- The frames of video. -/
theorem Finished.size_stts (h : Finished s start pkts mov) :
    mov.size .stts = (packetsOf .video pkts).length := by
  rw [h.size .stts fun _ => Table.noConfusion]
  exact List.length_map _

/-- The duration of the first packet is left out, and a last one is put behind the others. -/
theorem stts_video (s : AVFormatContext) (pkts : List AVPacket) : (trackTables s .video pkts).stts =
    ((durations pkts).tail.map fun d => (1, d.toNat)) ++ [(1, 0)] := by
  show ((durations pkts).tail.map UInt32.toNat ++ [0]).map _ = _
  rw [List.map_append, List.map_map]
  rfl

theorem length_stts_video (h : Finished s start pkts mov) (hsome : packetsOf .video pkts ≠ []) :
    (trackTables s .video pkts).stts.length = mov.size .stts := by
  have hpos := List.length_pos_of_ne_nil hsome
  rw [stts_video, List.length_append, List.length_map, List.length_tail, durations,
    List.length_map, h.size_stts, List.length_singleton]
  omega

theorem movGetSttsTagSize_eq (h : Finished s start pkts mov) (hsome : packetsOf st pkts ≠ []) :
    movGetSttsTagSize mov st = 8 + (trackTables s st pkts).sttsBody.length := by
  rw [TrackTables.sttsBody, length_numbers, List.length_cons, List.length_cons, length_pairs]
  cases st with
  | audio => rfl
  | video =>
    rw [length_stts_video h hsome]
    show 16 + mov.size .stts * 8 = _
    omega

/-! What is written. -/

theorem movWriteStcoTag_eq (h : Finished s start pkts mov) (hne : pkts ≠ [])
    (hswap : ¬ Swapped pkts) (st : StreamType) (page : Nat → UInt32) :
    ∃ page', movWriteStcoTag (mov.withPage page) st =
      ((Atom.leaf (fourcc "stco") (trackTables s st pkts).stcoBody).bytes,
        mov.withPage page') := by
  have hsize := h.size (.stco st) fun _ => Table.noConfusion
  obtain ⟨page', hdrain⟩ := h.drain_eq hne hswap hsize page
  have hbody : (trackTables s st pkts).stcoBody = putBe32 0 ++ putBe32 (mov.size (.stco st)) ++
      putWords ((Table.stco st).final s pkts) := by
    rw [TrackTables.stcoBody, numbers_cons, numbers_cons, size_stco h, ← List.append_assoc]
    exact congrArg _ (putWords_map _).symm
  have htag : movGetStcoTagSize (mov.withPage page) st =
      8 + (trackTables s st pkts).stcoBody.length := movGetStcoTagSize_eq h st
  refine ⟨page', ?_⟩
  unfold movWriteStcoTag
  rw [hdrain, htag]
  refine Prod.ext ?_ rfl
  rw [← leaf_bytes "stco" rfl, hbody]
  simp only [List.append_assoc]
  rfl

theorem movWriteStszTag_eq (h : Finished s start pkts mov) (hne : pkts ≠ [])
    (hswap : ¬ Swapped pkts) (st : StreamType) (page : Nat → UInt32) :
    ∃ page', movWriteStszTag s (mov.withPage page) st =
      ((Atom.leaf (fourcc "stsz") (trackTables s st pkts).stszBody).bytes,
        mov.withPage page') := by
  have hcount : mov.size (.stsz st) = sampleCounts s (packetsOf st pkts) := h.sizes st
  by_cases hpcm : (s.codec st).codecId = .pcm
  · have hbody : (trackTables s st pkts).stszBody = putBe32 0 ++ putBe32 (pcmFrame s st) ++
        putBe32 (mov.size (.stsz st)) := by
      rw [TrackTables.stszBody, trackTables, if_pos hpcm, if_pos hpcm, numbers_cons, numbers_cons,
        numbers_cons, numbers_nil, List.append_nil, hcount, ← List.append_assoc]
    refine ⟨page, ?_⟩
    unfold movWriteStszTag movGetStszTagSize
    rw [if_pos hpcm, if_pos hpcm, ← leaf_bytes "stsz" rfl, hbody]
    refine Prod.ext ?_ rfl
    simp only [List.append_assoc]
    rfl
  · have hsize : mov.size (.stsz st) = ((Table.stsz st).final s pkts).length := by
      rw [hcount, sampleCounts_eq hpcm, Table.final, Table.history, if_neg hpcm, List.length_map,
        sampleSizes, List.length_map]
      exact fun _ => Table.noConfusion
    obtain ⟨page', hdrain⟩ := h.drain_eq hne hswap hsize page
    have hfinal : (Table.stsz st).final s pkts = (sampleSizes s st pkts).map UInt32.ofNat := by
      rw [Table.final, Table.history, if_neg hpcm]
      exact fun _ => Table.noConfusion
    have hbody : (trackTables s st pkts).stszBody = putBe32 0 ++ putBe32 0 ++
        putBe32 (mov.size (.stsz st)) ++ putWords ((Table.stsz st).final s pkts) := by
      rw [TrackTables.stszBody, trackTables, if_neg hpcm, if_neg hpcm, numbers_cons, numbers_cons,
        numbers_cons, hcount, hfinal, putWords_map]
      simp only [List.append_assoc]
    have htag : movGetStszTagSize s (mov.withPage page) st =
        8 + (trackTables s st pkts).stszBody.length := movGetStszTagSize_eq h st
    refine ⟨page', ?_⟩
    unfold movWriteStszTag
    rw [if_neg hpcm, hdrain, htag]
    refine Prod.ext ?_ rfl
    rw [← leaf_bytes "stsz" rfl, hbody]
    simp only [List.append_assoc]
    rfl

theorem movWriteStscTag_eq (h : Finished s start pkts mov) (hne : pkts ≠ [])
    (hswap : ¬ Swapped pkts) (st : StreamType) (page : Nat → UInt32) :
    ∃ page', movWriteStscTag (mov.withPage page) st =
      ((Atom.leaf (fourcc "stsc") (trackTables s st pkts).stscBody).bytes,
        mov.withPage page') := by
  have hsize := h.size (.stsc st) fun _ => Table.noConfusion
  obtain ⟨page', hdrain⟩ := (h.readable (.stsc st)).drainWords hsize
    (h.tinyPages_eq hne hswap (.stsc st)) page
  have hbody : (trackTables s st pkts).stscBody = putBe32 0 ++ putBe32 (mov.size (.stsc st)) ++
      (((Table.stsc st).final s pkts).zipIdx).flatMap stscEntry := by
    rw [TrackTables.stscBody, numbers_cons, numbers_cons, size_stsc h, ← List.append_assoc]
    exact congrArg _ (stscEntries_numbers _ 0).symm
  have htag : movGetStscTagSize (mov.withPage page) st =
      8 + (trackTables s st pkts).stscBody.length := movGetStscTagSize_eq h st
  refine ⟨page', ?_⟩
  unfold movWriteStscTag
  rw [hdrain, htag]
  refine Prod.ext ?_ rfl
  rw [← leaf_bytes "stsc" rfl, hbody]
  simp only [List.append_assoc]
  rfl

theorem movWriteStssTag_eq (h : Finished s start pkts mov) :
    movWriteStssTag mov =
      (Atom.leaf (fourcc "stss") (TrackTables.stssBody (keyNumbers s pkts))).bytes := by
  have hbody : TrackTables.stssBody (keyNumbers s pkts) = putBe32 0 ++ putBe32 mov.keyFrameNum ++
      putWords (words mov.cacheKeyframe 0 mov.keyFrameNum) := by
    rw [TrackTables.stssBody, numbers_cons, numbers_cons, h.keys, putWords_map, size_keys h,
      List.append_assoc]
  rw [movWriteStssTag, movGetStssTagSize_eq h, ← leaf_bytes "stss" rfl, hbody]
  simp only [List.append_assoc]

theorem movWriteSttsTag_eq (h : Finished s start pkts mov) (hne : pkts ≠ [])
    (hswap : ¬ Swapped pkts) (hsome : packetsOf st pkts ≠ []) (page : Nat → UInt32) :
    ∃ page', movWriteSttsTag s (mov.withPage page) st =
      ((Atom.leaf (fourcc "stts") (trackTables s st pkts).sttsBody).bytes,
        mov.withPage page') := by
  cases st with
  | audio =>
    refine ⟨page, ?_⟩
    refine Prod.ext ?_ rfl
    have hbody : (trackTables s .audio pkts).sttsBody = putBe32 0 ++ putBe32 1 ++
        putBe32 (mov.size (.stsz .audio)) ++
          putBe32 (if (s.codec .audio).codecId = .pcm then 1 else (s.codec .audio).frameSize) := by
      rw [h.sizes .audio]
      rw [TrackTables.sttsBody, numbers_cons, numbers_cons]
      show putBe32 0 ++ (putBe32 1 ++ numbers [_, _]) = _
      rw [numbers_cons, numbers_cons, numbers_nil, List.append_nil]
      simp only [List.append_assoc]
    have hlen : 8 + (trackTables s .audio pkts).sttsBody.length = 24 := by
      rw [hbody]
      simp only [List.length_append, length_putBe32]
    rw [← leaf_bytes "stts" rfl, hlen, hbody]
    simp only [List.append_assoc]
    rfl
  | video =>
    obtain ⟨page', hdrain⟩ := h.drain_eq hne hswap
      (h.size .stts fun _ => Table.noConfusion) page
    have hfinal : Table.stts.final s pkts = durations pkts := by
      rw [Table.final, Table.history]
      exact fun _ => Table.noConfusion
    have hbody : (trackTables s .video pkts).sttsBody = putBe32 0 ++ putBe32 (mov.size .stts) ++
        ((durations pkts).tail.flatMap sttsEntry ++ sttsEntry 0) := by
      rw [TrackTables.sttsBody, numbers_cons, numbers_cons, length_stts_video h hsome, stts_video,
        List.flatMap_append,
        numbers_append, ← sttsEntries_numbers, List.append_assoc]
      rfl
    have htag : movGetSttsTagSize (mov.withPage page) .video =
        8 + (trackTables s .video pkts).sttsBody.length := by
      have hsize := movGetSttsTagSize_eq h hsome
      exact hsize
    refine ⟨page', ?_⟩
    unfold movWriteSttsTag
    simp only [hdrain, htag, hfinal]
    refine Prod.ext ?_ rfl
    rw [← leaf_bytes "stts" rfl, hbody]
    simp only [List.append_assoc]
    rfl

/-- **All tables of a track**, one behind the other. -/
theorem movWriteTables_eq (h : Finished s start pkts mov) (hne : pkts ≠ [])
    (hswap : ¬ Swapped pkts) (hsome : packetsOf st pkts ≠ []) (page : Nat → UInt32) :
    ∃ page', movWriteTables s (mov.withPage page) st =
      (Atom.allBytes (trackTables s st pkts).atoms, mov.withPage page') := by
  obtain ⟨page₁, hstts⟩ := movWriteSttsTag_eq h hne hswap hsome page
  obtain ⟨page₂, hstsc⟩ := movWriteStscTag_eq h hne hswap st page₁
  obtain ⟨page₃, hstsz⟩ := movWriteStszTag_eq h hne hswap st page₂
  obtain ⟨page₄, hstco⟩ := movWriteStcoTag_eq h hne hswap st page₃
  have hstss : (if st = .video then movWriteStssTag (mov.withPage page₁) else []) =
      Atom.allBytes ((trackTables s st pkts).stss.toList.map fun keys =>
        Atom.leaf (fourcc "stss") (TrackTables.stssBody keys)) := by
    show _ = Atom.allBytes ((if st = .video then some (keyNumbers s pkts) else none).toList.map _)
    cases st with
    | video =>
      rw [if_pos rfl, if_pos rfl]
      refine (movWriteStssTag_eq h).trans ?_
      rw [Option.toList_some, List.map_singleton, Atom.allBytes_cons, Atom.allBytes_nil,
        List.append_nil]
    | audio =>
      rw [if_neg (by decide), if_neg (by decide), Option.toList_none, List.map_nil,
        Atom.allBytes_nil]
  refine ⟨page₄, ?_⟩
  unfold movWriteTables
  simp only [hstts, hstsc, hstsz, hstco, hstss]
  refine Prod.ext ?_ rfl
  rw [TrackTables.atoms, Atom.allBytes_append, Atom.allBytes_append, Atom.allBytes_cons,
    Atom.allBytes_nil, List.append_nil, Atom.allBytes_cons, Atom.allBytes_cons, Atom.allBytes_cons,
    Atom.allBytes_nil, List.append_nil]
  simp only [List.append_assoc]

end

end Maixii.Mp4
