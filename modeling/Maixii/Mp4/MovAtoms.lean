import Maixii.Mp4.TrackTables

/-!
# `Mp4/MovAtoms.lean`: every box is as long as it says

The tree of boxes that `moov` is, and that `mov_write_moov_tag` writes it (`moovBytes_eq`): in
`Atom.bytes` a size is computed from the content, so both functions of every box agree. The one box
whose functions can differ is `avcC`; that they do not is a field of `Described`.
-/

set_option autoImplicit false

namespace Maixii.Mp4

open Maixii.Lib

/-! ## The tree -/

section

variable (s : AVFormatContext) (st : StreamType) (pkts : List AVPacket) (avcc : Bytes)

def esdsAtom : Atom := .leaf (fourcc "esds") (esdsBody s st)

def videoAtom : Atom :=
  .box (trackTag s .video) (videoFields s)
    (if trackTag s .video = fourcc "avc1" then [.leaf (fourcc "avcC") avcc]
    else if trackTag s .video = fourcc "mp4v" then [esdsAtom s .video]
    else [])

def audioAtom : Atom :=
  .box (trackTag s .audio) (audioFields s)
    (if trackTag s .audio = fourcc "mp4a" then [esdsAtom s .audio] else [])

/-- The one description of the samples. -/
def entryAtom : Atom :=
  match st with
  | .video => videoAtom s avcc
  | .audio => audioAtom s

def stsdAtom : Atom := .box (fourcc "stsd") (putBe32 0 ++ putBe32 1) [entryAtom s st avcc]

def stblAtom : Atom :=
  .box (fourcc "stbl") [] (stsdAtom s st avcc :: (trackTables s st pkts).atoms)

def drefAtom : Atom :=
  .box (fourcc "dref") (putBe32 0 ++ putBe32 1) [.leaf (fourcc "url ") (putBe32 1)]

def dinfAtom : Atom := .box (fourcc "dinf") [] [drefAtom]

def mediaAtom : Atom :=
  match st with
  | .video => .leaf (fourcc "vmhd") (putBe32 1 ++ putBe32 0 ++ putBe32 0)
  | .audio => .leaf (fourcc "smhd") (putBe32 0 ++ putBe16 0 ++ putBe16 0)

def minfAtom : Atom :=
  .box (fourcc "minf") [] [mediaAtom st, dinfAtom, stblAtom s st pkts avcc]

def mdhdAtom : Atom := .leaf (fourcc "mdhd") (mdhdBody s st)

def hdlrAtom : Atom := .leaf (fourcc "hdlr") (hdlrBody st)

def mdiaAtom : Atom :=
  .box (fourcc "mdia") [] [mdhdAtom s st, hdlrAtom st, minfAtom s st pkts avcc]

/-- The duration in the time scale of the movie, rounded up. -/
def movieDuration : Nat :=
  (s.trackDuration st * globalTimescale + timescale s st - 1) / timescale s st

def tkhdAtom : Atom := .leaf (fourcc "tkhd") (tkhdBody s st (movieDuration s st))

def trakAtom : Atom := .box (fourcc "trak") [] [tkhdAtom s st, mdiaAtom s st pkts avcc]

/-- The tracks that have a sample. -/
def present : List StreamType :=
  [StreamType.video, .audio].filter fun st => sampleCounts s (packetsOf st pkts) ≠ 0

def moovKids : List Atom :=
  Atom.leaf (fourcc "mvhd") (mvhdBody s) :: (present s pkts).map (trakAtom s · pkts avcc) ++
    if s.geoAvailable then [Atom.leaf (fourcc "gps ") (putBe32 0x00000101 ++ putBe32 0)] else []

/-- **The movie box.** -/
def moovAtom : Atom := .box (fourcc "moov") [] (moovKids s pkts avcc)

end

/-- **What is described can be written**: a codec that is not left out, codec data of which both
functions say the same, and a time scale for a track that is there. -/
structure Described (s : AVFormatContext) (pkts : List AVPacket) (addr : Nat) (avcc : Bytes) :
    Prop where
  codec : (s.codec .video).codecId ≠ .h265
  avcc_size : (s.codec .video).codecId = .h264 →
    ffIsomGetAvccSize (s.vosData .video) addr = some avcc.length
  avcc_write : (s.codec .video).codecId = .h264 →
    ffIsomWriteAvcc (s.vosData .video) addr = some avcc
  timescale_ne : ∀ st, packetsOf st pkts ≠ [] → timescale s st ≠ 0

/-! ## Lengths -/

@[simp] theorem length_putBe16 (v : Nat) : (putBe16 v).length = 2 := rfl

@[simp] theorem length_putBe24 (v : Nat) : (putBe24 v).length = 3 := rfl

theorem one_le_descrGroups (len n i : Nat) (hi : 1 ≤ i) : 1 ≤ descrGroups len n i := by
  induction n generalizing i with
  | zero => exact hi
  | succ n ih =>
    rw [descrGroups]
    split
    · exact hi
    · exact ih (i + 1) (by omega)

theorem length_descrHigh (size i : Nat) : (descrHigh size i).length = i := by
  induction i with
  | zero => rfl
  | succ i ih => rw [descrHigh, List.length_cons, ih]

/-- **A descriptor is as long as `descrLength` says**, with its content. -/
theorem length_putDescr (tag size : Nat) : (putDescr tag size).length + size = descrLength size := by
  have hone := one_le_descrGroups size 4 1 (Nat.le_refl _)
  have hlen : descrLength size = size + 1 + descrGroups size 4 1 := rfl
  simp only [putDescr, List.length_append, List.length_singleton, length_descrHigh]
  omega

theorem length_esdsBody (s : AVFormatContext) (st : StreamType) :
    movGetEsdsTagSize s st = 8 + (esdsBody s st).length := by
  have hinfo : (if s.vosData st = [] then []
      else putDescr 0x05 (s.vosData st).length ++ s.vosData st).length =
        decoderSpecificInfoLen (s.vosData st) := by
    unfold decoderSpecificInfoLen
    split
    · rfl
    · rw [List.length_append, length_putDescr]
  have houter := length_putDescr 0x03
    (3 + descrLength (13 + decoderSpecificInfoLen (s.vosData st)) + descrLength 1)
  have hinner := length_putDescr 0x04 (13 + decoderSpecificInfoLen (s.vosData st))
  have hsl := length_putDescr 0x06 1
  simp only [esdsBody, movGetEsdsTagSize, List.length_append, hinfo, length_putBe32, length_putBe16,
    List.length_cons, List.length_nil]
  omega

theorem length_videoFields (s : AVFormatContext) : (videoFields s).length = 78 := by
  simp only [videoFields, List.length_append, length_putBe32, length_putBe16, List.length_cons,
    List.length_nil, List.length_replicate]

theorem length_audioFields (s : AVFormatContext) :
    (audioFields s).length = 28 + if soundVersion s = 1 then 16 else 0 := by
  unfold audioFields
  split
  · simp only [List.length_append, length_putBe32, length_putBe16]
  · simp only [List.length_append, length_putBe32, length_putBe16, List.length_nil]

theorem length_tkhdBody (s : AVFormatContext) (st : StreamType) (duration : Nat) :
    (tkhdBody s st duration).length = 84 := by
  unfold tkhdBody
  rcases rotation (s.codec st).rotateDegree with ⟨a, b, c, d⟩
  simp only [List.length_append, length_putBe32, length_putBe16, length_putBe24, List.length_cons,
    List.length_nil, Nat.reduceAdd]

theorem length_mdhdBody (s : AVFormatContext) (st : StreamType) : (mdhdBody s st).length = 24 := by
  simp only [mdhdBody, List.length_append, length_putBe32, length_putBe16, length_putBe24,
    List.length_cons, List.length_nil]

theorem length_mvhdBody (s : AVFormatContext) : (mvhdBody s).length = 100 := by
  unfold mvhdBody
  simp only [List.length_append, length_putBe32, length_putBe16, length_putBe24, List.length_cons,
    List.length_nil]

/-! ## Boxes without tables -/

/-- A box as the code writes one, of which the size is told beforehand. -/
theorem atom_bytes {size : Nat} {name head rest : Bytes} {i : FourCC} {kids : List Atom}
    (hname : i.bytes = name) (hrest : rest = Atom.allBytes kids)
    (hsize : size = (Atom.box i head kids).bytes.length) :
    putBe32 size ++ name ++ head ++ rest = (Atom.box i head kids).bytes := by
  rw [Atom.length_bytes, Atom.body_box, List.length_append, ← Nat.add_assoc] at hsize
  rw [Atom.bytes, hname, hrest, hsize, putBe32_eq]

/-- The same for a box that holds boxes only. -/
theorem node_bytes (name : String) (hname : (fourcc name).bytes = ascii name) {rest : Bytes}
    {kids : List Atom} (hrest : rest = Atom.allBytes kids) :
    putBe32 (Atom.box (fourcc name) [] kids).bytes.length ++ ascii name ++ rest =
      (Atom.box (fourcc name) [] kids).bytes := by
  have hbytes := atom_bytes hname hrest (rfl : (Atom.box (fourcc name) [] kids).bytes.length = _)
  rwa [List.append_nil] at hbytes

theorem length_box (i : FourCC) (head : Bytes) (kids : List Atom) :
    (Atom.box i head kids).bytes.length = 8 + head.length + (Atom.allBytes kids).length := by
  rw [Atom.length_bytes, Atom.body_box, List.length_append, Nat.add_assoc]

theorem length_leaf (i : FourCC) (content : Bytes) :
    (Atom.leaf i content).bytes.length = 8 + content.length := by
  rw [Atom.length_bytes, Atom.body_leaf]

theorem allBytes_one (a : Atom) : Atom.allBytes [a] = a.bytes := by
  rw [Atom.allBytes_cons, Atom.allBytes_nil, List.append_nil]

theorem allBytes_two (a b : Atom) : Atom.allBytes [a, b] = a.bytes ++ b.bytes := by
  rw [Atom.allBytes_cons, allBytes_one]

theorem allBytes_three (a b c : Atom) : Atom.allBytes [a, b, c] = a.bytes ++ b.bytes ++ c.bytes := by
  rw [Atom.allBytes_cons, allBytes_two, List.append_assoc]

section

variable {s : AVFormatContext} {st : StreamType} {pkts : List AVPacket} {addr : Nat} {avcc : Bytes}

theorem movWriteEsdsTag_eq (s : AVFormatContext) (st : StreamType) :
    movWriteEsdsTag s st = (esdsAtom s st).bytes := by
  rw [movWriteEsdsTag, length_esdsBody]
  exact leaf_bytes "esds" rfl _

/-- Each codec has a tag of its own. -/
theorem trackTag_eq_avc1 : trackTag s st = fourcc "avc1" ↔ (s.codec st).codecId = .h264 := by
  unfold trackTag
  cases (s.codec st).codecId <;> decide

theorem trackTag_ne_hvc1 (h : (s.codec st).codecId ≠ .h265) : trackTag s st ≠ fourcc "hvc1" := by
  unfold trackTag
  revert h
  cases (s.codec st).codecId <;> decide

/-- **The description of the video**, if `avcC` is as it is told. -/
theorem Described.video (h : Described s pkts addr avcc) :
    movGetVideoTagSize s addr = some (videoAtom s avcc).bytes.length ∧
      movWriteVideoTag s addr = some (videoAtom s avcc).bytes := by
  have hhead := length_videoFields s
  by_cases havc : trackTag s .video = fourcc "avc1"
  · have hcodec := trackTag_eq_avc1.mp havc
    have hatom : videoAtom s avcc = .box (trackTag s .video) (videoFields s)
        [.leaf (fourcc "avcC") avcc] := by rw [videoAtom, if_pos havc]
    have hsize : movGetVideoTagSize s addr = some (videoAtom s avcc).bytes.length := by
      rw [movGetVideoTagSize, if_pos havc, movGetAvccTagSize, h.avcc_size hcodec, hatom, length_box,
        allBytes_one, length_leaf, hhead]
      rfl
    refine ⟨hsize, ?_⟩
    have hextra : videoExtra s addr = some (Atom.leaf (fourcc "avcC") avcc).bytes := by
      rw [videoExtra, if_pos havc, movWriteAvccTag, movGetAvccTagSize, h.avcc_size hcodec,
        h.avcc_write hcodec, ← leaf_bytes "avcC" rfl]
      rfl
    rw [movWriteVideoTag, hsize, hextra, Option.bind_some, Option.map_some, hatom]
    exact congrArg some (atom_bytes rfl (allBytes_one _).symm rfl)
  by_cases hmp4 : trackTag s .video = fourcc "mp4v"
  · have hatom : videoAtom s avcc = .box (trackTag s .video) (videoFields s)
        [esdsAtom s .video] := by rw [videoAtom, if_neg havc, if_pos hmp4]
    have hsize : movGetVideoTagSize s addr = some (videoAtom s avcc).bytes.length := by
      rw [movGetVideoTagSize, if_neg havc, if_pos hmp4, hatom, length_box, allBytes_one, esdsAtom,
        length_leaf, hhead, length_esdsBody]
    refine ⟨hsize, ?_⟩
    have hextra : videoExtra s addr = some (esdsAtom s .video).bytes := by
      rw [videoExtra, if_neg havc, if_pos hmp4, movWriteEsdsTag_eq]
    rw [movWriteVideoTag, hsize, hextra, Option.bind_some, Option.map_some, hatom]
    exact congrArg some (atom_bytes rfl (allBytes_one _).symm rfl)
  · have hhvc : trackTag s .video ≠ fourcc "hvc1" := trackTag_ne_hvc1 h.codec
    have hatom : videoAtom s avcc = .box (trackTag s .video) (videoFields s) [] := by
      rw [videoAtom, if_neg havc, if_neg hmp4]
    have hsize : movGetVideoTagSize s addr = some (videoAtom s avcc).bytes.length := by
      rw [movGetVideoTagSize, if_neg havc, if_neg hmp4, if_neg hhvc, hatom, length_box,
        Atom.allBytes_nil, List.length_nil, hhead]
    refine ⟨hsize, ?_⟩
    have hextra : videoExtra s addr = some [] := by
      rw [videoExtra, if_neg havc, if_neg hmp4, if_neg hhvc]
    rw [movWriteVideoTag, hsize, hextra, Option.bind_some, Option.map_some, hatom]
    exact congrArg some (atom_bytes rfl Atom.allBytes_nil.symm rfl)

theorem audio_eq (s : AVFormatContext) :
    movGetAudioTagSize s = (audioAtom s).bytes.length ∧
      movWriteAudioTag s = (audioAtom s).bytes := by
  have hhead := length_audioFields s
  have hsize : movGetAudioTagSize s = (audioAtom s).bytes.length := by
    rw [audioAtom, length_box, hhead, movGetAudioTagSize]
    by_cases hmp4 : trackTag s .audio = fourcc "mp4a"
    · rw [if_pos hmp4, if_pos hmp4, allBytes_one, esdsAtom, length_leaf, length_esdsBody]
      omega
    · rw [if_neg hmp4, if_neg hmp4, Atom.allBytes_nil, List.length_nil]
      omega
  refine ⟨hsize, ?_⟩
  rw [movWriteAudioTag, hsize]
  refine atom_bytes rfl ?_ rfl
  by_cases hmp4 : trackTag s .audio = fourcc "mp4a"
  · rw [if_pos hmp4, if_pos hmp4, allBytes_one, movWriteEsdsTag_eq]
  · rw [if_neg hmp4, if_neg hmp4, Atom.allBytes_nil]

theorem Described.stsd (h : Described s pkts addr avcc) (st : StreamType) :
    movGetStsdTagSize s st addr = some (stsdAtom s st avcc).bytes.length ∧
      movWriteStsdTag s st addr = some (stsdAtom s st avcc).bytes := by
  have hlen : (stsdAtom s st avcc).bytes.length = 16 + (entryAtom s st avcc).bytes.length := by
    rw [stsdAtom, length_box, allBytes_one]
    rfl
  have hsize : movGetStsdTagSize s st addr = some (stsdAtom s st avcc).bytes.length := by
    rw [hlen]
    cases st with
    | video => rw [movGetStsdTagSize, h.video.1]; rfl
    | audio => rw [movGetStsdTagSize, (audio_eq s).1]; rfl
  refine ⟨hsize, ?_⟩
  have hentry : movWriteEntryTag s st addr = some (entryAtom s st avcc).bytes := by
    cases st with
    | video => exact h.video.2
    | audio => exact congrArg some (audio_eq s).2
  rw [movWriteStsdTag, hsize, hentry, Option.bind_some, Option.map_some,
    List.append_assoc (_ ++ _) (putBe32 0)]
  exact congrArg some (atom_bytes rfl (allBytes_one _).symm rfl)

theorem movWriteDinfTag_eq : movWriteDinfTag = dinfAtom.bytes := by decide

theorem length_dinfAtom : dinfAtom.bytes.length = movGetDinfTagSize := by decide

theorem movWriteMediaTag_eq (st : StreamType) : movWriteMediaTag st = (mediaAtom st).bytes := by
  cases st <;> decide

theorem length_mediaAtom (st : StreamType) :
    (mediaAtom st).bytes.length = movGetMediaTagSize st := by
  cases st <;> decide

theorem movWriteHdlrTag_eq (st : StreamType) : movWriteHdlrTag st = (hdlrAtom st).bytes := by
  cases st <;> decide

theorem length_hdlrAtom (st : StreamType) : (hdlrAtom st).bytes.length = movGetHdlrTagSize st := by
  cases st <;> decide

theorem movWriteMdhdTag_eq (s : AVFormatContext) (st : StreamType) :
    movWriteMdhdTag s st = (mdhdAtom s st).bytes := by
  have hlen : movGetMdhdTagSize = 8 + (mdhdBody s st).length := by rw [length_mdhdBody]; rfl
  rw [movWriteMdhdTag, hlen]
  exact leaf_bytes "mdhd" rfl _

theorem Described.tkhd (h : Described s pkts addr avcc) (hsome : packetsOf st pkts ≠ []) :
    movWriteTkhdTag s st = some (tkhdAtom s st).bytes := by
  have hlen : movGetTkhdTagSize = 8 + (tkhdBody s st (movieDuration s st)).length := by
    rw [length_tkhdBody]
    rfl
  rw [movWriteTkhdTag, avRescaleRnd, if_neg (h.timescale_ne st hsome), Option.map_some, hlen]
  exact congrArg some (leaf_bytes "tkhd" rfl _)

/-! ## A track -/

variable {start : OutFile} {mov : MovContext}

/-- The sizes of the tables are told beforehand too. -/
theorem length_tables (h : Finished s start pkts mov) (hsome : packetsOf st pkts ≠ []) :
    movGetSttsTagSize mov st + (if st = .video then movGetStssTagSize mov else 0) +
      movGetStscTagSize mov st + movGetStszTagSize s mov st + movGetStcoTagSize mov st =
        (Atom.allBytes (trackTables s st pkts).atoms).length := by
  rw [movGetSttsTagSize_eq h hsome, movGetStscTagSize_eq h, movGetStszTagSize_eq h,
    movGetStcoTagSize_eq h, TrackTables.atoms, Atom.allBytes_append, Atom.allBytes_append,
    allBytes_one, allBytes_three]
  simp only [List.length_append, length_leaf]
  have hstss : (if st = .video then movGetStssTagSize mov else 0) =
      (Atom.allBytes ((trackTables s st pkts).stss.toList.map fun keys =>
        Atom.leaf (fourcc "stss") (TrackTables.stssBody keys))).length := by
    show _ = (Atom.allBytes ((if st = .video then some (keyNumbers s pkts)
      else none).toList.map _)).length
    cases st with
    | video =>
      rw [if_pos rfl, if_pos rfl, movGetStssTagSize_eq h, Option.toList_some, List.map_singleton,
        allBytes_one, length_leaf]
    | audio =>
      rw [if_neg (by decide), if_neg (by decide), Option.toList_none, List.map_nil,
        Atom.allBytes_nil, List.length_nil]
  omega

/-- The tiny page says nothing about sizes. -/
theorem sizes_withPage (page : Nat → UInt32) :
    movGetStblTagSize s (mov.withPage page) st addr = movGetStblTagSize s mov st addr := by
  cases st <;> rfl

theorem Described.stbl (h : Described s pkts addr avcc) (hfin : Finished s start pkts mov)
    (hne : pkts ≠ []) (hswap : ¬ Swapped pkts) (hsome : packetsOf st pkts ≠ [])
    (page : Nat → UInt32) :
    movGetStblTagSize s mov st addr = some (stblAtom s st pkts avcc).bytes.length ∧
      ∃ page', movWriteStblTag s (mov.withPage page) st addr =
        some ((stblAtom s st pkts avcc).bytes, mov.withPage page') := by
  have hsize : movGetStblTagSize s mov st addr = some (stblAtom s st pkts avcc).bytes.length := by
    have htables := length_tables hfin hsome
    rw [movGetStblTagSize, (h.stsd st).1, Option.map_some, stblAtom, length_box, Atom.allBytes_cons,
      List.length_append, List.length_nil]
    refine congrArg some ?_
    omega
  refine ⟨hsize, ?_⟩
  obtain ⟨page', htables⟩ := movWriteTables_eq hfin hne hswap hsome page
  refine ⟨page', ?_⟩
  rw [movWriteStblTag, sizes_withPage, hsize, (h.stsd st).2, Option.bind_some, Option.map_some, htables]
  refine congrArg some (Prod.ext ?_ rfl)
  show putBe32 _ ++ ascii "stbl" ++ (stsdAtom s st avcc).bytes ++ _ = _
  rw [List.append_assoc (_ ++ _)]
  exact node_bytes "stbl" rfl (Atom.allBytes_cons _ _).symm

theorem Described.minf (h : Described s pkts addr avcc) (hfin : Finished s start pkts mov)
    (hne : pkts ≠ []) (hswap : ¬ Swapped pkts) (hsome : packetsOf st pkts ≠ [])
    (page : Nat → UInt32) :
    movGetMinfTagSize s mov st addr = some (minfAtom s st pkts avcc).bytes.length ∧
      ∃ page', movWriteMinfTag s (mov.withPage page) st addr =
        some ((minfAtom s st pkts avcc).bytes, mov.withPage page') := by
  obtain ⟨hstbl, page', hwrite⟩ := h.stbl hfin hne hswap hsome page
  have hsize : ∀ mov : MovContext, movGetStblTagSize s mov st addr =
      some (stblAtom s st pkts avcc).bytes.length →
        movGetMinfTagSize s mov st addr = some (minfAtom s st pkts avcc).bytes.length := by
    intro mov hstbl
    rw [movGetMinfTagSize, hstbl, Option.map_some, minfAtom, length_box, allBytes_three,
      List.length_append, List.length_append, length_mediaAtom, length_dinfAtom, List.length_nil]
    refine congrArg some ?_
    omega
  refine ⟨hsize mov hstbl, page', ?_⟩
  rw [movWriteMinfTag, hsize (mov.withPage page) ((sizes_withPage page).trans hstbl), hwrite,
    Option.bind_some, Option.map_some]
  refine congrArg some (Prod.ext ?_ rfl)
  show putBe32 _ ++ ascii "minf" ++ movWriteMediaTag st ++ movWriteDinfTag ++ _ = _
  rw [List.append_assoc (_ ++ _ ++ _), List.append_assoc (_ ++ _)]
  refine node_bytes "minf" rfl ?_
  rw [allBytes_three, movWriteMediaTag_eq, movWriteDinfTag_eq, List.append_assoc]

theorem Described.mdia (h : Described s pkts addr avcc) (hfin : Finished s start pkts mov)
    (hne : pkts ≠ []) (hswap : ¬ Swapped pkts) (hsome : packetsOf st pkts ≠ [])
    (page : Nat → UInt32) :
    movGetMdiaTagSize s mov st addr = some (mdiaAtom s st pkts avcc).bytes.length ∧
      ∃ page', movWriteMdiaTag s (mov.withPage page) st addr =
        some ((mdiaAtom s st pkts avcc).bytes, mov.withPage page') := by
  obtain ⟨hminf, page', hwrite⟩ := h.minf hfin hne hswap hsome page
  have hmdhd : (mdhdAtom s st).bytes.length = movGetMdhdTagSize := by
    rw [mdhdAtom, length_leaf, length_mdhdBody]
    rfl
  have hsize : ∀ mov : MovContext, movGetMinfTagSize s mov st addr =
      some (minfAtom s st pkts avcc).bytes.length →
        movGetMdiaTagSize s mov st addr = some (mdiaAtom s st pkts avcc).bytes.length := by
    intro mov hminf
    rw [movGetMdiaTagSize, hminf, Option.map_some, mdiaAtom, length_box, allBytes_three,
      List.length_append, List.length_append, length_hdlrAtom, hmdhd, List.length_nil]
    refine congrArg some ?_
    omega
  refine ⟨hsize mov hminf, page', ?_⟩
  rw [movWriteMdiaTag, hsize (mov.withPage page) ?_, hwrite, Option.bind_some, Option.map_some]
  · refine congrArg some (Prod.ext ?_ rfl)
    show putBe32 _ ++ ascii "mdia" ++ movWriteMdhdTag s st ++ movWriteHdlrTag st ++ _ = _
    rw [List.append_assoc (_ ++ _ ++ _), List.append_assoc (_ ++ _)]
    refine node_bytes "mdia" rfl ?_
    rw [allBytes_three, movWriteMdhdTag_eq, movWriteHdlrTag_eq, List.append_assoc]
  · rw [movGetMinfTagSize, sizes_withPage, ← movGetMinfTagSize, hminf]

theorem Described.trak (h : Described s pkts addr avcc) (hfin : Finished s start pkts mov)
    (hne : pkts ≠ []) (hswap : ¬ Swapped pkts) (hsome : packetsOf st pkts ≠ [])
    (page : Nat → UInt32) :
    movGetTrakTagSize s mov st addr = some (trakAtom s st pkts avcc).bytes.length ∧
      ∃ page', movWriteTrakTag s (mov.withPage page) st addr =
        some ((trakAtom s st pkts avcc).bytes, mov.withPage page') := by
  obtain ⟨hmdia, page', hwrite⟩ := h.mdia hfin hne hswap hsome page
  have htkhd : (tkhdAtom s st).bytes.length = movGetTkhdTagSize := by
    rw [tkhdAtom, length_leaf, length_tkhdBody]
    rfl
  have hsize : ∀ mov : MovContext, movGetMdiaTagSize s mov st addr =
      some (mdiaAtom s st pkts avcc).bytes.length →
        movGetTrakTagSize s mov st addr = some (trakAtom s st pkts avcc).bytes.length := by
    intro mov hmdia
    rw [movGetTrakTagSize, hmdia, Option.map_some, trakAtom, length_box, allBytes_two,
      List.length_append, htkhd, List.length_nil]
    refine congrArg some ?_
    omega
  refine ⟨hsize mov hmdia, page', ?_⟩
  rw [movWriteTrakTag, hsize (mov.withPage page) ?_, h.tkhd hsome, hwrite, Option.bind_some,
    Option.bind_some, Option.map_some]
  · refine congrArg some (Prod.ext ?_ rfl)
    show putBe32 _ ++ ascii "trak" ++ (tkhdAtom s st).bytes ++ _ = _
    rw [List.append_assoc (_ ++ _)]
    exact node_bytes "trak" rfl (allBytes_two _ _).symm
  · rw [movGetMdiaTagSize, movGetMinfTagSize, sizes_withPage, ← movGetMinfTagSize,
      ← movGetMdiaTagSize, hmdia]

/-! ## The movie -/

/-- A track without a packet has no sample. -/
theorem packetsOf_ne_of_samples (h : sampleCounts s (packetsOf st pkts) ≠ 0) :
    packetsOf st pkts ≠ [] := by
  intro hnil
  rw [hnil] at h
  exact h rfl

/-- The boxes of a track that has a sample. -/
def trakAtoms (s : AVFormatContext) (pkts : List AVPacket) (avcc : Bytes) (st : StreamType) :
    List Atom :=
  if sampleCounts s (packetsOf st pkts) = 0 then [] else [trakAtom s st pkts avcc]

theorem present_map (s : AVFormatContext) (pkts : List AVPacket) (avcc : Bytes) :
    (present s pkts).map (trakAtom s · pkts avcc) =
      trakAtoms s pkts avcc .video ++ trakAtoms s pkts avcc .audio := by
  unfold present trakAtoms
  by_cases hv : sampleCounts s (packetsOf .video pkts) = 0
  · by_cases ha : sampleCounts s (packetsOf .audio pkts) = 0
    · simp [hv, ha]
    · simp [hv, ha]
  · by_cases ha : sampleCounts s (packetsOf .audio pkts) = 0
    · simp [hv, ha]
    · simp [hv, ha]

theorem Described.trakSize (h : Described s pkts addr avcc) (hfin : Finished s start pkts mov)
    (hne : pkts ≠ []) (hswap : ¬ Swapped pkts) (st : StreamType) :
    trakSize s mov addr st = some (Atom.allBytes (trakAtoms s pkts avcc st)).length := by
  rw [Mp4.trakSize, hfin.sizes st, trakAtoms]
  by_cases hzero : sampleCounts s (packetsOf st pkts) = 0
  · rw [if_pos hzero, if_pos hzero, Atom.allBytes_nil]
    rfl
  · rw [if_neg hzero, if_neg hzero, allBytes_one]
    exact (h.trak hfin hne hswap (packetsOf_ne_of_samples hzero) mov.cacheTinyPage).1

theorem Described.writeTrak (h : Described s pkts addr avcc) (hfin : Finished s start pkts mov)
    (hne : pkts ≠ []) (hswap : ¬ Swapped pkts) (st : StreamType) (page : Nat → UInt32) :
    ∃ page', writeTrak s (mov.withPage page) addr st =
      some (Atom.allBytes (trakAtoms s pkts avcc st), mov.withPage page') := by
  have hcount : (mov.withPage page).size (.stsz st) = sampleCounts s (packetsOf st pkts) :=
    hfin.sizes st
  rw [Mp4.writeTrak, hcount, trakAtoms]
  by_cases hzero : sampleCounts s (packetsOf st pkts) = 0
  · rw [if_pos hzero, if_pos hzero, Atom.allBytes_nil]
    exact ⟨page, rfl⟩
  · rw [if_neg hzero, if_neg hzero, allBytes_one]
    exact (h.trak hfin hne hswap (packetsOf_ne_of_samples hzero) page).2

/-- The GPS box has no entries. -/
def gpsAtoms (s : AVFormatContext) : List Atom :=
  if s.geoAvailable then [Atom.leaf (fourcc "gps ") (putBe32 0x00000101 ++ putBe32 0)] else []

theorem gps_eq (s : AVFormatContext) :
    (if s.geoAvailable then movWriteGpsTag gpsEntryBuff else []) = Atom.allBytes (gpsAtoms s) ∧
      (if s.geoAvailable then movGetGpsTagSize gpsEntryBuff else 0) =
        (Atom.allBytes (gpsAtoms s)).length := by
  unfold gpsAtoms
  cases s.geoAvailable <;> decide

theorem allBytes_moovKids (s : AVFormatContext) (pkts : List AVPacket) (avcc : Bytes) :
    Atom.allBytes (moovKids s pkts avcc) = movWriteMvhdTag s ++
      Atom.allBytes (trakAtoms s pkts avcc .video) ++
        Atom.allBytes (trakAtoms s pkts avcc .audio) ++ Atom.allBytes (gpsAtoms s) := by
  have hmvhd : movWriteMvhdTag s = (Atom.leaf (fourcc "mvhd") (mvhdBody s)).bytes := by
    have hlen : movGetMvhdTagSize = 8 + (mvhdBody s).length := by
      rw [length_mvhdBody]
      rfl
    rw [movWriteMvhdTag, hlen]
    exact leaf_bytes "mvhd" rfl _
  have hkids : moovKids s pkts avcc = Atom.leaf (fourcc "mvhd") (mvhdBody s) ::
      (trakAtoms s pkts avcc .video ++ trakAtoms s pkts avcc .audio ++ gpsAtoms s) := by
    rw [moovKids, present_map]
    rfl
  rw [hkids, Atom.allBytes_cons, Atom.allBytes_append, Atom.allBytes_append, hmvhd]
  simp only [List.append_assoc]

/-- **The size of the movie box** is told beforehand, -/
theorem Described.moovSize (h : Described s pkts addr avcc) (hfin : Finished s start pkts mov)
    (hne : pkts ≠ []) (hswap : ¬ Swapped pkts) :
    movGetMoovTagSize s mov addr = some (moovAtom s pkts avcc).bytes.length := by
  have hmvhd : (movWriteMvhdTag s).length = movGetMvhdTagSize := by
    rw [movWriteMvhdTag, List.length_append, List.length_append, length_mvhdBody]
    rfl
  rw [movGetMoovTagSize, h.trakSize hfin hne hswap, h.trakSize hfin hne hswap, Option.bind_some,
    Option.map_some, moovAtom, length_box, allBytes_moovKids, (gps_eq s).2]
  simp only [List.length_append, hmvhd, List.length_nil]
  refine congrArg some ?_
  omega

/-- and the whole tree is written. -/
theorem Described.moovBytes (h : Described s pkts addr avcc) (hfin : Finished s start pkts mov)
    (hne : pkts ≠ []) (hswap : ¬ Swapped pkts) :
    ∃ page, moovBytes s mov addr (moovAtom s pkts avcc).bytes.length =
      some ((moovAtom s pkts avcc).bytes, mov.withPage page) := by
  obtain ⟨page₁, hvideo⟩ := h.writeTrak hfin hne hswap .video mov.cacheTinyPage
  obtain ⟨page₂, haudio⟩ := h.writeTrak hfin hne hswap .audio page₁
  refine ⟨page₂, ?_⟩
  have hself : mov.withPage mov.cacheTinyPage = mov := rfl
  rw [hself] at hvideo
  rw [Mp4.moovBytes, hvideo, Option.bind_some]
  show (Mp4.writeTrak s (mov.withPage page₁) addr .audio).map _ = _
  rw [haudio, Option.map_some]
  refine congrArg some (Prod.ext ?_ rfl)
  show putBe32 _ ++ ascii "moov" ++ movWriteMvhdTag s ++ _ ++ _ ++ _ = _
  rw [(gps_eq s).1, List.append_assoc (_ ++ _ ++ _ ++ _), List.append_assoc (_ ++ _ ++ _),
    List.append_assoc (_ ++ _)]
  refine node_bytes "moov" rfl ?_
  rw [allBytes_moovKids]
  simp only [List.append_assoc]

end

end Maixii.Mp4
