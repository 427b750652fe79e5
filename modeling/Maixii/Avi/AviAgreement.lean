import Maixii.Avi.AviStdIndex

/-!
# `Avi/AviAgreement.lean`: whether the counters of a closed file agree

A closed file counts its video frames in the main header, in the header of the stream, in its index
and, with indexes, in the `odml` list. The first two count chunks of video streams. The last counts
all chunks, and without indexes the old index, which is all there is then, has the chunks of the
first section only. The number of streams in the main header counts the calls that have declared
one, also for a stream that there was already. **So the counters agree just when each stream was
declared once, with indexes all chunks are video chunks and, without, all of those are in the first
section** (`counters_agree`), if every super index fits its room.
-/

set_option autoImplicit false

namespace Maixii.Avi

open Maixii.Lib

/-! ## Reading the counters -/

/-- The counters in the headers of a closed file that are about a video stream. -/
structure Counters where
  totalFrames : Nat
  streams : Nat
  strls : Nat
  length : Nat
  odmlFrames : Option Nat

/-- The counters of stream `v`, as a reader of the file finds them: `dwTotalFrames` and `dwStreams`
of `avih`, the number of `strl` lists, `dwLength` of `strh`, and with indexes `dwTotalFrames` of
`dmlh`. -/
def readCounters (v : Nat) (file : Bytes) : Option Counters := do
  let items ← hdrl file
  let avih ← chunkData (fourcc "avih") items
  let stream ← (lists (fourcc "strl") items)[v]?
  let strh ← chunkData (fourcc "strh") stream
  let odml := (lists (fourcc "odml") items).head?.bind (chunkData (fourcc "dmlh"))
  some
    { totalFrames := dword avih 16
      streams := dword avih 24
      strls := (lists (fourcc "strl") items).length
      length := dword strh 32
      odmlFrames := odml.map (dword · 0) }

theorem AVIMAINHEADER.dword_totalFrames {h : AVIMAINHEADER} (hn : h.dwTotalFrames < 2 ^ 32) :
    dword h.body 16 = h.dwTotalFrames := by
  refine dword_at (a := dwords [h.dwMicroSecPerFrame, h.dwMaxBytesPerSec,
    h.dwPaddingGranularity, h.dwFlags]) (b := dwords [h.dwInitialFrames, h.dwStreams,
    h.dwSuggestedBufferSize, h.dwWidth, h.dwHeight, 0, 0, 0, 0]) ?_ rfl hn
  rw [List.append_assoc, ← dwords_cons, ← dwords_append]
  rfl

/-- `dwStreams` is a `DWORD`, however often it was counted. -/
theorem AVIMAINHEADER.dword_streams (h : AVIMAINHEADER) :
    dword h.body 24 = h.dwStreams % 2 ^ 32 := by
  refine dword_at (a := dwords [h.dwMicroSecPerFrame, h.dwMaxBytesPerSec,
    h.dwPaddingGranularity, h.dwFlags, h.dwTotalFrames, h.dwInitialFrames])
    (b := dwords [h.dwSuggestedBufferSize, h.dwWidth, h.dwHeight, 0, 0, 0, 0]) ?_ rfl
    (Nat.mod_lt _ (by decide))
  rw [show (2 : Nat) ^ 32 = 256 ^ 4 from rfl, le_mod, List.append_assoc, ← dwords_cons,
    ← dwords_append]
  rfl

theorem AVISTREAMHEADER.dword_length {h : AVISTREAMHEADER} (hn : h.dwLength < 2 ^ 32) :
    dword h.body 32 = h.dwLength := by
  refine dword_at (a := h.fccType.bytes ++ h.fccHandler.bytes ++ le 4 h.dwFlags ++
      words [h.wPriority, h.wLanguage] ++
      dwords [h.dwInitialFrames, h.dwScale, h.dwRate, h.dwStart])
    (b := dwords [h.dwSuggestedBufferSize, h.dwQuality, h.dwSampleSize] ++
      words [h.left, h.top, h.right, h.bottom]) ?_ rfl hn
  have hcut : dwords [h.dwInitialFrames, h.dwScale, h.dwRate, h.dwStart, h.dwLength,
      h.dwSuggestedBufferSize, h.dwQuality, h.dwSampleSize] =
      dwords [h.dwInitialFrames, h.dwScale, h.dwRate, h.dwStart] ++ (le 4 h.dwLength ++
        dwords [h.dwSuggestedBufferSize, h.dwQuality, h.dwSampleSize]) := by
    rw [← dwords_cons, ← dwords_append]
    rfl
  rw [AVISTREAMHEADER.body, hcut]
  simp only [List.append_assoc]

/-! ## The headers are read -/

theorem lists_append (kind : FourCC) (cs ds : List Riff) :
    lists kind (cs ++ ds) = lists kind cs ++ lists kind ds := by
  induction cs with
  | nil => rfl
  | cons c cs ih =>
    cases c with
    | chunk id data => exact ih
    | list id kind' items =>
      rw [List.cons_append, lists, lists, ih]
      split <;> rfl

/-- What is in a `strl` list. -/
def strlItems (c : AviConfig) (w : AviWriter) (pos : Nat) (s : AviStream) : List Riff :=
  .chunk (fourcc "strh") (w.closedHeader s).body ::
    .chunk (fourcc "strf") (c.formatBody s.streamType) ::
      ((if c.openDML then some (superData c.slots pos s) else none).map
        (Riff.chunk (fourcc "indx"))).toList

theorem lists_strl (c : AviConfig) (w : AviWriter) (pos : Nat) (ss : List AviStream) :
    (lists (fourcc "strl") (strlRiffs c w pos ss)).length = ss.length ∧
      ∀ (i : Nat) (s : AviStream), ss[i]? = some s → ∃ q,
        (lists (fourcc "strl") (strlRiffs c w pos ss))[i]? = some (strlItems c w q s) := by
  induction ss generalizing pos with
  | nil => exact ⟨rfl, fun i s hs => by cases hs⟩
  | cons s ss ih =>
    obtain ⟨hlen, hget⟩ := ih (pos + (ixBytes s.stdIndexes s.stdIndexEntries).length)
    refine ⟨?_, ?_⟩
    · rw [strlRiffs, Row.riff, lists, if_pos rfl, List.length_cons, hlen, List.length_cons]
    · intro i t ht
      rw [strlRiffs, Row.riff, lists, if_pos rfl]
      cases i with
      | zero =>
        obtain rfl := Option.some.inj ht
        exact ⟨pos, rfl⟩
      | succ i => exact hget i t ht

theorem lists_odml (c : AviConfig) (w : AviWriter) (pos : Nat) (ss : List AviStream) :
    lists (fourcc "odml") (strlRiffs c w pos ss) = [] := by
  induction ss generalizing pos with
  | nil => rfl
  | cons s ss ih =>
    rw [strlRiffs, Row.riff, lists, if_neg (by decide), ih]

/-! ## One video stream -/

/-- The video stream has number `v`: there is only video, or there is audio too. -/
def AviConfig.VideoAt (c : AviConfig) (v : Nat) : Prop :=
  (c.streams.map (·.streamType) = [.video] ∧ v = 0) ∨
    (c.streams.map (·.streamType) = [.video, .audio] ∧ v = 0) ∨
      (c.streams.map (·.streamType) = [.audio, .video] ∧ v = 1)

namespace AviConfig.VideoAt

variable {c : AviConfig} {v : Nat}

theorem length_le (h : c.VideoAt v) : v < c.streams.length ∧ c.streams.length ≤ 2 := by
  have hlen : (c.streams.map (·.streamType)).length = c.streams.length := List.length_map _
  rcases h with ⟨hc, rfl⟩ | ⟨hc, rfl⟩ | ⟨hc, rfl⟩
  all_goals
    rw [hc] at hlen
    rw [← hlen]
    decide

/-- The type of a stream. -/
theorem types (h : c.VideoAt v) (i : Nat) : c.streams[i]?.map (·.streamType) =
    if i = v then some .video else if i < c.streams.length then some .audio else none := by
  have hlen : (c.streams.map (·.streamType)).length = c.streams.length := List.length_map _
  rw [← List.getElem?_map]
  rcases h with ⟨hc, rfl⟩ | ⟨hc, rfl⟩ | ⟨hc, rfl⟩
  · rw [hc] at hlen ⊢
    rw [← hlen]
    rcases i with _ | i
    · rfl
    · simp
  · rw [hc] at hlen ⊢
    rw [← hlen]
    rcases i with _ | _ | i
    · rfl
    · rfl
    · simp
  · rw [hc] at hlen ⊢
    rw [← hlen]
    rcases i with _ | _ | i
    · rfl
    · rfl
    · simp

theorem isVideo (h : c.VideoAt v) (i : Nat) : c.isVideo i = decide (i = v) := by
  rw [AviConfig.isVideo, h.types i]
  by_cases hi : i = v
  · rw [if_pos hi]
    exact (decide_eq_true rfl).trans (decide_eq_true hi).symm
  · rw [if_neg hi, decide_eq_false hi]
    split <;> rfl

/-- No other stream has its chunk id. -/
theorem chunkId_inj (h : c.VideoAt v) {i : Nat} (hi : i < c.streams.length) :
    c.chunkId i = c.chunkId v ↔ i = v := by
  have hne : generateFcc "wb" 1 ≠ generateFcc "dc" 0 ∧
      generateFcc "wb" 0 ≠ generateFcc "dc" 1 := by decide
  have htwo := h.length_le
  constructor
  · intro heq
    by_contra hne'
    rw [AviConfig.chunkId, AviConfig.chunkId, h.types i, h.types v, if_neg hne', if_pos hi,
      if_pos rfl] at heq
    -- the other stream has the other number
    have hcase : i = 1 ∧ v = 0 ∨ i = 0 ∧ v = 1 := by omega
    rcases hcase with ⟨rfl, rfl⟩ | ⟨rfl, rfl⟩
    · exact hne.1 heq
    · exact hne.2 heq
  · rintro rfl
    rfl

theorem videoFrames (h : c.VideoAt v) (placed : List Placement) :
    c.videoFrames placed = chunkCount placed v := by
  unfold AviConfig.videoFrames chunkCount
  simp only [h.isVideo]

end AviConfig.VideoAt

section

variable {c : AviConfig} {w : AviWriter} {placed : List Placement} {v : Nat}

/-- `close` leaves the header of a video stream as it is. -/
theorem closedHeader_video (w : AviWriter) {s : AviStream} (h : s.streamType = .video) :
    w.closedHeader s = s.avisHeader := by
  unfold AviWriter.closedHeader
  split
  · rfl
  · exact if_neg fun haudio => StreamType.noConfusion (h.symm.trans haudio.1)

/-- **What the counters of a closed file are.** -/
theorem readCounters_close (hv : c.VideoAt v) (hl : Layout c w placed) (hc : Counted c w placed)
    (hk : Kept c w placed) (hfit : RoomForIndexes c w) :
    readCounters v w.close.f.bytes = some
      { totalFrames := chunkCount placed v
        streams := c.declarations % 2 ^ 32
        strls := c.streams.length
        length := chunkCount placed v
        odmlFrames := if c.openDML then some placed.length else none } := by
  obtain ⟨hlt, htwo⟩ := hv.length_le
  have hsmall := hk.length_lt hl
  have hcount := chunkCount_le placed v
  -- the video stream
  have hlt' : v < w.streams.length := hl.length_streams ▸ hlt
  have hs := List.getElem?_eq_getElem hlt'
  generalize w.streams[v] = s at hs
  have hvideo : s.streamType = .video := by
    have htypes := congrArg (fun l => l[v]?) hl.types
    have his := hv.isVideo v
    rw [decide_eq_true rfl, AviConfig.isVideo, decide_eq_true_eq] at his
    simp only [List.getElem?_map, hs, Option.map_some] at htypes
    exact Option.some.inj (htypes.trans his)
  obtain ⟨s₀, hs₀, htype, hheader⟩ := hc.headers v s hs
  have hlength : (w.closedHeader s).dwLength = chunkCount placed v := by
    rw [closedHeader_video w hvideo, hheader]
    exact if_pos (htype.symm.trans hvideo)
  -- the lists
  obtain ⟨hstrls, hget⟩ := lists_strl c w w.f.bytes.length w.streams
  obtain ⟨q, hq⟩ := hget v s hs
  have hlists : lists (fourcc "strl") (hdrlRiffs c w) =
      lists (fourcc "strl") (strlRiffs c w w.f.bytes.length w.streams) := by
    rw [hdrlRiffs, lists, lists_append]
    cases c.openDML with
    | false => exact List.append_nil _
    | true =>
      rw [if_pos rfl, odmlRiff, lists, if_neg (by decide)]
      exact List.append_nil _
  have hodml : (lists (fourcc "odml") (hdrlRiffs c w)).head?.bind (chunkData (fourcc "dmlh")) =
      if c.openDML then some (odmlExtendedAVIHeader w.totalFrames ++ List.replicate 244 0)
      else none := by
    rw [hdrlRiffs, lists, lists_append, lists_odml]
    cases c.openDML <;> rfl
  have hdmlh : dword (odmlExtendedAVIHeader w.totalFrames ++ List.replicate 244 0) 0 =
      placed.length := by
    rw [hl.total]
    exact dword_at (a := []) (b := List.replicate 244 0) rfl rfl hsmall
  -- the main header
  have htotal : dword w.avimHeader.body 16 = chunkCount placed v := by
    have hfield : w.avimHeader.dwTotalFrames = chunkCount placed v := by
      rw [hc.main, ← hv.videoFrames]
    rw [AVIMAINHEADER.dword_totalFrames (by rw [hfield]; omega), hfield]
  have hnumber : dword w.avimHeader.body 24 = c.declarations % 2 ^ 32 := by
    have hfield : w.avimHeader.dwStreams = c.declarations := by
      rw [hc.main]
      exact (avimHeader_writer c).2.2
    rw [AVIMAINHEADER.dword_streams, hfield]
  have hstrh : dword (w.closedHeader s).body 32 = chunkCount placed v := by
    rw [AVISTREAMHEADER.dword_length (by rw [hlength]; omega), hlength]
  have havih : chunkData (fourcc "avih") (hdrlRiffs c w) = some w.avimHeader.body := rfl
  have hchunk : chunkData (fourcc "strh") (strlItems c w q s) = some (w.closedHeader s).body := rfl
  unfold readCounters
  simp only [hdrl_close hl hc hfit htwo, Option.bind_eq_bind, Option.bind_some, havih, hlists, hq,
    hchunk]
  rw [hodml, hstrls, hl.length_streams, htotal, hnumber, hstrh]
  cases c.openDML with
  | false => rfl
  | true => rw [if_pos rfl, if_pos rfl, Option.map_some, hdmlh]

/-! ## The entries of the index -/

/-- **The entries that the super index of a stream leads to** are as many as its chunks, wherever
they point. -/
theorem length_foundChunks (hd : c.openDML = true) {r : Recording}
    (h : Reach (recordings c) (anyStep _ _) r) (hfit : RoomForIndexes c r.w)
    (hsize : r.w.close.f.bytes.length < 2 ^ 64) (hv : v < c.streams.length) :
    (foundChunks r.w.close.f.bytes (indxAt r.w.close.f.bytes v)).length =
      chunkCount r.placed v := by
  have hl := layout h
  have hs := List.getElem?_eq_getElem (hl.length_streams ▸ hv : v < r.w.streams.length)
  obtain ⟨done, cur, hidx⟩ := (indexes hd h).streams v _ hs
  rw [indxAt_close hl (counted h) hd hfit hs, foundChunks_close hl hd hfit (dated h) hsize hs hidx,
    List.length_map, chunkCount, ← map_fst_indexedOf, List.length_map]

/-- The old index stands behind the chunks of the first section. -/
theorem finishedPart_idx1 (old : List AVIOLDINDEX) (body : Nat → Bytes) (n : Nat) :
    ∃ tail, finishedPart old body n = body 0 ++ (idx1 old ++ tail) := by
  induction n with
  | zero => exact ⟨[], by rw [finishedPart, List.append_nil]⟩
  | succ n ih =>
    obtain ⟨tail, htail⟩ := ih
    refine ⟨tail ++ avix (body (n + 1)), ?_⟩
    rw [finishedPart, htail]
    simp only [List.append_assoc]

theorem map_chunkId_of_bytes {old old' : List AVIOLDINDEX} (hlen : old.length = old'.length)
    (h : old.flatMap AVIOLDINDEX.toBytes = old'.flatMap AVIOLDINDEX.toBytes) :
    old.map AVIOLDINDEX.dwChunkId = old'.map AVIOLDINDEX.dwChunkId := by
  induction old generalizing old' with
  | nil =>
    rw [List.length_nil, eq_comm, List.length_eq_zero_iff] at hlen
    rw [hlen]
  | cons e old ih =>
    cases old' with
    | nil => cases hlen
    | cons e' old' =>
      rw [List.flatMap_cons, List.flatMap_cons] at h
      obtain ⟨hone, hrest⟩ := List.append_inj h rfl
      rw [AVIOLDINDEX.toBytes, AVIOLDINDEX.toBytes] at hone
      have hid := FourCC.bytes_inj (List.append_inj hone rfl).1
      rw [List.map_cons, List.map_cons, hid, ih (Nat.succ.inj hlen) hrest]

/-- The entries of a stream in the old index. -/
def oldCount (id : FourCC) (old : List AVIOLDINDEX) : Nat :=
  (old.filter fun e => e.dwChunkId = id).length

theorem oldCount_map (id : FourCC) (old : List AVIOLDINDEX) : oldCount id old =
    ((old.map AVIOLDINDEX.dwChunkId).filter fun id' => id' = id).length := by
  rw [List.filter_map, List.length_map]
  rfl

/-- **The old index has the chunks of the first section.** -/
theorem oldCount_eq (hv : c.VideoAt v) (hk : Kept c w placed) :
    oldCount (c.chunkId v) w.oldIndexEntries =
      chunkCount (placed.filter fun p => p.riff = 0) v := by
  have hsame : ∀ p ∈ placed.filter fun p => p.riff = 0,
      decide (c.chunkId p.stream = c.chunkId v) = decide (p.stream = v) := by
    intro p hp
    have hi := hv.chunkId_inj (hk.streams p (List.mem_of_mem_filter hp))
    exact decide_eq_decide.mpr hi
  rw [oldCount_map, hk.olds, List.filter_map, List.length_map, chunkCount]
  refine congrArg List.length ?_
  exact List.filter_congr hsame

end

/-- Where the chunks of the first section end, if there are no standard indexes behind them. -/
def AviConfig.firstEnd (c : AviConfig) (placed : List Placement) : Nat :=
  c.head.bytes.length + (c.bodyOf placed 0).length

/-- The old index of the file is this one, and it stands behind the chunks of the first section. -/
structure HasOldIndex (c : AviConfig) (placed : List Placement) (file : Bytes)
    (old : List AVIOLDINDEX) : Prop where
  index : readAt file (c.firstEnd placed) (idx1 old).length = idx1 old
  whole : old.length = (placed.filter fun p => p.riff = 0).length

/-- **The counters agree**: the number of video chunks is in both headers; so many entries of the
index are of the video stream, which are those that the super index leads to or, without, those of
the old index with its chunk id; with indexes it is also in `dmlh`; and the number of streams is
that of their lists. -/
structure CountersAgree (c : AviConfig) (v : Nat) (r : Recording) (file : Bytes) (k : Counters) :
    Prop where
  read : readCounters v file = some k
  streams : k.streams = k.strls
  main : k.totalFrames = chunkCount r.placed v
  header : k.length = chunkCount r.placed v
  index : c.openDML = true →
    (foundChunks file (indxAt file v)).length = chunkCount r.placed v
  oldIndex : c.openDML = false → ∃ old, HasOldIndex c r.placed file old ∧
    oldCount (c.chunkId v) old = chunkCount r.placed v
  odml : c.openDML = true → k.odmlFrames = some (chunkCount r.placed v)

/-- **The old index is found** where the chunks of the first section end. -/
theorem hasOldIndex {c : AviConfig} {w : AviWriter} {placed : List Placement}
    (hl : Layout c w placed) (hd : c.openDML = false) (hfit : RoomForIndexes c w) :
    HasOldIndex c placed w.close.f.bytes w.oldIndexEntries := by
  refine ⟨?_, hl.olds⟩
  obtain ⟨tail, htail⟩ := finishedPart_idx1 w.oldIndexEntries (closedBody c w placed) w.riffIdx
  have hnone : closedIndexes c w = [] := by
    rw [closedIndexes, hd]
    exact if_neg Bool.false_ne_true
  have hbody : closedBody c w placed 0 = c.bodyOf placed 0 := by
    rw [closedBody, hnone, ite_self, List.append_nil]
  have hhead : (firstHead (closedHead c w) w.oldIndexEntries
      (closedBody c w placed 0)).bytes.length = c.head.bytes.length := by
    rw [← length_closedHead hl hfit, Head.length_bytes, Head.length_bytes]
    rfl
  rw [closed_bytes hl hfit, htail, ← List.append_assoc, ← List.append_assoc]
  refine readAt_middle _ _ _ ?_ rfl
  rw [List.length_append, hhead, hbody, AviConfig.firstEnd]

/-- There is no other in its place. -/
theorem HasOldIndex.oldCount_eq {c : AviConfig} {placed : List Placement} {file : Bytes}
    {old old' : List AVIOLDINDEX} (h : HasOldIndex c placed file old)
    (h' : HasOldIndex c placed file old') (id : FourCC) : oldCount id old = oldCount id old' := by
  have hlen : old.length = old'.length := h.whole.trans h'.whole.symm
  have hsame : idx1 old = idx1 old' := by
    rw [← h.index, ← h'.index, length_idx1, length_idx1, hlen]
  have hbytes := (List.append_inj hsame (by rw [hlen])).2
  have hids := map_chunkId_of_bytes hlen hbytes
  rw [oldCount_map, oldCount_map, hids]

theorem chunkCount_eq_length {placed : List Placement} {v : Nat} :
    chunkCount placed v = placed.length ↔ ∀ p ∈ placed, p.stream = v := by
  rw [chunkCount, List.length_filter_eq_length_iff]
  simp

theorem chunkCount_filter {placed : List Placement} {v : Nat} :
    chunkCount (placed.filter fun p => p.riff = 0) v = chunkCount placed v ↔
      ∀ p ∈ placed, p.stream = v → p.riff = 0 := by
  have hswap : chunkCount (placed.filter fun p => p.riff = 0) v =
      ((placed.filter fun p => p.stream = v).filter fun p => p.riff = 0).length := by
    rw [chunkCount, List.filter_filter, List.filter_filter]
    simp only [Bool.and_comm]
  rw [hswap, chunkCount, List.length_filter_eq_length_iff]
  simp

/-- **When the counters agree.** The counters are those that a reader finds in the file: by the
chunks of the `hdrl` list, by following the super index, or at the end of the first section. The
recording is any that begins with calls of the two setters, in any order and as often as wanted, and
then writes to the streams these have declared. -/
theorem counters_agree {c : AviConfig} {v : Nat} (hv : c.VideoAt v) {r : Recording}
    (h : Reach (recordings c) (anyStep _ _) r)
    (hroom : c.openDML = true → ∀ i, chunkCount r.placed i ≤ perIndex * c.slots) {file : Bytes}
    (hfile : r.file = some file) (hsize : file.length < 2 ^ 64) :
    (∃ k, CountersAgree c v r file k) ↔
      c.declarations % 2 ^ 32 = c.streams.length ∧
        (c.openDML = true → ∀ p ∈ r.placed, p.stream = v) ∧
          (c.openDML = false → ∀ p ∈ r.placed, p.stream = v → p.riff = 0) := by
  obtain rfl := Option.some.inj ((file_eq h).symm.trans hfile)
  have hl := layout h
  have hk := kept h
  have hfit := roomForIndexes (fun hd => indexes hd h) hroom
  have hread := readCounters_close hv hl (counted h) hk hfit
  have hold := oldCount_eq hv hk
  constructor
  · rintro ⟨k, hagree⟩
    obtain rfl := Option.some.inj (hread.symm.trans hagree.read)
    refine ⟨hagree.streams, ?_, ?_⟩
    · intro hd
      have hodml := hagree.odml hd
      dsimp only at hodml
      rw [if_pos hd] at hodml
      exact chunkCount_eq_length.mp (Option.some.inj hodml).symm
    · intro hd
      obtain ⟨old, hhas, hcount⟩ := hagree.oldIndex hd
      rw [hhas.oldCount_eq (hasOldIndex hl hd hfit), hold] at hcount
      exact chunkCount_filter.mp hcount
  · rintro ⟨hdeclared, hall, hfirst⟩
    refine ⟨_, hread, hdeclared, rfl, rfl, ?_, ?_, ?_⟩
    · intro hd
      exact length_foundChunks hd h hfit hsize hv.length_le.1
    · intro hd
      refine ⟨_, hasOldIndex hl hd hfit, ?_⟩
      rw [hold]
      exact chunkCount_filter.mpr (hfirst hd)
    · intro hd
      have hlen := chunkCount_eq_length.mpr (hall hd)
      dsimp only
      rw [if_pos hd, hlen]

/-- Three video chunks, and a second stream that takes none. -/
theorem counters_agree_video : ∃ (r : Recording) (file : Bytes) (k : Counters),
    r.placed.map Placement.stream = [0, 0, 0] ∧ r.file = some file ∧
      CountersAgree indexedConfig 0 r file k := by
  have hrun : (indexedConfig.record [(0, shortFrame), (0, shortFrame), (0, shortFrame)]).map
      (fun r => (r.placed.map Placement.stream, r.file.map List.length)) =
        some ([0, 0, 0], some 864) := by decide +kernel
  obtain ⟨r, hr, hsame⟩ := reach_of_record hrun
  obtain ⟨hplaced, hlen⟩ := Prod.mk.inj hsame
  obtain ⟨file, hfile, hlen⟩ := Option.map_eq_some_iff.mp hlen
  have hthree : r.placed.length ≤ 4 := by
    have h := congrArg List.length hplaced
    rw [List.length_map] at h
    rw [h]
    decide
  have hvideo : ∀ p ∈ r.placed, p.stream = 0 := by
    intro p hp
    have hmem := List.mem_map_of_mem (f := Placement.stream) hp
    rw [hplaced] at hmem
    simpa using hmem
  have hagree := (counters_agree (v := 0) (.inr (.inl ⟨by decide, rfl⟩)) hr
    (fun _ => room_of_four hthree) hfile (by rw [hlen]; decide)).mpr
      ⟨by decide, fun _ => hvideo, fun hd => absurd hd (by decide)⟩
  obtain ⟨k, hk⟩ := hagree
  exact ⟨r, file, k, hplaced, hfile, hk⟩

/-- An audio chunk is a frame in the `odml` list. -/
theorem counters_disagree : ¬ ∀ (c : AviConfig) (v : Nat), c.VideoAt v →
    ∀ r, Reach (recordings c) (anyStep _ _) r → ∀ file, r.file = some file →
      ∃ k, CountersAgree c v r file k := by
  intro hall
  have hvideo : indexedConfig.VideoAt 0 := .inr (.inl ⟨by decide, rfl⟩)
  have hrun : (indexedConfig.record [(1, shortFrame)]).map (fun r => r.placed.map Placement.stream) =
      some [1] := by decide +kernel
  obtain ⟨r, hr, hplaced⟩ := reach_of_record hrun
  have hlen : r.placed.length = 1 := by
    have h := congrArg List.length hplaced
    rwa [List.length_map] at h
  have hroom : RoomForIndexes indexedConfig r.w :=
    roomForIndexes (fun hd => indexes hd hr) fun _ => room_of_four (by omega)
  obtain ⟨k, hagree⟩ := hall indexedConfig 0 hvideo r hr _ (file_eq hr)
  -- what the file counts
  have hread := readCounters_close hvideo (layout hr) (counted hr) (kept hr) hroom
  obtain rfl := Option.some.inj (hread.symm.trans hagree.read)
  have hodml : some r.placed.length = some (chunkCount r.placed 0) := hagree.odml rfl
  have hone := chunkCount_eq_length.mp (Option.some.inj hodml).symm
  obtain ⟨p, hp⟩ := List.length_eq_one_iff.mp hlen
  rw [hp] at hplaced
  have hstream : p.stream = 1 := (List.cons.inj hplaced).1
  have hzero := hone p (by rw [hp]; exact List.mem_singleton_self p)
  omega

end Maixii.Avi
