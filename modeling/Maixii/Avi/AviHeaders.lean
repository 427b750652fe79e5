import Maixii.Avi.AviClose

/-!
# `Avi/AviHeaders.lean`: the counters in the closed file

What a reader finds in the headers of a closed file. It reads the `hdrl` list with the parser of
RIFF files, and takes counters from the data of the chunks by their offsets. **The list it finds is
the one whose chunks the writer has filled in, stream by stream** (`hdrl_close`). The number of
streams in it is how often one was declared (`avimHeader_writer`), which may be more than there are.
-/

set_option autoImplicit false

namespace Maixii.Avi

open Maixii.Lib AviWriter

/-! ## What the reader reads -/

/-- The chunks of the `hdrl` list. -/
def hdrl (file : Bytes) : Option (List Riff) :=
  Riff.parse (readAt file 24 (fromLE (readAt file 16 4) - 4))

/-- The data of the first chunk with this name. -/
def chunkData (id : FourCC) : List Riff → Option Bytes
  | [] => none
  | .chunk id' data :: items => if id' = id then some data else chunkData id items
  | .list _ _ _ :: items => chunkData id items

/-- The lists of one kind. -/
def lists (kind : FourCC) : List Riff → List (List Riff)
  | [] => []
  | .chunk _ _ :: items => lists kind items
  | .list _ kind' inner :: items =>
      if kind' = kind then inner :: lists kind items else lists kind items

def dword (data : Bytes) (off : Nat) : Nat := fromLE (readAt data off 4)

/-! ## The headers as chunks -/

/-- The `strl` list of a row: without its room, if there are no indexes. -/
def Row.riff (header : AVISTREAMHEADER) (format : Bytes) (super : Option Bytes) : Riff :=
  .list (fourcc "LIST") (fourcc "strl")
    (.chunk (fourcc "strh") header.body :: .chunk (fourcc "strf") format ::
      (super.map (Riff.chunk (fourcc "indx"))).toList)

/-- The `odml` list. -/
def odmlRiff (total : Nat) : Riff :=
  .list (fourcc "LIST") (fourcc "odml")
    [.chunk (fourcc "dmlh") (odmlExtendedAVIHeader total ++ List.replicate 244 0)]

theorem pad_even {n : Nat} (h : n % 2 = 0) : Riff.pad n = [] := if_neg (by omega)

theorem encode_chunk_even (id : FourCC) {data : Bytes} (h : data.length % 2 = 0) :
    Riff.encode (.chunk id data) = id.bytes ++ le 4 data.length ++ data := by
  rw [Riff.encode, pad_even h, List.append_nil]

theorem encode_odmlRiff (total : Nat) : Riff.encode (odmlRiff total) =
    odmlList (odmlExtendedAVIHeader total ++ List.replicate 244 0) := by
  have hlen : (odmlExtendedAVIHeader total ++ List.replicate 244 0).length = 248 := by
    rw [List.length_append, odmlExtendedAVIHeader, length_le_bytes, List.length_replicate]
  have heven : (odmlExtendedAVIHeader total ++ List.replicate 244 0).length % 2 = 0 := by
    rw [hlen]
  have hchunk := encode_chunk_even (fourcc "dmlh") heven
  rw [odmlRiff, Riff.encode, Riff.encodeAll, Riff.encodeAll, List.append_nil, hchunk, odmlList, hlen]
  simp only [List.length_append, FourCC.length_bytes, length_le_bytes, List.length_replicate,
    odmlExtendedAVIHeader, List.append_assoc]

/-- The format of a stream, behind its size. -/
def AviConfig.formatBody (c : AviConfig) : StreamType → Bytes
  | .video => c.writer.bitmapInfo.toBytes
  | .audio => { c.writer.waveFormat with cbSize := 24 }.toBytes
  | .unknown => []

theorem AviConfig.streamFormat_eq (c : AviConfig) {t : StreamType} (h : t ≠ .unknown) :
    streamFormat c.writer.bitmapInfo c.writer.waveFormat t =
      le 4 (c.formatBody t).length ++ c.formatBody t ∧ (c.formatBody t).length % 2 = 0 ∧
      (c.formatBody t).length ≤ 44 := by
  cases t with
  | unknown => exact absurd rfl h
  | video =>
    have hlen : (c.formatBody .video).length = 40 := BITMAPINFO.length_toBytes _
    refine ⟨?_, ?_, ?_⟩
    · rw [hlen]
      rfl
    · rw [hlen]
    · rw [hlen]
      decide
  | audio =>
    have hlen : (c.formatBody .audio).length = 44 := WAVEFORMATEXTENSIBLE.length_toBytes _
    refine ⟨?_, ?_, ?_⟩
    · rw [hlen]
      rfl
    · rw [hlen]
    · rw [hlen]

/-- A row is a list of chunks. -/
theorem encode_row {header : AVISTREAMHEADER} {format : Bytes} {super : Option Bytes}
    (hfcc : header.fcc = fourcc "strh") (hcb : header.cb = 56) (hformat : format.length % 2 = 0)
    (hsuper : ∀ data ∈ super, data.length % 2 = 0) :
    Riff.encode (Row.riff header format super) =
      strl header.toBytes (le 4 format.length ++ format)
        (match super with
          | none => []
          | some data => (fourcc "indx").bytes ++ le 4 data.length ++ data) := by
  have heven : header.body.length % 2 = 0 := by rw [AVISTREAMHEADER.length_body]
  have hstrh := encode_chunk_even (fourcc "strh") heven
  have hstrf := encode_chunk_even (fourcc "strf") hformat
  rw [AVISTREAMHEADER.length_body] at hstrh
  cases super with
  | none =>
    have hall : Riff.encodeAll (.chunk (fourcc "strh") header.body ::
        [.chunk (fourcc "strf") format]) = header.toBytes ++ (fourcc "strf").bytes ++
          (le 4 format.length ++ format) := by
      rw [Riff.encodeAll, Riff.encodeAll, Riff.encodeAll, hstrh, hstrf, List.append_nil,
        AVISTREAMHEADER.toBytes, hfcc, hcb]
      simp only [List.append_assoc]
    show Riff.encode (.list _ _ (.chunk (fourcc "strh") header.body ::
        [.chunk (fourcc "strf") format])) = _
    rw [Riff.encode, hall, strl]
    simp only [List.length_append, AVISTREAMHEADER.length_toBytes, FourCC.length_bytes,
      length_le_bytes, List.length_nil, List.append_nil, List.append_assoc]
    congr 2
    congr 1
    omega
  | some data =>
    have hindx := encode_chunk_even (fourcc "indx") (hsuper data rfl)
    have hall : Riff.encodeAll (.chunk (fourcc "strh") header.body ::
        .chunk (fourcc "strf") format :: [.chunk (fourcc "indx") data]) = header.toBytes ++
          (fourcc "strf").bytes ++ (le 4 format.length ++ format) ++
            ((fourcc "indx").bytes ++ le 4 data.length ++ data) := by
      rw [Riff.encodeAll, Riff.encodeAll, Riff.encodeAll, Riff.encodeAll, hstrh, hstrf, hindx,
        List.append_nil, AVISTREAMHEADER.toBytes, hfcc, hcb]
      simp only [List.append_assoc]
    show Riff.encode (.list _ _ (.chunk (fourcc "strh") header.body ::
        .chunk (fourcc "strf") format :: [.chunk (fourcc "indx") data])) = _
    rw [Riff.encode, hall, strl]
    simp only [List.length_append, AVISTREAMHEADER.length_toBytes, FourCC.length_bytes,
      length_le_bytes, List.append_assoc]
    congr 2
    congr 1
    omega

/-! ## The headers of a closed file -/

/-- What stands in the room of a super index, behind its size. -/
def superData (num pos : Nat) (s : AviStream) : Bytes :=
  s.superIdx.body ++ (supersFrom pos s.stdIndexEntries).flatMap AVISUPERINDEX_ENTRY.toBytes ++
    List.replicate (clearsize num - clearsize s.stdIndexEntries.length) 0

theorem length_superData {num : Nat} (pos : Nat) {s : AviStream}
    (h : clearsize s.stdIndexEntries.length ≤ clearsize num) :
    (superData num pos s).length = clearsize num - 8 := by
  rw [superData, List.length_append, List.length_append, AVISUPERINDEX.length_body,
    length_flatMap_supers, length_supersFrom, List.length_replicate]
  unfold clearsize sizeofSuperIndex at *
  omega

/-- The room of a super index, once it is written. -/
theorem patch_super_room {num pos : Nat} {s : AviStream} (hfcc : s.superIdx.fcc = fourcc "indx")
    (hcb : s.superIdx.cb = clearsize num - 8)
    (h : clearsize s.stdIndexEntries.length ≤ clearsize num) :
    patch (List.replicate (clearsize num) 0) 0 (superBytes pos s) =
      (fourcc "indx").bytes ++ le 4 (superData num pos s).length ++ superData num pos s := by
  rw [patch_eq (Nat.zero_le _), List.take_zero, List.nil_append, Nat.zero_add, length_superBytes,
    List.drop_replicate, length_superData pos h, superBytes, superData, AVISUPERINDEX.toBytes, hfcc,
    hcb]
  simp only [List.append_assoc]

/-- What is known of a stream of a recording. -/
structure Regular (c : AviConfig) (w : AviWriter) (s : AviStream) : Prop where
  known : s.streamType ≠ .unknown
  fcc : (w.closedHeader s).fcc = fourcc "strh"
  cb : (w.closedHeader s).cb = 56
  super : c.openDML = true → s.superIdx.fcc = fourcc "indx" ∧
    s.superIdx.cb = clearsize c.slots - 8 ∧
      clearsize s.stdIndexEntries.length ≤ clearsize c.slots

/-- The `strl` lists, when the indexes begin at `pos`. -/
def strlRiffs (c : AviConfig) (w : AviWriter) : Nat → List AviStream → List Riff
  | _, [] => []
  | pos, s :: ss =>
      Row.riff (w.closedHeader s) (c.formatBody s.streamType)
          (if c.openDML then some (superData c.slots pos s) else none) ::
        strlRiffs c w (pos + (ixBytes s.stdIndexes s.stdIndexEntries).length) ss

/-- One row of the closed file. -/
theorem encode_closedRow {c : AviConfig} {w : AviWriter} {s : AviStream} (h : Regular c w s)
    (pos : Nat) :
    Riff.encode (Row.riff (w.closedHeader s) (c.formatBody s.streamType)
        (if c.openDML then some (superData c.slots pos s) else none)) =
      strl (w.closedHeader s).toBytes
        (streamFormat c.writer.bitmapInfo c.writer.waveFormat s.streamType)
        (if c.openDML then patch (List.replicate (clearsize c.slots) 0) 0 (superBytes pos s)
          else []) := by
  obtain ⟨hformat, heven, -⟩ := c.streamFormat_eq h.known
  rw [hformat]
  cases hd : c.openDML with
  | false =>
    rw [if_neg Bool.false_ne_true, if_neg Bool.false_ne_true]
    exact encode_row h.fcc h.cb heven (fun data hdata => by cases hdata)
  | true =>
    obtain ⟨hfcc, hcb, hroom⟩ := h.super hd
    rw [if_pos rfl, if_pos rfl, patch_super_room hfcc hcb hroom]
    refine encode_row h.fcc h.cb heven ?_
    intro data hdata
    obtain rfl := Option.some.inj hdata
    rw [length_superData pos hroom]
    unfold clearsize sizeofSuperIndex sizeofSuperIndexEntry
    omega

/-- **The lists of the streams, as chunks.** -/
theorem encodeAll_strlRiffs {c : AviConfig} {w : AviWriter} (ss ts : List AviStream) (pos : Nat)
    (htypes : ts.map (·.streamType) = ss.map (·.streamType)) (hreg : ∀ s ∈ ts, Regular c w s) :
    Riff.encodeAll (strlRiffs c w pos ts) = rowBytes (withHeaders w.closedHeader
      (if c.openDML then withSupers pos (List.zipWith (fun s₀ s => (c.row s₀, s)) ss ts)
        else List.zipWith (fun s₀ s => (c.row s₀, s)) ss ts)) := by
  induction ss generalizing ts pos with
  | nil =>
    rw [List.map_nil, List.map_eq_nil_iff] at htypes
    subst htypes
    cases c.openDML <;> rfl
  | cons s₀ ss ih =>
    cases ts with
    | nil => simp at htypes
    | cons s ts =>
      rw [List.map_cons, List.map_cons, List.cons.injEq] at htypes
      have hrest := ih ts (pos + (ixBytes s.stdIndexes s.stdIndexEntries).length) htypes.2
        (fun s' hs' => hreg s' (List.mem_cons_of_mem _ hs'))
      have hone := encode_closedRow (hreg s (List.mem_cons_self ..)) pos
      rw [strlRiffs, Riff.encodeAll, hone, hrest, htypes.1]
      cases hd : c.openDML with
      | false =>
        rw [if_neg Bool.false_ne_true, if_neg Bool.false_ne_true, if_neg Bool.false_ne_true]
        have hrow : (c.row s₀).super = [] := by
          show List.replicate (reserved c.openDML c.slots) 0 = []
          rw [hd]
          rfl
        rw [← hrow]
        rfl
      | true =>
        rw [if_pos rfl, if_pos rfl, if_pos rfl]
        have hrow : (c.row s₀).super = List.replicate (clearsize c.slots) 0 := by
          show List.replicate (reserved c.openDML c.slots) 0 = _
          rw [hd]
          rfl
        rw [← hrow]
        rfl

theorem superIdx_openedStreams (num : Nat) (ss : List AviStream) (off i k : Nat) {t : AviStream}
    (h : (openedStreams true num off i ss)[k]? = some t) :
    ∃ id, t.superIdx = newSuperIdx id (clearsize num) := by
  induction ss generalizing off i k with
  | nil => cases h
  | cons s ss ih =>
    cases k with
    | zero =>
      obtain rfl := Option.some.inj h
      exact ⟨_, rfl⟩
    | succ k => exact ih _ _ k h

/-- `setVideoProperties` or `setAudioProperties`. -/
def AviSetting.declares : AviSetting → Bool
  | .setVideoProperties _ _ => true
  | .setAudioProperties _ _ => true
  | .openDML _ => false
  | .setFrameCount _ _ => false

/-- How often streams have been declared, which may be more than there are. -/
def AviConfig.declarations (c : AviConfig) : Nat := (c.settings.filter AviSetting.declares).length

/-- **The main header before `open`** counts the declarations. -/
theorem avimHeader_writer (c : AviConfig) : c.writer.avimHeader.fcc = fourcc "avih" ∧
    c.writer.avimHeader.cb = 56 ∧ c.writer.avimHeader.dwStreams = c.declarations := by
  have hall : ∀ (settings : List AviSetting) (o : AviObject), o.opened = false →
      (o.configure settings).w.avimHeader.dwStreams =
        o.w.avimHeader.dwStreams + (settings.filter AviSetting.declares).length := by
    intro settings
    induction settings with
    | nil => exact fun o _ => rfl
    | cons setting settings ih =>
      intro o ho
      have hrest := ih (o.set setting).2 ((o.set_opened setting).trans ho)
      have hone : (o.set setting).2.w.avimHeader.dwStreams = o.w.avimHeader.dwStreams +
          if setting.declares = true then 1 else 0 := by
        unfold AviObject.set
        rw [ho, if_neg Bool.false_ne_true]
        cases setting <;> rfl
      show ((o.set setting).2.configure settings).w.avimHeader.dwStreams = _
      rw [hrest, hone, List.filter_cons]
      split
      · rw [List.length_cons]
        omega
      · rfl
  refine ⟨c.configured.fcc, c.configured.cb, ?_⟩
  rw [AviConfig.writer, AviConfig.object, hall c.settings AviObject.new rfl]
  exact Nat.zero_add _

/-! ## The list is read -/

/-- The chunks of the `hdrl` list. -/
def hdrlRiffs (c : AviConfig) (w : AviWriter) : List Riff :=
  .chunk (fourcc "avih") w.avimHeader.body ::
    (strlRiffs c w w.f.bytes.length w.streams ++
      if c.openDML then [odmlRiff w.totalFrames] else [])

section

variable {c : AviConfig} {w : AviWriter} {placed : List Placement}

theorem closedHeader_eq (w : AviWriter) (s : AviStream) :
    ∃ n, w.closedHeader s = { s.avisHeader with dwLength := n } := by
  unfold AviWriter.closedHeader
  split
  · exact ⟨_, rfl⟩
  · dsimp only
    split
    · exact ⟨_, rfl⟩
    · exact ⟨_, rfl⟩

/-- The streams of a recording. -/
theorem Layout.regular (h : Layout c w placed) (hc : Counted c w placed)
    (hfit : RoomForIndexes c w) : ∀ s ∈ w.streams, Regular c w s := by
  intro s hs
  obtain ⟨i, hi⟩ := List.getElem?_of_mem hs
  obtain ⟨s₀, hs₀, htype, hheader⟩ := hc.headers i s hi
  obtain ⟨p, rfl⟩ := c.declared_of_mem (List.mem_of_getElem? hs₀)
  obtain ⟨n, hclosed⟩ := closedHeader_eq w s
  refine ⟨?_, ?_, ?_, ?_⟩
  · rw [htype]
    cases p <;> exact fun h => StreamType.noConfusion h
  · rw [hclosed, hheader]
    cases p <;> rfl
  · rw [hclosed, hheader]
    cases p <;> rfl
  · intro hd
    have hopened : c.writer.opened.streams =
        openedStreams c.openDML c.slots 88 0 c.writer.streams := by
      rw [← c.writer_openDML]
      rfl
    have hplaces := congrArg (fun l => l[i]?) h.places
    simp only [List.getElem?_map, hi, Option.map_some] at hplaces
    obtain ⟨t, ht, hplace⟩ := Option.map_eq_some_iff.mp hplaces.symm
    rw [hopened, hd] at ht
    have hsuper : ∃ id, t.superIdx = newSuperIdx id (clearsize c.slots) :=
      superIdx_openedStreams c.slots _ _ _ i ht
    obtain ⟨id, hsuper⟩ := hsuper
    have hfcc : t.superIdx.fcc = s.superIdx.fcc := by
      have h := congrArg (fun s : AviStream => s.superIdx.fcc) hplace
      exact h
    have hcb : t.superIdx.cb = s.superIdx.cb := by
      have h := congrArg (fun s : AviStream => s.superIdx.cb) hplace
      exact h
    refine ⟨?_, ?_, ?_⟩
    · rw [← hfcc, hsuper]
      rfl
    · rw [← hcb, hsuper]
      rfl
    · have hroom := hfit hd (c.row (declaredStream p), s) (by
        rw [AviConfig.rows]
        exact List.mem_of_getElem? (i := i) (by
          rw [List.getElem?_zipWith, hs₀, hi]))
      have hlen : (c.row (declaredStream p)).super.length = clearsize c.slots := by
        show (List.replicate (reserved c.openDML c.slots) 0).length = _
        rw [List.length_replicate, hd]
        rfl
      rwa [hlen] at hroom

/-- **The head of the closed file, as chunks.** -/
theorem hdrl_bytes (h : Layout c w placed) (hc : Counted c w placed) (hfit : RoomForIndexes c w) :
    (closedHead c w).avih ++ (closedHead c w).strls ++ (closedHead c w).odml =
      Riff.encodeAll (hdrlRiffs c w) := by
  have htypes : w.streams.map (·.streamType) = c.writer.streams.map (·.streamType) :=
    h.types
  have hstrls := encodeAll_strlRiffs c.writer.streams w.streams w.f.bytes.length htypes
    (h.regular hc hfit)
  have hmain : w.avimHeader.toBytes =
      Riff.encode (.chunk (fourcc "avih") w.avimHeader.body) := by
    rw [encode_chunk_even _ (by rw [AVIMAINHEADER.length_body]), hc.main, AVIMAINHEADER.toBytes,
      AVIMAINHEADER.length_body, (avimHeader_writer c).1, (avimHeader_writer c).2.1]
  rw [hdrlRiffs, Riff.encodeAll, Riff.encodeAll_append, hstrls, closedHead_odml]
  show w.avimHeader.toBytes ++ rowBytes (closedRows c w) ++ _ = _
  rw [hmain, List.append_assoc]
  congr 2
  cases c.openDML with
  | false => rfl
  | true =>
    rw [if_pos rfl, if_pos rfl, Riff.encodeAll, Riff.encodeAll, List.append_nil, encode_odmlRiff]

theorem namedAll_strlRiffs (c : AviConfig) (w : AviWriter) (pos : Nat) (ss : List AviStream) :
    Riff.NamedAll (strlRiffs c w pos ss) := by
  induction ss generalizing pos with
  | nil => exact trivial
  | cons s ss ih =>
    rw [strlRiffs, Riff.NamedAll]
    refine ⟨?_, ih _⟩
    rw [Row.riff, Riff.Named, Riff.NamedAll, Riff.NamedAll, Riff.Named, Riff.Named]
    refine ⟨by decide, by decide, by decide, ?_⟩
    split
    · rw [Option.map_some, Option.toList_some, Riff.NamedAll, Riff.Named]
      exact ⟨by decide, trivial⟩
    · exact trivial

theorem namedAll_hdrlRiffs (c : AviConfig) (w : AviWriter) : Riff.NamedAll (hdrlRiffs c w) := by
  rw [hdrlRiffs, Riff.NamedAll, Riff.namedAll_append]
  refine ⟨by rw [Riff.Named]; decide, namedAll_strlRiffs c w _ _, ?_⟩
  split
  · refine ⟨⟨by decide, ?_, trivial⟩, trivial⟩
    rw [Riff.Named]
    decide
  · exact trivial

/-- The room of a super index is never more than this. -/
theorem clearsize_slots_lt (c : AviConfig) : clearsize c.slots < 2 ^ 26 := by
  have hlt := c.reservedFrames_lt
  unfold AviConfig.slots numStdIndexes clearsize sizeofSuperIndex sizeofSuperIndexEntry
    reservedPerIndex stdIndexSize sizeofStdIndex sizeofStdIndexEntry
  split
  · omega
  · decide

/-- And there is room for one entry. -/
theorem AviConfig.slots_pos (c : AviConfig) : 0 < c.slots := by
  have hlt := c.reservedFrames_lt
  unfold AviConfig.slots numStdIndexes reservedPerIndex stdIndexSize sizeofStdIndex
    sizeofStdIndexEntry
  split
  · omega
  · decide

theorem length_head_strls (c : AviConfig) :
    c.head.strls.length ≤ c.streams.length * (2 ^ 26 + 128) := by
  have hall : ∀ ss : List AviStream, (openedStrls c.writer.bitmapInfo c.writer.waveFormat
      c.writer.openDML c.slots ss).length ≤ ss.length * (2 ^ 26 + 128) := by
    intro ss
    induction ss with
    | nil => exact Nat.le_refl 0
    | cons s ss ih =>
      have hroom := clearsize_slots_lt c
      have hreserved : reserved c.writer.openDML c.slots ≤ clearsize c.slots := by
        unfold reserved
        split
        · exact Nat.le_refl _
        · exact Nat.zero_le _
      have hformat : formatLength s.streamType ≤ 48 := by
        cases s.streamType <;> decide
      rw [openedStrls, List.flatMap_cons, List.length_append, ← openedStrls,
        length_strl (AVISTREAMHEADER.length_toBytes _), length_streamFormat, List.length_replicate,
        List.length_cons, Nat.succ_mul]
      omega
  exact hall c.streams

/-- **The headers are read.** -/
theorem hdrl_close (h : Layout c w placed) (hc : Counted c w placed) (hfit : RoomForIndexes c w)
    (htwo : c.streams.length ≤ 2) : hdrl w.close.f.bytes = some (hdrlRiffs c w) := by
  have hbytes := closed_bytes h hfit
  have hriffs := hdrl_bytes h hc hfit
  have hstrls : (closedHead c w).strls.length ≤ 2 * (2 ^ 26 + 128) := by
    have hle := length_head_strls c
    have heq : (closedHead c w).strls.length = c.head.strls.length := length_closedRows h hfit
    have hmul := Nat.mul_le_mul_right (2 ^ 26 + 128) htwo
    omega
  have hodml : (closedHead c w).odml.length ≤ 268 := by
    rw [closedHead_odml]
    split
    · rw [length_odmlList, List.length_append, odmlExtendedAVIHeader, length_le_bytes,
        List.length_replicate]
    · exact Nat.zero_le _
  have hlen := congrArg List.length hriffs
  rw [List.length_append, List.length_append, (closedHead c w).length_avih] at hlen
  let hd := firstHead (closedHead c w) w.oldIndexEntries (closedBody c w placed 0)
  have hcut : w.close.f.bytes = ((fourcc "RIFF").bytes ++ le 4 hd.riff ++ (fourcc "AVI ").bytes ++
      (fourcc "LIST").bytes) ++ le 4 (68 + hd.strls.length + hd.odml.length) ++
        ((fourcc "hdrl").bytes ++ Riff.encodeAll (hdrlRiffs c w) ++ (hd.back ++
          finishedPart w.oldIndexEntries (closedBody c w placed) w.riffIdx)) := by
    rw [hbytes, ← hriffs]
    show hd.bytes ++ _ = _
    simp only [Head.bytes, Head.front, List.append_assoc]
    rfl
  have hsize : fromLE (readAt w.close.f.bytes 16 4) = 4 + (Riff.encodeAll (hdrlRiffs c w)).length := by
    rw [hcut, readAt_middle _ _ _ (p := 16)]
    · rw [fromLE_le_of_lt]
      · show 68 + (closedHead c w).strls.length + (closedHead c w).odml.length = _
        omega
      · show 68 + (closedHead c w).strls.length + (closedHead c w).odml.length < _
        omega
    · rfl
    · rw [length_le_bytes]
  have hread : readAt w.close.f.bytes 24 (Riff.encodeAll (hdrlRiffs c w)).length =
      Riff.encodeAll (hdrlRiffs c w) := by
    have hcut' : w.close.f.bytes = ((fourcc "RIFF").bytes ++ le 4 hd.riff ++
        (fourcc "AVI ").bytes ++ (fourcc "LIST").bytes ++
          le 4 (68 + hd.strls.length + hd.odml.length) ++ (fourcc "hdrl").bytes) ++
        Riff.encodeAll (hdrlRiffs c w) ++ (hd.back ++
          finishedPart w.oldIndexEntries (closedBody c w placed) w.riffIdx) := by
      rw [hcut]
      simp only [List.append_assoc]
    rw [hcut', readAt_middle _ _ _ (p := 24)]
    · rfl
    · rfl
  unfold hdrl
  rw [hsize, Nat.add_sub_cancel_left, hread]
  exact Riff.parse_encode (Riff.fitsAll_of_length _ (namedAll_hdrlRiffs c w) (by omega))

end

end Maixii.Avi
