import Maixii.Avi.AviWriter

/-!
# `Avi/AviLayout.lean`: where `open` puts things

What stands in a file that has just been opened, as one expression (`Head.bytes`), and the
positions the writer has noted (`AviWriter.open_eq`). A head is made of a few parts whose lengths never
change again, so that a patch of the file is a change of one part (`Head.patch_riff` and the
others), and the patches of `close` can be followed part by part.
-/

set_option autoImplicit false

namespace Maixii.Avi

open Maixii.Lib

/-! ## The head of the file -/

/-- The `strl` list of one stream. -/
def strl (header format super : Bytes) : Bytes :=
  (fourcc "LIST").bytes ++ le 4 (72 + format.length + super.length) ++ (fourcc "strl").bytes ++
    header ++ (fourcc "strf").bytes ++ format ++ super

theorem length_strl {header : Bytes} (hh : header.length = 64) (format super : Bytes) :
    (strl header format super).length = 80 + format.length + super.length := by
  simp only [strl, List.length_append, FourCC.length_bytes, length_le_bytes, hh]

/-- The `odml` list, with what stands in its header. -/
def odmlList (ext : Bytes) : Bytes :=
  (fourcc "LIST").bytes ++ le 4 260 ++ (fourcc "odml").bytes ++ (fourcc "dmlh").bytes ++ le 4 248 ++
    ext

theorem length_odmlList (ext : Bytes) : (odmlList ext).length = 20 + ext.length := by
  simp only [odmlList, List.length_append, FourCC.length_bytes, length_le_bytes]

/-- The file up to the first data chunk. -/
structure Head where
  riff : Nat
  avih : Bytes
  strls : Bytes
  odml : Bytes
  movi : Nat
  length_avih : avih.length = 64

namespace Head

/-- Up to the first part that changes in length with the configuration. -/
def front (h : Head) : Bytes :=
  (fourcc "RIFF").bytes ++ le 4 h.riff ++ (fourcc "AVI ").bytes ++ (fourcc "LIST").bytes ++
    le 4 (68 + h.strls.length + h.odml.length) ++ (fourcc "hdrl").bytes ++ h.avih

/-- The beginning of the `movi` list. -/
def back (h : Head) : Bytes := (fourcc "LIST").bytes ++ le 4 h.movi ++ (fourcc "movi").bytes

def bytes (h : Head) : Bytes := h.front ++ h.strls ++ h.odml ++ h.back

theorem length_front (h : Head) : h.front.length = 88 := by
  simp only [front, List.length_append, FourCC.length_bytes, length_le_bytes, h.length_avih]

theorem length_back (h : Head) : h.back.length = 12 := by
  simp only [back, List.length_append, FourCC.length_bytes, length_le_bytes]

theorem length_bytes (h : Head) : h.bytes.length = 100 + h.strls.length + h.odml.length := by
  simp only [bytes, List.length_append, length_front, length_back]
  omega

/-- Filling in the size of the file. -/
theorem patch_riff (h : Head) (n : Nat) :
    patch h.bytes 4 (le 4 n) = { h with riff := n }.bytes := by
  have hcut : h.bytes = (fourcc "RIFF").bytes ++ le 4 h.riff ++ ((fourcc "AVI ").bytes ++
      (fourcc "LIST").bytes ++ le 4 (68 + h.strls.length + h.odml.length) ++ (fourcc "hdrl").bytes ++
      h.avih ++ h.strls ++ h.odml ++ h.back) := by
    simp only [bytes, front, List.append_assoc]
  rw [hcut, patch_middle (p := 4)]
  · simp only [bytes, front, back, List.append_assoc]
  · rfl
  · rw [length_le_bytes, length_le_bytes]

/-- Filling in the main header. -/
theorem patch_avih (h : Head) {bs : Bytes} (hbs : bs.length = 64) :
    patch h.bytes 24 bs = { h with avih := bs, length_avih := hbs }.bytes := by
  have hcut : h.bytes = ((fourcc "RIFF").bytes ++ le 4 h.riff ++ (fourcc "AVI ").bytes ++
      (fourcc "LIST").bytes ++ le 4 (68 + h.strls.length + h.odml.length) ++
      (fourcc "hdrl").bytes) ++ h.avih ++ (h.strls ++ h.odml ++ h.back) := by
    simp only [bytes, front, List.append_assoc]
  rw [hcut, patch_middle (p := 24)]
  · simp only [bytes, front, back, List.append_assoc]
  · rfl
  · rw [hbs, h.length_avih]

/-- Filling in the size of the `movi` list. -/
theorem patch_movi (h : Head) (n : Nat) :
    patch h.bytes (h.bytes.length - 8) (le 4 n) = { h with movi := n }.bytes := by
  have hcut : h.bytes = (h.front ++ h.strls ++ h.odml ++ (fourcc "LIST").bytes) ++ le 4 h.movi ++
      (fourcc "movi").bytes := by
    simp only [bytes, back, List.append_assoc]
  have hpos : h.bytes.length - 8 =
      (h.front ++ h.strls ++ h.odml ++ (fourcc "LIST").bytes).length := by
    rw [h.length_bytes]
    simp only [List.length_append, length_front, FourCC.length_bytes]
    omega
  rw [hpos, hcut, patch_middle _ _ _ rfl (by rw [length_le_bytes, length_le_bytes])]
  simp only [bytes, front, back, List.append_assoc]

/-- A patch in the `odml` list. -/
theorem patch_odml (h : Head) {q : Nat} {bs : Bytes} (hq : q + bs.length ≤ h.odml.length) :
    patch h.bytes (88 + h.strls.length + q) bs = { h with odml := patch h.odml q bs }.bytes := by
  have hcut : h.bytes = (h.front ++ h.strls) ++ (h.odml ++ h.back) := by
    simp only [bytes, List.append_assoc]
  have hpos : 88 + h.strls.length = (h.front ++ h.strls).length := by
    rw [List.length_append, h.length_front]
  have hlen : (patch h.odml q bs).length = h.odml.length := length_patch hq
  rw [hcut, hpos, patch_append_right (by rw [List.length_append]; omega), patch_append_left hq]
  simp only [bytes, front, back, hlen, List.append_assoc]

end Head

/-! ## The streams -/

/-- The bytes of a stream's format. -/
def formatLength : StreamType → Nat
  | .video => 44
  | .audio => 48
  | .unknown => 0

theorem length_streamFormat (b : BITMAPINFO) (wf : WAVEFORMATEXTENSIBLE) (t : StreamType) :
    (streamFormat b wf t).length = formatLength t := by
  cases t <;> rfl

/-- The bytes reserved for each super index. -/
def reserved (dml : Bool) (num : Nat) : Nat := if dml then clearsize num else 0

/-- A stream as `open` leaves it, when its list begins at `off`. -/
def openedStream (dml : Bool) (num off i : Nat) (s : AviStream) : AviStream :=
  let s := { s with posStreamHeader := off + 12 }
  if dml then
    { s with
      posOdmlSuperIdx := off + 80 + formatLength s.streamType
      superIdx := newSuperIdx (generateFcc (openSuffix s.streamType) i) (clearsize num)
      stdIndexes := s.stdIndexes ++ [newStdIndex i (generateFcc (openSuffix s.streamType) i) 0] }
  else s

/-- The bytes of a stream's list. -/
def strlLength (dml : Bool) (num : Nat) (s : AviStream) : Nat :=
  80 + formatLength s.streamType + reserved dml num

def openedStreams (dml : Bool) (num : Nat) : Nat → Nat → List AviStream → List AviStream
  | _, _, [] => []
  | off, i, s :: ss =>
      openedStream dml num off i s ::
        openedStreams dml num (off + strlLength dml num s) (i + 1) ss

/-- The lists of the streams as `open` writes them. -/
def openedStrls (b : BITMAPINFO) (wf : WAVEFORMATEXTENSIBLE) (dml : Bool) (num : Nat)
    (ss : List AviStream) : Bytes :=
  ss.flatMap fun s => strl s.avisHeader.toBytes (streamFormat b wf s.streamType)
    (List.replicate (reserved dml num) 0)

/-- The reservation that is in force after the first stream. -/
def effectiveFrames (reservedFrames : Nat) : Nat :=
  if reservedFrames ≠ 0 then reservedFrames else numStdIndexes 0 * reservedPerIndex

theorem numStdIndexes_effective (r : Nat) : numStdIndexes (effectiveFrames r) = numStdIndexes r := by
  unfold effectiveFrames
  split
  · rfl
  · rename_i h
    have : r = 0 := by simpa using h
    subst this
    decide

theorem effectiveFrames_effective (r : Nat) :
    effectiveFrames (effectiveFrames r) = effectiveFrames r := by
  by_cases h : r ≠ 0
  · simp only [effectiveFrames, if_pos h]
  · simp only [effectiveFrames, if_neg h]
    decide

theorem numStdIndexes_pos {r : Nat} (hr : r < 2 ^ 32) : numStdIndexes r ≠ 0 := by
  unfold numStdIndexes reservedPerIndex stdIndexSize sizeofStdIndex sizeofStdIndexEntry
  split
  · omega
  · decide

/-! ## `open` -/

section

variable {f : OutFile} {r : Nat} {d : Bool}

theorem atEnd_writeFcc (h : f.AtEnd) (s : String) :
    (writeFcc f s).AtEnd ∧ (writeFcc f s).bytes = f.bytes ++ (fourcc s).bytes :=
  ⟨h.write _, h.bytes_write _⟩

/-- Filling in a size that has been left out, at the end of the file. -/
theorem patchSize_spec {a b : Bytes} {p n : Nat} (h : f.AtEnd)
    (hf : f.bytes = a ++ le 4 0 ++ b) (hp : p = a.length) :
    (patchSize f p n).AtEnd ∧ (patchSize f p n).bytes = a ++ le 4 n ++ b := by
  have hbytes : (patchSize f p n).bytes = a ++ le 4 n ++ b := by
    show patch f.bytes p (le 4 n) = _
    rw [hf, patch_middle _ _ _ hp (by rw [length_le_bytes, length_le_bytes])]
  refine ⟨?_, hbytes⟩
  unfold OutFile.AtEnd
  rw [hbytes]
  show f.pos = _
  rw [h, hf]
  simp only [List.length_append, length_le_bytes]

/-- The reservation that is in force, if there are indexes at all. -/
def reservation (d : Bool) (r : Nat) : Nat := if d then effectiveFrames r else r

theorem openSuperIdx_spec (h : f.AtEnd) (hr : r < 2 ^ 32) (i : Nat) (s : AviStream) :
    ∃ f', openSuperIdx ⟨f, r, d⟩ i s = (⟨f', reservation d r, d⟩,
        if d then
          { s with
            superIdx := newSuperIdx (generateFcc (openSuffix s.streamType) i)
              (clearsize (numStdIndexes r))
            posOdmlSuperIdx := f.bytes.length }
        else s) ∧
      f'.AtEnd ∧ f'.bytes = f.bytes ++ List.replicate (reserved d (numStdIndexes r)) 0 := by
  cases d with
  | false =>
    refine ⟨f, rfl, h, ?_⟩
    simp [reserved]
  | true =>
    have hnum := numStdIndexes_pos hr
    refine ⟨f.write (List.replicate (clearsize (numStdIndexes r)) 0), ?_, h.write _,
      h.bytes_write _⟩
    by_cases hz : r = 0
    · subst hz
      simp only [openSuperIdx, reservation, effectiveFrames, if_true, ne_eq, not_true_eq_false,
        if_false]
      rw [h]
    · simp only [openSuperIdx, reservation, effectiveFrames, if_true, ne_eq, hz, not_false_eq_true,
        hnum, decide_true]
      rw [h]

/-- **One stream.** -/
theorem openStream_spec (h : f.AtEnd) (hr : r < 2 ^ 32) {format : Bytes} (i : Nat) (s : AviStream)
    (hformat : format.length = formatLength s.streamType) :
    ∃ f', openStream ⟨f, r, d⟩ format i s = (⟨f', reservation d r, d⟩,
        openedStream d (numStdIndexes r) f.bytes.length i s) ∧
      f'.AtEnd ∧ f'.bytes = f.bytes ++
        strl s.avisHeader.toBytes format (List.replicate (reserved d (numStdIndexes r)) 0) := by
  -- What is written up to the super index.
  have h₁ := atEnd_writeFcc h "LIST"
  have h₂ := h₁.1.write (le 4 0)
  have h₃ := atEnd_writeFcc h₂ "strl"
  have h₄ := h₃.1.write s.avisHeader.toBytes
  have h₅ := atEnd_writeFcc h₄ "strf"
  have h₆ := h₅.1.write format
  have hbytes : ((writeFcc ((writeFcc ((writeFcc f "LIST").write (le 4 0)) "strl").write
      s.avisHeader.toBytes) "strf").write format).bytes =
      f.bytes ++ (fourcc "LIST").bytes ++ le 4 0 ++ (fourcc "strl").bytes ++ s.avisHeader.toBytes ++
        (fourcc "strf").bytes ++ format := by
    rw [h₅.1.bytes_write, h₅.2, h₃.1.bytes_write, h₃.2, h₁.1.bytes_write, h₁.2]
  obtain ⟨f', hsup, hend, hf'⟩ := openSuperIdx_spec (d := d) h₆ hr i
    { s with posStreamHeader := (writeFcc ((writeFcc f "LIST").write (le 4 0)) "strl").pos }
  have hpos : (writeFcc f "LIST").pos = (f.bytes ++ (fourcc "LIST").bytes).length := by
    rw [h₁.1, h₁.2]
  have hcut : f'.bytes = (f.bytes ++ (fourcc "LIST").bytes) ++ le 4 0 ++
      ((fourcc "strl").bytes ++ s.avisHeader.toBytes ++ (fourcc "strf").bytes ++ format ++
        List.replicate (reserved d (numStdIndexes r)) 0) := by
    rw [hf', hbytes]
    simp only [List.append_assoc]
  have hsize : f'.pos - (writeFcc f "LIST").pos - 4 =
      72 + format.length + (List.replicate (reserved d (numStdIndexes r)) (0 : UInt8)).length := by
    rw [hend, hcut, hpos]
    simp only [List.length_append, FourCC.length_bytes, length_le_bytes,
      AVISTREAMHEADER.length_toBytes]
    omega
  obtain ⟨hpend, hpbytes⟩ := patchSize_spec (n := f'.pos - (writeFcc f "LIST").pos - 4) hend hcut hpos
  refine ⟨patchSize f' (writeFcc f "LIST").pos (f'.pos - (writeFcc f "LIST").pos - 4), ?_, hpend, ?_⟩
  · unfold openStream
    simp only [hsup]
    have hhead : (writeFcc ((writeFcc f "LIST").write (le 4 0)) "strl").pos =
        f.bytes.length + 12 := by
      rw [h₃.1, h₃.2, h₁.1.bytes_write, h₁.2]
      simp only [List.length_append, FourCC.length_bytes, length_le_bytes]
    have hsuper : ((writeFcc ((writeFcc ((writeFcc f "LIST").write (le 4 0)) "strl").write
        s.avisHeader.toBytes) "strf").write format).bytes.length =
        f.bytes.length + 80 + formatLength s.streamType := by
      rw [hbytes]
      simp only [List.length_append, FourCC.length_bytes, length_le_bytes,
        AVISTREAMHEADER.length_toBytes, hformat]
    cases d with
    | false => simp only [openedStream, hhead, Bool.false_eq_true, if_false]
    | true => simp only [openedStream, hhead, hsuper, if_true]
  · rw [hpbytes, hsize, strl]
    simp only [List.append_assoc]

theorem reservation_lt (hr : r < 2 ^ 32) : reservation d r < 2 ^ 32 := by
  unfold reservation effectiveFrames
  split
  · split
    · exact hr
    · decide
  · exact hr

theorem numStdIndexes_reservation : numStdIndexes (reservation d r) = numStdIndexes r := by
  unfold reservation
  split
  · exact numStdIndexes_effective r
  · rfl

theorem reservation_reservation : reservation d (reservation d r) = reservation d r := by
  cases d with
  | false => rfl
  | true => exact effectiveFrames_effective r

/-- **All streams.** -/
theorem openStreams_spec (b : BITMAPINFO) (wf : WAVEFORMATEXTENSIBLE) :
    ∀ (ss : List AviStream) (f : OutFile) (r i : Nat), ss ≠ [] → f.AtEnd → r < 2 ^ 32 →
      ∃ f', openStreams b wf ⟨f, r, d⟩ i ss = (⟨f', reservation d r, d⟩,
          openedStreams d (numStdIndexes r) f.bytes.length i ss) ∧
        f'.AtEnd ∧ f'.bytes = f.bytes ++ openedStrls b wf d (numStdIndexes r) ss := by
  intro ss
  induction ss with
  | nil =>
    intro f r i hne
    exact absurd rfl hne
  | cons s ss ih =>
    intro f r i _ hf hr
    obtain ⟨f₁, h₁, hend₁, hb₁⟩ := openStream_spec (d := d) hf hr i s
      (length_streamFormat b wf s.streamType)
    have hlen : f₁.bytes.length = f.bytes.length + strlLength d (numStdIndexes r) s := by
      rw [hb₁, List.length_append, length_strl (AVISTREAMHEADER.length_toBytes _),
        length_streamFormat, List.length_replicate, strlLength]
    by_cases hss : ss = []
    · subst hss
      refine ⟨f₁, ?_, hend₁, ?_⟩
      · simp only [openStreams, h₁, openedStreams]
      · rw [hb₁]
        simp only [openedStrls, List.flatMap_cons, List.flatMap_nil, List.append_nil]
    · obtain ⟨f₂, h₂, hend₂, hb₂⟩ := ih f₁ (reservation d r) (i + 1) hss hend₁ (reservation_lt hr)
      refine ⟨f₂, ?_, hend₂, ?_⟩
      · simp only [openStreams, h₁, h₂, openedStreams, hlen, numStdIndexes_reservation,
          reservation_reservation]
      · rw [hb₂, hb₁, numStdIndexes_reservation]
        simp only [openedStrls, List.flatMap_cons, List.append_assoc]

/-- The `odml` list is written, and where its header is. -/
theorem openOdml_spec (h : f.AtEnd) :
    (openOdml f).1.AtEnd ∧ (openOdml f).1.bytes = f.bytes ++ odmlList (List.replicate 248 0) ∧
      (openOdml f).2 = f.bytes.length + 20 := by
  have h₁ := atEnd_writeFcc h "LIST"
  have h₂ := h₁.1.write (le 4 (248 + 12))
  have h₃ := atEnd_writeFcc h₂ "odml"
  have h₄ := atEnd_writeFcc h₃.1 "dmlh"
  have h₅ := h₄.1.write (le 4 248)
  have hbytes : ((writeFcc (writeFcc ((writeFcc f "LIST").write (le 4 (248 + 12))) "odml")
      "dmlh").write (le 4 248)).bytes = f.bytes ++ ((fourcc "LIST").bytes ++ le 4 260 ++
        (fourcc "odml").bytes ++ (fourcc "dmlh").bytes ++ le 4 248) := by
    rw [h₄.1.bytes_write, h₄.2, h₃.2, h₁.1.bytes_write, h₁.2]
    simp only [List.append_assoc]
  refine ⟨h₅.write _, ?_, ?_⟩
  · show (OutFile.write _ _).bytes = _
    rw [h₅.bytes_write, hbytes, odmlList]
    simp only [List.append_assoc]
  · show OutFile.pos _ = _
    rw [h₅, hbytes]
    simp only [List.length_append, FourCC.length_bytes, length_le_bytes]

end

theorem AviWriter.length_avih (w : AviWriter) : w.avimHeader.toBytes.length = 64 :=
  AVIMAINHEADER.length_toBytes _

/-- What `open` writes. -/
def AviWriter.openedHead (w : AviWriter) : Head where
  riff := 0
  avih := w.avimHeader.toBytes
  strls := openedStrls w.bitmapInfo w.waveFormat w.openDML (numStdIndexes w.reservedFrames) w.streams
  odml := if w.openDML then odmlList (List.replicate 248 0) else []
  movi := 0
  length_avih := w.length_avih

theorem AviWriter.openedHead_riff (w : AviWriter) : w.openedHead.riff = 0 := rfl

theorem AviWriter.openedHead_movi (w : AviWriter) : w.openedHead.movi = 0 := rfl

theorem AviWriter.openedHead_avih (w : AviWriter) :
    w.openedHead.avih = w.avimHeader.toBytes := rfl

theorem AviWriter.openedHead_strls (w : AviWriter) : w.openedHead.strls =
    openedStrls w.bitmapInfo w.waveFormat w.openDML (numStdIndexes w.reservedFrames) w.streams :=
  rfl

theorem AviWriter.openedHead_odml (w : AviWriter) :
    w.openedHead.odml = if w.openDML then odmlList (List.replicate 248 0) else [] := rfl

/-- The writer when `open` has returned `true`. -/
def AviWriter.opened (w : AviWriter) : AviWriter :=
  let h := w.openedHead
  { w with
    f := ⟨h.bytes, h.bytes.length⟩
    posRIFFSize := 4
    posMoviListSize := h.bytes.length - 8
    posOdmlExt := if w.openDML then 108 + h.strls.length else w.posOdmlExt
    pos1stMoviStart := h.bytes.length - 4
    posAviMainHeader := 24
    streams := openedStreams w.openDML (numStdIndexes w.reservedFrames) 88 0 w.streams
    reservedFrames := reservation w.openDML w.reservedFrames
    riffSize := (h.bytes.length + sizeofOldIndex) % 2 ^ 32
    totalFrames := 0
    currBaseOff := 0 }

theorem OutFile_eq {f : OutFile} {bs : Bytes} (h : f.AtEnd) (hb : f.bytes = bs) :
    f = ⟨bs, bs.length⟩ := by
  cases f
  simp only [OutFile.AtEnd] at h hb
  rw [h, hb]

/-- **What `open` does.** -/
theorem AviWriter.open_eq (w : AviWriter) (hs : w.streams ≠ []) (hr : w.reservedFrames < 2 ^ 32)
    (hc : w.openDML = true ∨ w.reservedFrames ≠ 0) : w.open = (true, w.opened) := by
  have h₁ := atEnd_writeFcc OutFile.atEnd_empty "RIFF"
  have h₂ := h₁.1.write (le 4 0)
  have h₃ := atEnd_writeFcc h₂ "AVI "
  have h₄ := atEnd_writeFcc h₃.1 "LIST"
  have h₅ := h₄.1.write (le 4 0)
  have h₆ := atEnd_writeFcc h₅ "hdrl"
  have h₇ := h₆.1.write w.avimHeader.toBytes
  have hfront : ((writeFcc ((writeFcc (writeFcc ((writeFcc OutFile.empty "RIFF").write (le 4 0))
      "AVI ") "LIST").write (le 4 0)) "hdrl").write w.avimHeader.toBytes).bytes =
      (fourcc "RIFF").bytes ++ le 4 0 ++ (fourcc "AVI ").bytes ++ (fourcc "LIST").bytes ++ le 4 0 ++
        (fourcc "hdrl").bytes ++ w.avimHeader.toBytes := by
    rw [h₆.1.bytes_write, h₆.2, h₄.1.bytes_write, h₄.2, h₃.2, h₁.1.bytes_write, h₁.2]
    rfl
  have hlen := congrArg List.length hfront
  simp only [List.length_append, FourCC.length_bytes, length_le_bytes,
    AVIMAINHEADER.length_toBytes] at hlen
  obtain ⟨f₈, ho, h₈, hb₈⟩ := openStreams_spec (d := w.openDML) w.bitmapInfo w.waveFormat w.streams
    _ w.reservedFrames 0 hs h₇ hr
  rw [hlen] at ho
  -- The `odml` list, if there is one.
  obtain ⟨f₉, p, hodml, h₉, hb₉, hp⟩ : ∃ f₉ p,
      (if w.openDML then openOdml f₈ else (f₈, w.posOdmlExt)) = (f₉, p) ∧ f₉.AtEnd ∧
        f₉.bytes = f₈.bytes ++ w.openedHead.odml ∧
        p = if w.openDML then 108 + w.openedHead.strls.length else w.posOdmlExt := by
    have hlen₈ : f₈.bytes.length = 88 + w.openedHead.strls.length := by
      rw [hb₈, List.length_append, hlen]
      rfl
    cases hd : w.openDML with
    | false =>
      refine ⟨f₈, w.posOdmlExt, rfl, h₈, ?_, rfl⟩
      rw [w.openedHead_odml, hd, if_neg Bool.false_ne_true, List.append_nil]
    | true =>
      obtain ⟨hend, hbytes, hpos⟩ := openOdml_spec h₈
      refine ⟨(openOdml f₈).1, (openOdml f₈).2, rfl, hend, ?_, ?_⟩
      · rw [hbytes, w.openedHead_odml, hd, if_pos rfl]
      · rw [hpos, hlen₈, if_pos rfl]
        omega
  have hcut : f₉.bytes = ((fourcc "RIFF").bytes ++ le 4 0 ++ (fourcc "AVI ").bytes ++
      (fourcc "LIST").bytes) ++ le 4 0 ++ ((fourcc "hdrl").bytes ++ w.avimHeader.toBytes ++
        w.openedHead.strls ++ w.openedHead.odml) := by
    rw [hb₉, hb₈, hfront]
    rw [← w.openedHead_avih, ← w.openedHead_strls]
    simp only [List.append_assoc]
  have hsize : f₉.pos - 16 - 4 =
      68 + w.openedHead.strls.length + w.openedHead.odml.length := by
    rw [h₉, hcut]
    simp only [List.length_append, FourCC.length_bytes, length_le_bytes,
      AVIMAINHEADER.length_toBytes]
    omega
  obtain ⟨hpend, hpbytes⟩ := patchSize_spec (p := 16) (n := f₉.pos - 16 - 4) h₉ hcut rfl
  have h₁₀ := atEnd_writeFcc hpend "LIST"
  have h₁₁ := h₁₀.1.write (le 4 0)
  have h₁₂ := atEnd_writeFcc h₁₁ "movi"
  have hall : (writeFcc ((writeFcc (patchSize f₉ 16 (f₉.pos - 16 - 4)) "LIST").write (le 4 0))
      "movi").bytes = w.openedHead.bytes := by
    rw [h₁₂.2, h₁₀.1.bytes_write, h₁₀.2, hpbytes, hsize]
    rw [← w.openedHead_avih]
    simp only [Head.bytes, Head.front, Head.back, w.openedHead_riff, w.openedHead_movi,
      List.append_assoc]
  have hlist : (writeFcc (patchSize f₉ 16 (f₉.pos - 16 - 4)) "LIST").pos =
      w.openedHead.bytes.length - 8 := by
    rw [← hall, h₁₂.2, h₁₀.1.bytes_write, h₁₀.1]
    simp only [List.length_append, FourCC.length_bytes, length_le_bytes]
    omega
  have hmovi : ((writeFcc (patchSize f₉ 16 (f₉.pos - 16 - 4)) "LIST").write (le 4 0)).pos =
      w.openedHead.bytes.length - 4 := by
    rw [OutFile.pos_write, hlist, length_le_bytes, w.openedHead.length_bytes]
    omega
  have hfalse : (!w.openDML && decide (w.reservedFrames = 0)) = false := by
    rcases hc with hc | hc
    · rw [hc]
      rfl
    · simp [hc]
  have hf := OutFile_eq h₁₂.1 hall
  unfold AviWriter.open
  rw [if_neg hs, hfalse]
  simp only [Bool.false_eq_true, if_false]
  have hp4 : (writeFcc OutFile.empty "RIFF").pos = 4 := rfl
  have hp16 : (writeFcc (writeFcc ((writeFcc OutFile.empty "RIFF").write (le 4 0)) "AVI ")
      "LIST").pos = 16 := rfl
  have hp24 : (writeFcc ((writeFcc (writeFcc ((writeFcc OutFile.empty "RIFF").write (le 4 0))
      "AVI ") "LIST").write (le 4 0)) "hdrl").pos = 24 := rfl
  rw [hp4, hp16, hp24, ho]
  dsimp only
  rw [hodml]
  dsimp only
  rw [hlist, hmovi, hf, hp]
  rfl

end Maixii.Avi
