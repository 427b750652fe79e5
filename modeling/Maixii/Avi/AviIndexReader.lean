import Maixii.Avi.AviSuperIndex

/-!
# `Avi/AviIndexReader.lean`: reading the indexes of a closed file

A reader steps through the lists of the streams to the super index of one (`indxAt`), reads as many
of its entries as are in use, follows them to the standard indexes, and adds the base of each to the
offsets in it (`foundChunks`). All that it goes by is in the file. **In a closed file it finds each
super index where the writer has put it** (`indxAt_close`), and the entries and the standard indexes
as they were written (`closed_index`).
-/

set_option autoImplicit false

namespace Maixii.Avi

open Maixii.Lib AviWriter

/-! ## What a reader reads -/

/-- The chunk or list behind the one at `p`. -/
def behind (file : Bytes) (p : Nat) : Nat := p + 8 + dword file (p + 4)

/-- The list of stream `i`. That of the first stands behind the main header. -/
def strlAt (file : Bytes) : Nat → Nat
  | 0 => behind file 24
  | i + 1 => behind file (strlAt file i)

/-- The super index of stream `i`, which stands behind `strh` and `strf` in its list. -/
def indxAt (file : Bytes) (i : Nat) : Nat := behind file (behind file (strlAt file i + 12))

/-- An entry of the super index at `pos`. -/
def superEntryAt (file : Bytes) (pos k : Nat) : AVISUPERINDEX_ENTRY :=
  let b := readAt file (pos + (sizeofSuperIndex + sizeofSuperIndexEntry * k)) sizeofSuperIndexEntry
  ⟨fromLE (readAt b 0 8), dword b 8, dword b 12⟩

/-- The entries of the super index at `pos`, as many as `nEntriesInUse` says. -/
def superEntries (file : Bytes) (pos : Nat) : List AVISUPERINDEX_ENTRY :=
  (List.range (dword file (pos + 12))).map (superEntryAt file pos)

/-- There is a standard index at `p`. -/
def isStdIndex (file : Bytes) (p : Nat) : Bool :=
  readAt file p 4 = (fourcc "ix00").bytes || readAt file p 4 = (fourcc "ix01").bytes

/-- An entry of the standard index at `p`. -/
def stdEntryAt (file : Bytes) (p k : Nat) : AVISTDINDEX_ENTRY :=
  let b := readAt file (p + (sizeofStdIndex + sizeofStdIndexEntry * k)) sizeofStdIndexEntry
  ⟨dword b 0, dword b 4⟩

/-- `qwBaseOffset` of the standard index at `p`. -/
def baseAt (file : Bytes) (p : Nat) : Nat := fromLE (readAt file (p + 20) 8)

/-- Where the standard index at `p` says its chunks have their data, and how much of it. -/
def indexedChunks (file : Bytes) (p : Nat) : List (Nat × Nat) :=
  (List.range (dword file (p + 12))).map fun k =>
    (baseAt file p + (stdEntryAt file p k).dwOffset, (stdEntryAt file p k).dwSize)

/-- The chunks that the super index at `pos` leads to. -/
def foundChunks (file : Bytes) (pos : Nat) : List (Nat × Nat) :=
  ((superEntries file pos).filter fun e => isStdIndex file e.qwOffset).flatMap fun e =>
    indexedChunks file e.qwOffset

/-- An entry of a super index says where a standard index is, its size and how many entries it
has. -/
structure IsListed (file : Bytes) (e : AVISUPERINDEX_ENTRY) : Prop where
  name : isStdIndex file e.qwOffset = true
  size : e.dwSize = dword file (e.qwOffset + 4) + 8
  count : e.dwDuration = dword file (e.qwOffset + 12)
  whole : e.dwSize = sizeofStdIndex + sizeofStdIndexEntry * e.dwDuration

/-! ## Reading one record -/

theorem AVISUPERINDEX.dword_entriesInUse {x : AVISUPERINDEX} (h : x.nEntriesInUse < 2 ^ 32) :
    dword x.toBytes 12 = x.nEntriesInUse := by
  refine dword_at (a := x.fcc.bytes ++ le 4 x.cb ++
      (le 2 x.wLongsPerEntry ++ le 1 0 ++ le 1 x.bIndexType))
    (b := x.dwChunkId.bytes ++ dwords [0, 0, 0]) ?_ ?_ h
  · simp only [AVISUPERINDEX.toBytes, AVISUPERINDEX.body, List.append_assoc]
  · simp only [List.length_append, FourCC.length_bytes, length_le_bytes]

/-- A super index entry is read as it was written. -/
theorem superEntryAt_eq {file a b head : Bytes} {es : List AVISUPERINDEX_ENTRY} {pos k : Nat}
    {e : AVISUPERINDEX_ENTRY}
    (hfile : file = a ++ (head ++ es.flatMap AVISUPERINDEX_ENTRY.toBytes) ++ b)
    (hpos : pos = a.length) (hhead : head.length = sizeofSuperIndex) (hk : es[k]? = some e)
    (hoffset : e.qwOffset < 2 ^ 64) (hsize : e.dwSize < 2 ^ 32) (hcount : e.dwDuration < 2 ^ 32) :
    superEntryAt file pos k = e := by
  have hlt := (List.getElem?_eq_some_iff.mp hk).1
  have hlen := length_flatMap_records (g := AVISUPERINDEX_ENTRY.toBytes)
    (fun e => AVISUPERINDEX_ENTRY.length_toBytes e) es
  have hin : sizeofSuperIndexEntry * k + sizeofSuperIndexEntry ≤
      (es.flatMap AVISUPERINDEX_ENTRY.toBytes).length := by
    rw [hlen, ← Nat.mul_succ]
    exact Nat.mul_le_mul_left _ hlt
  have hrecord : readAt file (pos + (sizeofSuperIndex + sizeofSuperIndexEntry * k))
      sizeofSuperIndexEntry = e.toBytes := by
    rw [hfile, hpos, readAt_inside _ _ _ (by rw [List.length_append, hhead]; omega), ← hhead,
      readAt_append_right, readAt_flatMap (fun e => AVISUPERINDEX_ENTRY.length_toBytes e) hk]
  have h₁ : readAt e.toBytes 0 8 = le 8 e.qwOffset := by
    exact readAt_middle [] (le 8 e.qwOffset) _ rfl (length_le_bytes 8 _).symm
  have h₂ : dword e.toBytes 8 = e.dwSize := by
    refine dword_at (a := le 8 e.qwOffset) (b := dwords [e.dwDuration]) ?_
      (length_le_bytes 8 _).symm hsize
    rw [AVISUPERINDEX_ENTRY.toBytes, dwords_cons, ← List.append_assoc]
  have h₃ : dword e.toBytes 12 = e.dwDuration := by
    refine dword_at (a := le 8 e.qwOffset ++ le 4 e.dwSize) (b := []) ?_ ?_ hcount
    · rw [AVISUPERINDEX_ENTRY.toBytes, dwords_cons, ← List.append_assoc, List.append_nil]
      exact congrArg (_ ++ ·) (List.append_nil _)
    · rw [List.length_append, length_le_bytes, length_le_bytes]
  unfold superEntryAt
  rw [hrecord]
  dsimp only
  rw [h₁, h₂, h₃, fromLE_le_of_lt hoffset]

theorem AVISTDINDEX.dword_cb {x : AVISTDINDEX} (h : x.cb < 2 ^ 32) : dword x.toBytes 4 = x.cb :=
  dword_at (a := x.fcc.bytes) (b := x.body) rfl rfl h

theorem AVISTDINDEX.dword_entriesInUse {x : AVISTDINDEX} (h : x.nEntriesInUse < 2 ^ 32) :
    dword x.toBytes 12 = x.nEntriesInUse := by
  refine dword_at (a := x.fcc.bytes ++ le 4 x.cb ++
      (le 2 x.wLongsPerEntry ++ le 1 0 ++ le 1 x.bIndexType))
    (b := x.dwChunkId.bytes ++ le 8 x.qwBaseOffset ++ le 4 0) ?_ ?_ h
  · simp only [AVISTDINDEX.toBytes, AVISTDINDEX.body, List.append_assoc]
  · simp only [List.length_append, FourCC.length_bytes, length_le_bytes]

theorem AVISTDINDEX.readAt_base (x : AVISTDINDEX) :
    readAt x.toBytes 20 8 = le 8 x.qwBaseOffset := by
  have hcut : x.toBytes = (x.fcc.bytes ++ le 4 x.cb ++ (le 2 x.wLongsPerEntry ++ le 1 0 ++
      le 1 x.bIndexType ++ le 4 x.nEntriesInUse ++ x.dwChunkId.bytes)) ++
        le 8 x.qwBaseOffset ++ le 4 0 := by
    simp only [AVISTDINDEX.toBytes, AVISTDINDEX.body, List.append_assoc]
  rw [hcut]
  refine readAt_middle _ _ _ ?_ (length_le_bytes 8 _).symm
  simp only [List.length_append, FourCC.length_bytes, length_le_bytes]

/-- A standard index in a file. -/
structure IndexAt (file : Bytes) (p : Nat) (x : AVISTDINDEX) (es : List AVISTDINDEX_ENTRY) :
    Prop where
  found : ∃ a b, file = a ++ ixChunk x es ++ b ∧ p = a.length
  few : es.length ≤ perIndex
  base : x.qwBaseOffset < 2 ^ 64
  small : ∀ e ∈ es, e.dwOffset < 2 ^ 32 ∧ e.dwSize < 2 ^ 32

namespace IndexAt

variable {file : Bytes} {p : Nat} {x : AVISTDINDEX} {es : List AVISTDINDEX_ENTRY}

/-- Reading in the header of the index. -/
theorem readAt_header (h : IndexAt file p x es) {q n : Nat} (hq : q + n ≤ sizeofStdIndex) :
    readAt file (p + q) n = readAt (closedIndex x es).toBytes q n := by
  obtain ⟨a, b, hfile, rfl⟩ := h.found
  rw [hfile, ixChunk, readAt_inside _ _ _ (by
      rw [List.length_append, AVISTDINDEX.length_toBytes]; omega),
    readAt_append_left (by rw [AVISTDINDEX.length_toBytes]; exact hq)]

theorem dword_size (h : IndexAt file p x es) :
    dword file (p + 4) + 8 = sizeofStdIndex + sizeofStdIndexEntry * es.length := by
  have hfew := h.few
  have hcb : (closedIndex x es).cb < 2 ^ 32 := by
    show sizeofStdIndex - 8 + sizeofStdIndexEntry * es.length < _
    unfold sizeofStdIndex sizeofStdIndexEntry perIndex at *
    omega
  rw [dword, h.readAt_header (by decide), ← dword, AVISTDINDEX.dword_cb hcb]
  show sizeofStdIndex - 8 + sizeofStdIndexEntry * es.length + 8 = _
  unfold sizeofStdIndex
  omega

theorem dword_count (h : IndexAt file p x es) : dword file (p + 12) = es.length := by
  have hfew := h.few
  have hcount : (closedIndex x es).nEntriesInUse < 2 ^ 32 := by
    show es.length < _
    unfold perIndex at hfew
    omega
  rw [dword, h.readAt_header (by decide), ← dword, AVISTDINDEX.dword_entriesInUse hcount]
  rfl

theorem baseAt (h : IndexAt file p x es) : baseAt file p = x.qwBaseOffset := by
  rw [Avi.baseAt, h.readAt_header (by decide), AVISTDINDEX.readAt_base, fromLE_le_of_lt h.base]
  rfl

theorem stdEntryAt (h : IndexAt file p x es) {k : Nat} {e : AVISTDINDEX_ENTRY}
    (hk : es[k]? = some e) : stdEntryAt file p k = e := by
  obtain ⟨a, b, hfile, rfl⟩ := h.found
  have hlt := (List.getElem?_eq_some_iff.mp hk).1
  obtain ⟨hoffset, hsize⟩ := h.small e (List.mem_of_getElem? hk)
  have hlen := length_flatMap_entries es
  have hin : sizeofStdIndexEntry * k + sizeofStdIndexEntry ≤
      (es.flatMap AVISTDINDEX_ENTRY.toBytes).length := by
    rw [hlen, ← Nat.mul_succ]
    exact Nat.mul_le_mul_left _ hlt
  have hrecord : readAt file (a.length + (sizeofStdIndex + sizeofStdIndexEntry * k))
      sizeofStdIndexEntry = e.toBytes := by
    rw [hfile, ixChunk, readAt_inside _ _ _ (by
        rw [List.length_append, AVISTDINDEX.length_toBytes]; omega),
      ← AVISTDINDEX.length_toBytes (closedIndex x es), readAt_append_right,
      readAt_flatMap (fun e => AVISTDINDEX_ENTRY.length_toBytes e) hk]
  have h₁ : dword e.toBytes 0 = e.dwOffset :=
    dword_at (a := []) (b := dwords [e.dwSize]) rfl rfl hoffset
  have h₂ : dword e.toBytes 4 = e.dwSize := by
    refine dword_at (a := le 4 e.dwOffset) (b := []) ?_ (length_le_bytes 4 _).symm hsize
    rw [List.append_nil]
    exact congrArg (_ ++ ·) (List.append_nil _)
  unfold Avi.stdEntryAt
  rw [hrecord]
  dsimp only
  rw [h₁, h₂]

/-- **What a standard index leads to.** -/
theorem indexedChunks (h : IndexAt file p x es) :
    indexedChunks file p = es.map fun e => (x.qwBaseOffset + e.dwOffset, e.dwSize) := by
  refine List.ext_getElem? fun k => ?_
  unfold Avi.indexedChunks
  rw [h.dword_count, List.getElem?_map, List.getElem?_map, h.baseAt]
  cases hk : es[k]? with
  | none =>
    have hge := List.getElem?_eq_none_iff.mp hk
    rw [List.getElem?_eq_none (by rw [List.length_range]; exact hge)]
    rfl
  | some e =>
    have hlt := (List.getElem?_eq_some_iff.mp hk).1
    rw [List.getElem?_range hlt, Option.map_some, Option.map_some, h.stdEntryAt hk]

/-- The entry for it in the super index is right. -/
theorem isListed (h : IndexAt file p x es)
    (hname : x.fcc = fourcc "ix00" ∨ x.fcc = fourcc "ix01") :
    IsListed file ⟨p, sizeofStdIndex + sizeofStdIndexEntry * es.length, es.length⟩ := by
  have hfcc : readAt file p 4 = x.fcc.bytes := by
    have hread := h.readAt_header (q := 0) (n := 4) (by decide)
    rw [Nat.add_zero] at hread
    rw [hread]
    exact readAt_middle [] x.fcc.bytes _ rfl rfl
  refine ⟨?_, h.dword_size.symm, h.dword_count.symm, rfl⟩
  unfold isStdIndex
  rw [hfcc]
  rcases hname with hname | hname
  · rw [hname]
    rfl
  · rw [hname]
    rfl

end IndexAt

/-! ## Where the indexes stand -/

/-- The standard index `k` of a stream, among the others. -/
theorem ixBytes_cut (idxs : List AVISTDINDEX) {ents : List (Int × List AVISTDINDEX_ENTRY)}
    {k : Nat} {key : Int} {es : List AVISTDINDEX_ENTRY} (hk : ents[k]? = some (key, es))
    (pos : Nat) : ∃ a b,
      ixBytes idxs ents = a ++ ixChunk ((idxs[key.toNat]?).getD blankStdIndex) es ++ b ∧
        (supersFrom pos ents)[k]? = some
          ⟨pos + a.length, sizeofStdIndex + sizeofStdIndexEntry * es.length, es.length⟩ := by
  induction ents generalizing k pos with
  | nil => cases hk
  | cons x ents ih =>
    obtain ⟨key', es'⟩ := x
    cases k with
    | zero =>
      obtain ⟨rfl, rfl⟩ := Prod.mk.inj (Option.some.inj hk)
      exact ⟨[], ixBytes idxs ents, rfl, rfl⟩
    | succ k =>
      obtain ⟨a, b, hbytes, hsuper⟩ := ih hk
        (pos + (sizeofStdIndex + sizeofStdIndexEntry * es'.length))
      refine ⟨ixChunk ((idxs[key'.toNat]?).getD blankStdIndex) es' ++ a, b, ?_, ?_⟩
      · rw [ixBytes, hbytes]
        simp only [List.append_assoc]
      · rw [supersFrom, List.getElem?_cons_succ, hsuper, List.length_append, length_ixChunk,
          Nat.add_assoc]

/-- The room and the indexes of a stream, among the others. -/
theorem rows_cut (header : AviStream → AVISTREAMHEADER) {rows : List RowOf} {off i : Nat}
    (hplaced : PlacedAt true off rows) (hfit : SupersFit rows) {r : RowOf}
    (hi : rows[i]? = some r) (pos : Nat) : ∃ a b a' b',
      rowBytes (withHeaders header (withSupers pos rows)) =
        a ++ (superBytes (pos + a'.length) r.2 ++
          r.1.super.drop (clearsize r.2.stdIndexEntries.length)) ++ b ∧
      r.2.posOdmlSuperIdx = off + a.length ∧
      allIndexes rows = a' ++ ixBytes r.2.stdIndexes r.2.stdIndexEntries ++ b' := by
  induction rows generalizing off i pos with
  | nil => cases hi
  | cons x rows ih =>
    obtain ⟨-, hsuper, hrest⟩ := hplaced
    have hroom := hfit x (List.mem_cons_self ..)
    rw [← length_superBytes pos] at hroom
    have hlen := Row.length_withSuper x.1 hroom
    have hone : ((x.1.withSuper (superBytes pos x.2)).withHeader (header x.2)).bytes.length =
        x.1.length := (Row.length_bytes _).trans hlen
    have hbytes : rowBytes (withHeaders header (withSupers pos (x :: rows))) =
        ((x.1.withSuper (superBytes pos x.2)).withHeader (header x.2)).bytes ++
          rowBytes (withHeaders header (withSupers
            (pos + (ixBytes x.2.stdIndexes x.2.stdIndexEntries).length) rows)) := rfl
    have hall : allIndexes (x :: rows) =
        ixBytes x.2.stdIndexes x.2.stdIndexEntries ++ allIndexes rows := rfl
    cases i with
    | zero =>
      obtain rfl := Option.some.inj hi
      -- what stands in front of the room
      let front := (fourcc "LIST").bytes ++ le 4 (72 + x.1.format.length +
        (patch x.1.super 0 (superBytes pos x.2)).length) ++ (fourcc "strl").bytes ++
          (header x.2).toBytes ++ (fourcc "strf").bytes ++ x.1.format
      have hfront : front.length = 80 + x.1.format.length := by
        simp only [front, List.length_append, FourCC.length_bytes, length_le_bytes,
          AVISTREAMHEADER.length_toBytes]
      have hpatch : patch x.1.super 0 (superBytes pos x.2) =
          superBytes pos x.2 ++ x.1.super.drop (superBytes pos x.2).length := by
        rw [patch_eq (Nat.zero_le _), List.take_zero, List.nil_append, Nat.zero_add]
      rw [length_superBytes] at hpatch
      refine ⟨front, rowBytes (withHeaders header
        (withSupers (pos + (ixBytes x.2.stdIndexes x.2.stdIndexEntries).length) rows)), [],
        allIndexes rows, ?_, ?_, ?_⟩
      · rw [hbytes]
        show strl _ _ (patch x.1.super 0 (superBytes pos x.2)) ++ _ = _
        have hstrl : strl (header x.2).toBytes x.1.format
            (patch x.1.super 0 (superBytes pos x.2)) =
            front ++ patch x.1.super 0 (superBytes pos x.2) := rfl
        refine (congrArg (· ++ _) (hstrl.trans (congrArg (front ++ ·) hpatch))).trans ?_
        simp only [List.append_assoc, List.length_nil, Nat.add_zero]
      · rw [hsuper rfl, hfront]
        omega
      · rw [hall, List.nil_append]
    | succ i =>
      obtain ⟨a, b, a', b', hrow, hpos, hidx⟩ := ih hrest
        (fun y hy => hfit y (List.mem_cons_of_mem _ hy)) hi
        (pos + (ixBytes x.2.stdIndexes x.2.stdIndexEntries).length)
      refine ⟨((x.1.withSuper (superBytes pos x.2)).withHeader (header x.2)).bytes ++ a, b,
        ixBytes x.2.stdIndexes x.2.stdIndexEntries ++ a', b', ?_, ?_, ?_⟩
      · rw [hbytes, hrow, List.length_append]
        simp only [List.append_assoc, Nat.add_assoc]
      · rw [hpos, List.length_append, hone]
        omega
      · rw [hall, hidx]
        simp only [List.append_assoc]

section

variable {c : AviConfig} {w : AviWriter} {placed : List Placement}

/-- The indexes stand in the closed file where the file ended before. -/
theorem closed_indexes (h : Layout c w placed) (hfit : RoomForIndexes c w) :
    ∃ a b, w.close.f.bytes = a ++ closedIndexes c w ++ b ∧ a.length = w.f.bytes.length := by
  have hbytes := closed_bytes h hfit
  have hold := congrArg List.length h.bytes
  have hhead : (firstHead (closedHead c w) w.oldIndexEntries
      (closedBody c w placed 0)).bytes.length = c.head.bytes.length := by
    rw [← length_closedHead h hfit, Head.length_bytes, Head.length_bytes]
    rfl
  rw [List.length_append, List.length_append, length_headSoFar] at hold
  cases hn : w.riffIdx with
  | zero =>
    rw [hn] at hbytes hold
    have hbody : closedBody c w placed 0 = c.bodyOf placed 0 ++ closedIndexes c w := by
      rw [closedBody, if_pos hn.symm]
    refine ⟨(firstHead (closedHead c w) w.oldIndexEntries (closedBody c w placed 0)).bytes ++
      c.bodyOf placed 0, idx1 w.oldIndexEntries, ?_, ?_⟩
    · rw [hbytes, finishedPart, hbody]
      simp only [List.append_assoc]
    · rw [List.length_append, hhead, hold, openPart, List.length_nil, Nat.zero_add]
  | succ n =>
    rw [hn] at hbytes hold
    have hlast : closedBody c w placed (n + 1) = c.bodyOf placed (n + 1) ++ closedIndexes c w := by
      rw [closedBody, if_pos hn.symm]
    have hbefore : ∀ k, k ≤ n → closedBody c w placed k = c.bodyOf placed k := by
      intro k hk
      rw [closedBody, if_neg (by omega), List.append_nil]
    have hpart : finishedPart w.oldIndexEntries (closedBody c w placed) n =
        finishedPart w.oldIndexEntries (c.bodyOf placed) n := finishedPart_congr hbefore
    refine ⟨(firstHead (closedHead c w) w.oldIndexEntries (closedBody c w placed 0)).bytes ++
      (finishedPart w.oldIndexEntries (c.bodyOf placed) n ++
        (avixHeader (16 + (closedBody c w placed (n + 1)).length)
          (4 + (closedBody c w placed (n + 1)).length) ++ c.bodyOf placed (n + 1))), [], ?_, ?_⟩
    · rw [hbytes, finishedPart, hpart, avix, List.append_nil]
      conv_lhs => rw [show closedBody c w placed (n + 1) =
        c.bodyOf placed (n + 1) ++ closedIndexes c w from hlast]
      rw [hlast]
      simp only [List.append_assoc]
    · rw [List.length_append, hhead, hold, openPart]
      simp only [List.length_append, length_avixHeader]
      omega

/-- The lists of the streams stand in the closed file behind the main header, and it begins as a
RIFF file. -/
theorem closed_strls (h : Layout c w placed) (hfit : RoomForIndexes c w) : ∃ a b,
    w.close.f.bytes = (a ++ w.avimHeader.toBytes) ++ rowBytes (closedRows c w) ++ b ∧
      a.length = 24 ∧ readAt w.close.f.bytes 0 4 = (fourcc "RIFF").bytes := by
  let hd := firstHead (closedHead c w) w.oldIndexEntries (closedBody c w placed 0)
  let tail := (fourcc "AVI ").bytes ++ (fourcc "LIST").bytes ++
    le 4 (68 + hd.strls.length + hd.odml.length) ++ (fourcc "hdrl").bytes
  have hbytes : w.close.f.bytes = (fourcc "RIFF").bytes ++ le 4 hd.riff ++ tail ++
      w.avimHeader.toBytes ++ rowBytes (closedRows c w) ++ (hd.odml ++ hd.back ++
        finishedPart w.oldIndexEntries (closedBody c w placed) w.riffIdx) := by
    rw [closed_bytes h hfit]
    show hd.front ++ hd.strls ++ hd.odml ++ hd.back ++ _ = _
    simp only [Head.front, tail, List.append_assoc]
    rfl
  refine ⟨(fourcc "RIFF").bytes ++ le 4 hd.riff ++ tail, _, hbytes, ?_, ?_⟩
  · simp only [tail, List.length_append, FourCC.length_bytes, length_le_bytes]
  · rw [hbytes]
    simp only [List.append_assoc]
    exact readAt_middle [] (fourcc "RIFF").bytes _ rfl rfl

/-- **The index of a stream in the closed file**: the room of its super index, which is zero behind
the entries, and each of its standard indexes. -/
theorem closed_index (h : Layout c w placed) (hd : c.openDML = true) (hfit : RoomForIndexes c w)
    {i : Nat} {s : AviStream} (hs : w.streams[i]? = some s) : ∃ pos,
      (∃ a b, w.close.f.bytes = a ++ (superBytes pos s ++
          List.replicate (clearsize c.slots - clearsize s.stdIndexEntries.length) 0) ++ b ∧
        s.posOdmlSuperIdx = a.length) ∧
      ∃ a b, w.close.f.bytes = a ++ ixBytes s.stdIndexes s.stdIndexEntries ++ b ∧
        pos = a.length := by
  obtain ⟨hsnd, -, hplaced⟩ := h.rows_spec
  rw [hd] at hplaced
  have hi : (c.rows w)[i]?.map Prod.snd = some s := by
    rw [← List.getElem?_map, hsnd, hs]
  obtain ⟨r, hr, rfl⟩ := Option.map_eq_some_iff.mp hi
  obtain ⟨a, b, a', b', hrow, hpos, hidx⟩ :=
    rows_cut w.closedHeader hplaced (hfit hd) hr w.f.bytes.length
  obtain ⟨x, y, hstrls, hx, -⟩ := closed_strls h hfit
  obtain ⟨u, v, hindexes, hu⟩ := closed_indexes h hfit
  have hzeros : r.1.super.drop (clearsize r.2.stdIndexEntries.length) =
      List.replicate (clearsize c.slots - clearsize r.2.stdIndexEntries.length) 0 := by
    rw [← List.drop_replicate]
    exact congrArg (List.drop _) (super_rows hd (List.mem_of_getElem? hr))
  rw [closedRows, hd, if_pos rfl, hrow, hzeros] at hstrls
  rw [closedIndexes, hd, if_pos rfl, hidx] at hindexes
  refine ⟨w.f.bytes.length + a'.length, ⟨x ++ w.avimHeader.toBytes ++ a, b ++ y, ?_, ?_⟩,
    u ++ a', b' ++ v, ?_, ?_⟩
  · rw [hstrls]
    simp only [List.append_assoc]
  · rw [hpos, List.length_append, List.length_append, hx, AVIMAINHEADER.length_toBytes]
  · rw [hindexes]
    simp only [List.append_assoc]
  · rw [List.length_append, hu]

end

/-! ## Stepping from stream to stream -/

/-- The sizes by which a reader steps over a row are right. -/
structure Row.Stepped (r : Row) : Prop where
  header : dword r.header 4 = 56
  format : dword r.format 0 + 4 = r.format.length
  small : r.length < 2 ^ 32

/-- **A reader steps** over a row, and inside of it to the room of the super index. -/
theorem behind_row {file a b : Bytes} {r : Row} (h : file = a ++ r.bytes ++ b) (hr : r.Stepped) :
    behind file a.length = a.length + r.length ∧
      behind file (behind file (a.length + 12)) = a.length + (80 + r.format.length) := by
  have hsmall := hr.small
  have hlen := r.length_header
  have hformat := hr.format
  have hlength : r.length = 80 + r.format.length + r.super.length := rfl
  have hsize : dword file (a.length + 4) = 72 + r.format.length + r.super.length := by
    rw [h, dword_inside _ _ _ (by rw [r.length_bytes]; omega)]
    refine dword_at (a := (fourcc "LIST").bytes) (b := (fourcc "strl").bytes ++ r.header ++
      (fourcc "strf").bytes ++ r.format ++ r.super) ?_ rfl (by omega)
    simp only [Row.bytes, strl, List.append_assoc]
  -- `strh` stands behind the twelve bytes that begin the list
  have hstrh : dword file (a.length + 12 + 4) = 56 := by
    have hcut : file = (a ++ ((fourcc "LIST").bytes ++ le 4 (72 + r.format.length +
        r.super.length) ++ (fourcc "strl").bytes)) ++ r.header ++
          ((fourcc "strf").bytes ++ r.format ++ r.super ++ b) := by
      rw [h]
      simp only [Row.bytes, strl, List.append_assoc]
    have hread := dword_inside (a ++ ((fourcc "LIST").bytes ++ le 4 (72 + r.format.length +
      r.super.length) ++ (fourcc "strl").bytes)) r.header
        ((fourcc "strf").bytes ++ r.format ++ r.super ++ b) (q := 4) (by omega)
    rw [← hcut, hr.header] at hread
    simpa only [List.length_append, FourCC.length_bytes, length_le_bytes] using hread
  -- and `strf` behind it
  have hstrf : dword file (a.length + 76 + 4) = dword r.format 0 := by
    have hcut : file = (a ++ ((fourcc "LIST").bytes ++ le 4 (72 + r.format.length +
        r.super.length) ++ (fourcc "strl").bytes ++ r.header ++ (fourcc "strf").bytes)) ++
          r.format ++ (r.super ++ b) := by
      rw [h]
      simp only [Row.bytes, strl, List.append_assoc]
    have hread := dword_inside (a ++ ((fourcc "LIST").bytes ++ le 4 (72 + r.format.length +
      r.super.length) ++ (fourcc "strl").bytes ++ r.header ++ (fourcc "strf").bytes))
        r.format (r.super ++ b) (q := 0) (by omega)
    rw [← hcut] at hread
    simpa only [List.length_append, FourCC.length_bytes, length_le_bytes, hlen, Nat.add_zero]
      using hread
  have hfirst : behind file (a.length + 12) = a.length + 76 := by
    rw [behind, hstrh]
  refine ⟨?_, ?_⟩
  · rw [behind, hsize, hlength]
    omega
  · rw [hfirst, behind, hstrf]
    omega

theorem rowBytes_cut {rows : List RowOf} {i : Nat} {r : RowOf} (hi : rows[i]? = some r) :
    rowBytes rows = rowBytes (rows.take i) ++ r.1.bytes ++ rowBytes (rows.drop (i + 1)) := by
  obtain ⟨hlt, hget⟩ := List.getElem?_eq_some_iff.mp hi
  have hcut : rows = rows.take i ++ r :: rows.drop (i + 1) := by
    rw [← hget, ← List.drop_eq_getElem_cons hlt, List.take_append_drop]
  conv_lhs => rw [hcut, rowBytes, List.flatMap_append, List.flatMap_cons]
  rw [rowBytes, rowBytes, List.append_assoc]

/-- Where a reader finds the list of a stream. -/
theorem strlAt_rows {file a b : Bytes} {rows : List RowOf} (h : file = a ++ rowBytes rows ++ b)
    (hfirst : behind file 24 = a.length) (hrows : ∀ r ∈ rows, r.1.Stepped) {i : Nat}
    (hi : i ≤ rows.length) : strlAt file i = a.length + (rowBytes (rows.take i)).length := by
  induction i with
  | zero =>
    rw [strlAt, hfirst, List.take_zero]
    rfl
  | succ i ih =>
    have hget := List.getElem?_eq_getElem (show i < rows.length from hi)
    have hcut : file = (a ++ rowBytes (rows.take i)) ++ rows[i].1.bytes ++
        (rowBytes (rows.drop (i + 1)) ++ b) := by
      rw [h, rowBytes_cut hget]
      simp only [List.append_assoc]
    have hstep := (behind_row hcut (hrows _ (List.getElem_mem _))).1
    rw [List.length_append] at hstep
    rw [strlAt, ih (Nat.le_of_succ_le hi), hstep, List.take_succ_eq_append_getElem hi, rowBytes,
      rowBytes, List.flatMap_append, List.length_append, List.flatMap_singleton, Row.length_bytes,
      Nat.add_assoc]

/-- Where a reader finds the super index of a stream. -/
theorem indxAt_rows {file a b : Bytes} {rows : List RowOf} (h : file = a ++ rowBytes rows ++ b)
    (hfirst : behind file 24 = a.length) (hrows : ∀ r ∈ rows, r.1.Stepped) {i : Nat} {r : RowOf}
    (hi : rows[i]? = some r) :
    indxAt file i = a.length + (rowBytes (rows.take i)).length + (80 + r.1.format.length) := by
  have hlt := (List.getElem?_eq_some_iff.mp hi).1
  have hcut : file = (a ++ rowBytes (rows.take i)) ++ r.1.bytes ++
      (rowBytes (rows.drop (i + 1)) ++ b) := by
    rw [h, rowBytes_cut hi]
    simp only [List.append_assoc]
  have hstep := (behind_row hcut (hrows r (List.mem_of_getElem? hi))).2
  rw [List.length_append] at hstep
  rw [indxAt, strlAt_rows h hfirst hrows (Nat.le_of_lt hlt), hstep]

/-- Where the writer has noted it. -/
theorem PlacedAt.super {off : Nat} {rows : List RowOf} (h : PlacedAt true off rows) {i : Nat}
    {r : RowOf} (hi : rows[i]? = some r) :
    r.2.posOdmlSuperIdx = off + (rowBytes (rows.take i)).length + (80 + r.1.format.length) := by
  induction rows generalizing off i with
  | nil => cases hi
  | cons x rows ih =>
    obtain ⟨-, hsuper, hrest⟩ := h
    cases i with
    | zero =>
      obtain rfl := Option.some.inj hi
      rw [hsuper rfl, List.take_zero]
      exact Nat.add_assoc off 80 _
    | succ i =>
      rw [ih hrest hi, List.take_succ_cons, rowBytes, rowBytes, List.flatMap_cons,
        List.length_append, Row.length_bytes, Nat.add_assoc off]

theorem mem_withSupers {rows : List RowOf} {pos : Nat} {q : RowOf} (h : q ∈ withSupers pos rows) :
    ∃ x pos', x ∈ rows ∧ q = (x.1.withSuper (superBytes pos' x.2), x.2) := by
  induction rows generalizing pos with
  | nil => cases h
  | cons x rows ih =>
    rcases List.mem_cons.mp h with rfl | h
    · exact ⟨x, pos, List.mem_cons_self .., rfl⟩
    · obtain ⟨y, pos', hy, hq⟩ := ih h
      exact ⟨y, pos', List.mem_cons_of_mem _ hy, hq⟩

theorem PlacedAt.withHeaders {dml : Bool} {off : Nat} {rows : List RowOf}
    (h : PlacedAt dml off rows) (header : AviStream → AVISTREAMHEADER) :
    PlacedAt dml off (withHeaders header rows) := by
  induction rows generalizing off with
  | nil => trivial
  | cons x rows ih =>
    obtain ⟨hheader, hsuper, hrest⟩ := h
    exact ⟨hheader, hsuper, ih hrest⟩

section

variable {c : AviConfig} {w : AviWriter} {placed : List Placement}

/-- The rows of the closed file. -/
theorem closedRows_spec (h : Layout c w placed) (hc : Counted c w placed) (hd : c.openDML = true)
    (hfit : RoomForIndexes c w) : (closedRows c w).map Prod.snd = w.streams ∧
      PlacedAt true 88 (closedRows c w) ∧ ∀ r ∈ closedRows c w, r.1.Stepped := by
  obtain ⟨hsnd, -, hplaced⟩ := h.rows_spec
  rw [hd] at hplaced
  have hrows : closedRows c w =
      withHeaders w.closedHeader (withSupers w.f.bytes.length (c.rows w)) := by
    rw [closedRows, hd, if_pos rfl]
  refine ⟨?_, ?_, ?_⟩
  · rw [hrows, withHeaders, List.map_map]
    exact (map_snd_withSupers _ _).trans hsnd
  · rw [hrows]
    exact (hplaced.withSupers (hfit hd) _).withHeaders _
  · intro r hr
    rw [hrows, withHeaders] at hr
    obtain ⟨q, hq, rfl⟩ := List.mem_map.mp hr
    obtain ⟨x, pos, hx, rfl⟩ := mem_withSupers hq
    have hmem : x.2 ∈ w.streams := by
      rw [← hsnd]
      exact List.mem_map_of_mem hx
    have hregular := h.regular hc hfit x.2 hmem
    obtain ⟨s₀, hs₀, hrow⟩ := mem_rows hx
    obtain ⟨p, rfl⟩ := c.declared_of_mem hs₀
    have hknown : (declaredStream p).streamType ≠ .unknown := by
      cases p <;> exact fun h => StreamType.noConfusion h
    obtain ⟨hcut, -, hshort⟩ := c.streamFormat_eq hknown
    have hformat : x.1.format = streamFormat c.writer.bitmapInfo c.writer.waveFormat
        (declaredStream p).streamType := congrArg Row.format hrow
    have hroom := hfit hd x hx
    rw [← length_superBytes pos] at hroom
    have hsuper := congrArg List.length (super_rows hd hx)
    rw [List.length_replicate] at hsuper
    have hslots := clearsize_slots_lt c
    refine ⟨?_, ?_, ?_⟩
    · refine dword_at (a := (w.closedHeader x.2).fcc.bytes) (b := (w.closedHeader x.2).body)
        ?_ rfl (by decide)
      rw [← hregular.cb]
      rfl
    · have hsize : dword x.1.format 0 = (c.formatBody (declaredStream p).streamType).length := by
        rw [hformat, hcut]
        exact dword_at (a := []) rfl rfl (by omega)
      show dword x.1.format 0 + 4 = x.1.format.length
      rw [hsize, hformat, hcut, List.length_append, length_le_bytes, Nat.add_comm]
    · show (x.1.withSuper (superBytes pos x.2)).length < _
      rw [Row.length_withSuper _ hroom, Row.length, hformat, hcut, List.length_append,
        length_le_bytes, hsuper]
      omega

/-- **A reader of the closed file finds each super index** where the writer has put it. -/
theorem indxAt_close (h : Layout c w placed) (hc : Counted c w placed) (hd : c.openDML = true)
    (hfit : RoomForIndexes c w) {i : Nat} {s : AviStream} (hs : w.streams[i]? = some s) :
    indxAt w.close.f.bytes i = s.posOdmlSuperIdx := by
  obtain ⟨hsnd, hplaced, hstepped⟩ := closedRows_spec h hc hd hfit
  obtain ⟨a, b, hfile, ha, -⟩ := closed_strls h hfit
  have hlen : (a ++ w.avimHeader.toBytes).length = 88 := by
    rw [List.length_append, ha, AVIMAINHEADER.length_toBytes]
  have hcb : w.avimHeader.cb = 56 := by
    rw [hc.main]
    exact (avimHeader_writer c).2.1
  have hfirst : behind w.close.f.bytes 24 = (a ++ w.avimHeader.toBytes).length := by
    have hcut : w.close.f.bytes = a ++ w.avimHeader.toBytes ++ (rowBytes (closedRows c w) ++ b) := by
      rw [hfile]
      simp only [List.append_assoc]
    have hsize : dword w.close.f.bytes (24 + 4) = 56 := by
      rw [hcut, ← ha, dword_inside _ _ _ (by rw [AVIMAINHEADER.length_toBytes]; omega)]
      refine dword_at (a := w.avimHeader.fcc.bytes) (b := w.avimHeader.body) ?_ rfl (by decide)
      rw [← hcb]
      rfl
    rw [behind, hsize, hlen]
  have hi : (closedRows c w)[i]?.map Prod.snd = some s := by
    rw [← List.getElem?_map, hsnd, hs]
  obtain ⟨r, hr, rfl⟩ := Option.map_eq_some_iff.mp hi
  rw [indxAt_rows hfile hfirst hstepped hr, hplaced.super hr, hlen]

end

end Maixii.Avi
