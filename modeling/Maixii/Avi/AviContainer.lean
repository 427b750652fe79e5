import Maixii.Avi.AviStdIndex

/-!
# `Avi/AviContainer.lean`: the closed file as RIFF chunks

A closed file is a sequence of sections, one `AVI ` and then some `AVIX`, each with a `movi` list
of the chunks that were accepted while it was the current one. The writer pads nothing and counts
the size of a section in 32 bits. **As long as chunks have an even length and none makes that
counter wrap, the closed file is read as these sections with nothing left over, and without the
indexes no section is longer than its limit** (`closed_container`).
-/

set_option autoImplicit false

namespace Maixii.Avi

open Maixii.Lib AviWriter

/-! ## The sections -/

/-- The chunks of one section. -/
def dataChunks (c : AviConfig) (placed : List Placement) (k : Nat) : List Riff :=
  (placed.filter fun p => p.riff = k).map fun p => .chunk (c.chunkId p.stream) p.data

/-- A section with these lists and this old index. -/
def sectionRiff (hdrl : List Riff) (old : Bytes) (movi : Nat → List Riff) : Nat → Riff
  | 0 => .list (fourcc "RIFF") (fourcc "AVI ")
      [.list (fourcc "LIST") (fourcc "hdrl") hdrl, .list (fourcc "LIST") (fourcc "movi") (movi 0),
        .chunk (fourcc "idx1") old]
  | k + 1 => .list (fourcc "RIFF") (fourcc "AVIX")
      [.list (fourcc "LIST") (fourcc "movi") (movi (k + 1))]

/-- The sections of a file, when the last one has the indexes `ixs`. -/
def sections (c : AviConfig) (placed : List Placement) (last : Nat) (hdrl : List Riff) (old : Bytes)
    (ixs : List Riff) : List Riff :=
  (List.range (last + 1)).map (sectionRiff hdrl old fun k =>
    dataChunks c placed k ++ if k = last then ixs else [])

/-- `m_currMaxRIFFSize` while a section is written. -/
def sectionLimit (k : Nat) : Nat := if k = 0 then 1000 * 1000 * 1000 else 4 * 1000 * 1000 * 1000

/-- **The closed file is a container**: it is read as its sections, and nothing is left over; what
stands in a `movi` list behind the chunks are indexes; every chunk begins at an even offset; and the
size field of a section is below the limit, but for the indexes. -/
structure Container (c : AviConfig) (r : Recording) (file : Bytes) (hdrl : List Riff) (old : Bytes)
    (ixs : List Riff) : Prop where
  parsed : Riff.parse file = some (sections c r.placed r.w.riffIdx hdrl old ixs)
  indexes : ∀ x ∈ ixs, ∃ data, x = .chunk (fourcc "ix00") data ∨ x = .chunk (fourcc "ix01") data
  even : ∀ p ∈ Riff.startsAll 0 (sections c r.placed r.w.riffIdx hdrl old ixs), p % 2 = 0
  sizes : ∀ k ≤ r.w.riffIdx,
    (Riff.encode (sectionRiff hdrl old (dataChunks c r.placed) k)).length - 8 < sectionLimit k

/-! ## The parts of a section -/

section

variable {c : AviConfig} {placed : List Placement}

/-- A chunk of even length needs no padding. -/
theorem encodeAll_dataChunks (heven : ∀ p ∈ placed, p.data.length % 2 = 0) (k : Nat) :
    Riff.encodeAll (dataChunks c placed k) = c.bodyOf placed k := by
  have hall : ∀ ps : List Placement, (∀ p ∈ ps, p.data.length % 2 = 0) →
      Riff.encodeAll (ps.map fun p => .chunk (c.chunkId p.stream) p.data) =
        ps.flatMap fun p => rawChunk (c.chunkId p.stream) p.data := by
    intro ps
    induction ps with
    | nil => exact fun _ => rfl
    | cons p ps ih =>
      intro hps
      rw [List.map_cons, Riff.encodeAll, encode_chunk_even _ (hps p (List.mem_cons_self ..)),
        ih fun q hq => hps q (List.mem_cons_of_mem _ hq), List.flatMap_cons, rawChunk]
  exact hall _ fun p hp => heven p (List.mem_of_mem_filter hp)

/-- The old index is a chunk. -/
theorem encode_idx1 (old : List AVIOLDINDEX) :
    Riff.encode (.chunk (fourcc "idx1") (old.flatMap AVIOLDINDEX.toBytes)) = idx1 old := by
  have hlen := length_flatMap_records (g := AVIOLDINDEX.toBytes)
    (fun e => AVIOLDINDEX.length_toBytes e) old
  rw [encode_chunk_even _ (by rw [hlen]; unfold sizeofOldIndex; omega), hlen, idx1, Nat.mul_comm]

/-- A standard index is a chunk. -/
def ixRiff (x : AVISTDINDEX) (es : List AVISTDINDEX_ENTRY) : Riff :=
  .chunk x.fcc ((closedIndex x es).body ++ es.flatMap AVISTDINDEX_ENTRY.toBytes)

theorem encode_ixRiff (x : AVISTDINDEX) (es : List AVISTDINDEX_ENTRY) :
    Riff.encode (ixRiff x es) = ixChunk x es := by
  have hlen : ((closedIndex x es).body ++ es.flatMap AVISTDINDEX_ENTRY.toBytes).length =
      24 + sizeofStdIndexEntry * es.length := by
    rw [List.length_append, AVISTDINDEX.length_body, length_flatMap_entries]
  have heven : (24 + sizeofStdIndexEntry * es.length) % 2 = 0 := by
    unfold sizeofStdIndexEntry
    omega
  rw [ixRiff, encode_chunk_even _ (by rw [hlen]; exact heven), hlen, ixChunk, AVISTDINDEX.toBytes]
  simp only [List.append_assoc]
  rfl

/-- The standard indexes of a stream. -/
def ixRiffs (idxs : List AVISTDINDEX) : List (Int × List AVISTDINDEX_ENTRY) → List Riff
  | [] => []
  | (k, es) :: rest => ixRiff ((idxs[k.toNat]?).getD blankStdIndex) es :: ixRiffs idxs rest

theorem encodeAll_ixRiffs (idxs : List AVISTDINDEX) (ents : List (Int × List AVISTDINDEX_ENTRY)) :
    Riff.encodeAll (ixRiffs idxs ents) = ixBytes idxs ents := by
  induction ents with
  | nil => rfl
  | cons x ents ih => rw [ixRiffs, Riff.encodeAll, encode_ixRiff, ih, ixBytes]

/-- All standard indexes of a recording. -/
def indexRiffs (c : AviConfig) (w : AviWriter) : List Riff :=
  if c.openDML then w.streams.flatMap fun s => ixRiffs s.stdIndexes s.stdIndexEntries else []

theorem encodeAll_flatMap {α : Type} (g : α → List Riff) (xs : List α) :
    Riff.encodeAll (xs.flatMap g) = xs.flatMap fun x => Riff.encodeAll (g x) := by
  induction xs with
  | nil => rfl
  | cons x xs ih => rw [List.flatMap_cons, Riff.encodeAll_append, ih, List.flatMap_cons]

theorem encodeAll_indexRiffs {w : AviWriter} (h : Layout c w placed) :
    Riff.encodeAll (indexRiffs c w) = closedIndexes c w := by
  unfold indexRiffs closedIndexes
  split
  · rw [encodeAll_flatMap, allIndexes, ← h.rows_spec.1, List.flatMap_map]
    simp only [encodeAll_ixRiffs]
  · rfl

/-- No data chunk is named like a list. -/
theorem isList_chunkId (c : AviConfig) (i : Nat) : Riff.isList (c.chunkId i) = false := by
  have hdigits : ∀ (x y : UInt8) (n : Nat), n ≤ 99 →
      Riff.isList ⟨UInt8.ofNat (48 + n / 10), UInt8.ofNat (48 + n % 10), x, y⟩ = false := by
    intro x y n hn
    have hfirst : UInt8.ofNat (48 + n / 10) ≠ 82 ∧ UInt8.ofNat (48 + n / 10) ≠ 76 := by
      have hlt : n / 10 < 10 := by omega
      generalize n / 10 = d at hlt
      revert d
      decide
    have hriff : fourcc "RIFF" = ⟨82, 73, 70, 70⟩ := by decide
    have hlist : fourcc "LIST" = ⟨76, 73, 83, 84⟩ := by decide
    unfold Riff.isList
    simp only [hriff, hlist, FourCC.mk.injEq, hfirst.1, hfirst.2, false_and, decide_false,
      Bool.or_self]
  have hdc : ascii "dc" = [100, 99] := by decide
  have hwb : ascii "wb" = [119, 98] := by decide
  have hle : (if 99 < i then 99 else i) ≤ 99 := by
    split <;> omega
  unfold AviConfig.chunkId AviWriter.dataFcc generateFcc
  split
  · rw [hdc]
    exact hdigits _ _ _ hle
  · rw [hwb]
    exact hdigits _ _ _ hle

theorem namedAll_dataChunks (k : Nat) : Riff.NamedAll (dataChunks c placed k) := by
  rw [Riff.namedAll_iff]
  intro x hx
  obtain ⟨p, -, rfl⟩ := List.mem_map.mp hx
  rw [Riff.Named]
  exact isList_chunkId c p.stream

/-! ## The closed file as sections -/

/-- The lists that are read. -/
abbrev oldData (w : AviWriter) : Bytes := w.oldIndexEntries.flatMap AVIOLDINDEX.toBytes

variable {w : AviWriter}

/-- The first section. -/
theorem encode_first {hd : Head} {hdrl : List Riff} {b : Bytes} {movi : Nat → List Riff}
    (old : List AVIOLDINDEX) (hhdrl : hd.avih ++ hd.strls ++ hd.odml = Riff.encodeAll hdrl)
    (hb : Riff.encodeAll (movi 0) = b) :
    Riff.encode (sectionRiff hdrl (old.flatMap AVIOLDINDEX.toBytes) movi 0) =
      (firstHead hd old b).bytes ++ (b ++ idx1 old) := by
  have hsize : 4 + (hd.avih ++ hd.strls ++ hd.odml).length =
      68 + hd.strls.length + hd.odml.length := by
    rw [List.length_append, List.length_append, hd.length_avih]
    omega
  have hinner : Riff.encodeAll [.list (fourcc "LIST") (fourcc "hdrl") hdrl,
      .list (fourcc "LIST") (fourcc "movi") (movi 0),
      .chunk (fourcc "idx1") (old.flatMap AVIOLDINDEX.toBytes)] =
      ((fourcc "LIST").bytes ++ le 4 (68 + hd.strls.length + hd.odml.length) ++
        (fourcc "hdrl").bytes ++ (hd.avih ++ hd.strls ++ hd.odml)) ++
      (((fourcc "LIST").bytes ++ le 4 (4 + b.length) ++ (fourcc "movi").bytes ++ b) ++
        idx1 old) := by
    rw [Riff.encodeAll, Riff.encodeAll, Riff.encodeAll, Riff.encodeAll, encode_idx1, Riff.encode,
      Riff.encode, hb, ← hhdrl, hsize, List.append_nil]
  -- the size of the section is that of the file so far, but for the first eight bytes
  obtain ⟨n, hn⟩ : ∃ n, n = hd.bytes.length + b.length + (idx1 old).length - 8 := ⟨_, rfl⟩
  have htotal : 4 + (((fourcc "LIST").bytes ++ le 4 (68 + hd.strls.length + hd.odml.length) ++
      (fourcc "hdrl").bytes ++ (hd.avih ++ hd.strls ++ hd.odml)) ++
      (((fourcc "LIST").bytes ++ le 4 (4 + b.length) ++ (fourcc "movi").bytes ++ b) ++
        idx1 old)).length = n := by
    rw [hn, hd.length_bytes]
    simp only [List.length_append, FourCC.length_bytes, length_le_bytes, hd.length_avih]
    omega
  have hfirst : firstHead hd old b = { hd with riff := n, movi := 4 + b.length } := by
    rw [firstHead, hn]
  rw [sectionRiff, Riff.encode, hinner, htotal, hfirst]
  simp only [Head.bytes, Head.front, Head.back, List.append_assoc]

/-- A later section. -/
theorem encode_later {hdrl : List Riff} {old b : Bytes} {movi : Nat → List Riff} (n : Nat)
    (hb : Riff.encodeAll (movi (n + 1)) = b) :
    Riff.encode (sectionRiff hdrl old movi (n + 1)) = avix b := by
  have hinner : Riff.encodeAll [.list (fourcc "LIST") (fourcc "movi") (movi (n + 1))] =
      (fourcc "LIST").bytes ++ le 4 (4 + b.length) ++ (fourcc "movi").bytes ++ b := by
    rw [Riff.encodeAll, Riff.encodeAll, Riff.encode, hb, List.append_nil]
  have hsize : 4 + ((fourcc "LIST").bytes ++ le 4 (4 + b.length) ++ (fourcc "movi").bytes ++
      b).length = 16 + b.length := by
    simp only [List.length_append, FourCC.length_bytes, length_le_bytes]
    omega
  rw [sectionRiff, Riff.encode, hinner, hsize, avix, avixHeader]
  simp only [List.append_assoc]

/-- **The sections of a file, one after the other.** -/
theorem encodeAll_sections {hd : Head} {hdrl : List Riff} {body : Nat → Bytes}
    {movi : Nat → List Riff} (old : List AVIOLDINDEX)
    (hhdrl : hd.avih ++ hd.strls ++ hd.odml = Riff.encodeAll hdrl)
    (hbody : ∀ k, Riff.encodeAll (movi k) = body k) (n : Nat) :
    Riff.encodeAll ((List.range (n + 1)).map
        (sectionRiff hdrl (old.flatMap AVIOLDINDEX.toBytes) movi)) =
      (firstHead hd old (body 0)).bytes ++ finishedPart old body n := by
  induction n with
  | zero =>
    rw [List.range_one, List.map_singleton, Riff.encodeAll, Riff.encodeAll, List.append_nil,
      encode_first old hhdrl (hbody 0), finishedPart]
  | succ n ih =>
    rw [List.range_succ, List.map_append, Riff.encodeAll_append, ih, List.map_singleton,
      Riff.encodeAll, Riff.encodeAll, List.append_nil, encode_later n (hbody (n + 1)), finishedPart,
      List.append_assoc]

/-- **The closed file is its sections.** -/
theorem closed_sections (h : Layout c w placed) (hc : Counted c w placed)
    (hfit : RoomForIndexes c w) (heven : ∀ p ∈ placed, p.data.length % 2 = 0) :
    w.close.f.bytes = Riff.encodeAll
      (sections c placed w.riffIdx (hdrlRiffs c w) (oldData w) (indexRiffs c w)) := by
  have hbody : ∀ k, Riff.encodeAll (dataChunks c placed k ++
      if k = w.riffIdx then indexRiffs c w else []) = closedBody c w placed k := by
    intro k
    rw [Riff.encodeAll_append, encodeAll_dataChunks heven, closedBody]
    split
    · rw [encodeAll_indexRiffs h]
    · rfl
  rw [closed_bytes h hfit, sections, oldData,
    encodeAll_sections w.oldIndexEntries (hdrl_bytes h hc hfit) hbody w.riffIdx]

/-- The indexes are named as indexes are. -/
theorem mem_indexRiffs (hx : c.openDML = true → Indexes c w placed) {x : Riff}
    (hmem : x ∈ indexRiffs c w) :
    ∃ data, x = .chunk (fourcc "ix00") data ∨ x = .chunk (fourcc "ix01") data := by
  have hixs : ∀ (idxs : List AVISTDINDEX) (ents : List (Int × List AVISTDINDEX_ENTRY)),
      (∀ e ∈ ents, ∃ y, idxs[e.1.toNat]? = some y ∧
        (y.fcc = fourcc "ix00" ∨ y.fcc = fourcc "ix01")) → ∀ x ∈ ixRiffs idxs ents,
      ∃ data, x = .chunk (fourcc "ix00") data ∨ x = .chunk (fourcc "ix01") data := by
    intro idxs ents
    induction ents with
    | nil => exact fun _ x hx => absurd hx List.not_mem_nil
    | cons e ents ih =>
      intro hents x hx
      rw [ixRiffs, List.mem_cons] at hx
      rcases hx with rfl | hx
      · obtain ⟨y, hy, hname⟩ := hents e (List.mem_cons_self ..)
        rw [hy, Option.getD_some, ixRiff]
        rcases hname with hname | hname
        · exact ⟨_, .inl (by rw [hname])⟩
        · exact ⟨_, .inr (by rw [hname])⟩
      · exact ih (fun e' he' => hents e' (List.mem_cons_of_mem _ he')) x hx
  unfold indexRiffs at hmem
  split at hmem
  · rename_i hd
    obtain ⟨s, hs, hmem⟩ := List.mem_flatMap.mp hmem
    obtain ⟨i, hi⟩ := List.getElem?_of_mem hs
    obtain ⟨done, cur, h⟩ := (hx hd).streams i s hi
    refine hixs _ _ ?_ x hmem
    intro e he
    obtain ⟨k, hk⟩ := List.getElem?_of_mem he
    rw [h.entries, ← groupsOf, getElem?_keyed] at hk
    obtain ⟨g, hg, rfl⟩ := Option.map_eq_some_iff.mp hk
    obtain ⟨y, hy, hkind, -⟩ := group_spec h hg
    refine ⟨y, ?_, hkind.fcc⟩
    rw [Nat.zero_add, Int.toNat_natCast]
    exact hy
  · exact absurd hmem List.not_mem_nil

theorem namedAll_indexRiffs (hx : c.openDML = true → Indexes c w placed) :
    Riff.NamedAll (indexRiffs c w) := by
  rw [Riff.namedAll_iff]
  intro x hmem
  obtain ⟨data, rfl | rfl⟩ := mem_indexRiffs hx hmem
  · rw [Riff.Named]
    decide
  · rw [Riff.Named]
    decide

theorem named_sectionRiff {hdrl : List Riff} {old : Bytes} {movi : Nat → List Riff}
    (hhdrl : Riff.NamedAll hdrl) (hmovi : ∀ k, Riff.NamedAll (movi k)) (k : Nat) :
    Riff.Named (sectionRiff hdrl old movi k) := by
  cases k with
  | zero =>
    rw [sectionRiff, Riff.Named, Riff.NamedAll, Riff.NamedAll, Riff.NamedAll, Riff.Named,
      Riff.Named, Riff.Named]
    exact ⟨by decide, ⟨by decide, hhdrl⟩, ⟨by decide, hmovi 0⟩, by decide, trivial⟩
  | succ k =>
    rw [sectionRiff, Riff.Named, Riff.NamedAll, Riff.Named]
    exact ⟨by decide, ⟨by decide, hmovi (k + 1)⟩, trivial⟩

/-! ## Sizes -/

/-- How long a section is. -/
theorem length_section (h : Layout c w placed) (hc : Counted c w placed) (hfit : RoomForIndexes c w)
    (movi : Nat → List Riff) (k : Nat) :
    (Riff.encode (sectionRiff (hdrlRiffs c w) (oldData w) movi k)).length =
      (Riff.encodeAll (movi k)).length + if k = 0 then
        c.head.bytes.length + 8 + w.oldIndexEntries.length * sizeofOldIndex else 24 := by
  cases k with
  | zero =>
    have hhead : (firstHead (closedHead c w) w.oldIndexEntries
        (Riff.encodeAll (movi 0))).bytes.length = c.head.bytes.length := by
      rw [← length_closedHead h hfit, Head.length_bytes, Head.length_bytes]
      rfl
    rw [oldData, encode_first w.oldIndexEntries (hdrl_bytes h hc hfit) rfl, List.length_append,
      List.length_append, hhead, length_idx1, if_pos rfl]
    omega
  | succ k =>
    rw [encode_later k rfl, length_avix, if_neg (Nat.succ_ne_zero k), Nat.add_comm]

/-- The next chunk has an even length, its stream has room for it in its index, it does not make
the counter of the section wrap, and it fits in a section of its own. -/
def Orderly (c : AviConfig) (r : Recording) (call : UInt8 × Buffer) : Prop :=
  call.2.val.length % 2 = 0 ∧
    (c.openDML = true → chunkCount r.placed call.1.toNat < perIndex * c.slots) ∧
      r.w.riffSize + call.2.val.length + 8 < 2 ^ 32 ∧ call.2.val.length + 32 < sectionLimit 1

instance (c : AviConfig) (r : Recording) (call : UInt8 × Buffer) : Decidable (Orderly c r call) :=
  inferInstanceAs (Decidable (_ ∧ (_ → _) ∧ _ ∧ _))

/-- **The sizes of a recording.** -/
structure Sized (c : AviConfig) (w : AviWriter) (placed : List Placement) : Prop where
  even : ∀ p ∈ placed, p.data.length % 2 = 0
  room : c.openDML = true → ∀ i, chunkCount placed i ≤ perIndex * c.slots
  limit : w.currMaxRIFFSize = sectionLimit w.riffIdx
  first : c.head.bytes.length + (c.bodyOf placed 0).length +
    w.oldIndexEntries.length * sizeofOldIndex < sectionLimit 0
  later : ∀ k, 0 < k → 24 + (c.bodyOf placed k).length < sectionLimit k
  counter : w.riffSize = (c.bodyOf placed w.riffIdx).length + if w.riffIdx = 0 then
    c.head.bytes.length + sizeofOldIndex + w.oldIndexEntries.length * sizeofOldIndex else 24

end

namespace Sized

variable {c : AviConfig} {w w' : AviWriter} {placed : List Placement}

theorem start (htwo : c.streams.length ≤ 2) : Sized c c.writer.opened [] := by
  have hriff : c.writer.opened.riffIdx = 0 := c.fresh_writer.riffIdx
  have holds : c.writer.opened.oldIndexEntries = [] := c.fresh_writer.oldIndexEntries
  have hmax : c.writer.opened.currMaxRIFFSize = 1000 * 1000 * 1000 :=
    c.fresh_writer.currMaxRIFFSize
  have hhead : c.head.bytes.length < 2 ^ 28 := by
    have hstrls := length_head_strls c
    have hmul := Nat.mul_le_mul_right (2 ^ 26 + 128) htwo
    have hodml : c.head.odml.length ≤ 268 := by
      rw [c.head_odml]
      split
      · rw [length_odmlList, List.length_replicate]
      · exact Nat.zero_le _
    rw [c.head.length_bytes]
    omega
  have hcounter : c.writer.opened.riffSize = (c.head.bytes.length + sizeofOldIndex) % 2 ^ 32 := rfl
  have hold : sizeofOldIndex = 16 := rfl
  have hempty : ∀ k, (c.bodyOf [] k).length = 0 := fun _ => rfl
  refine ⟨List.forall_mem_nil _, fun _ i => Nat.zero_le _, ?_, ?_, ?_, ?_⟩
  · rw [hmax, hriff]
    rfl
  · rw [holds, hempty, List.length_nil]
    unfold sectionLimit
    rw [if_pos rfl]
    omega
  · intro k hk
    rw [hempty]
    unfold sectionLimit
    rw [if_neg (by omega)]
    decide
  · rw [hcounter, holds, hriff, if_pos rfl, hempty, List.length_nil, Nat.mod_eq_of_lt (by omega)]
    omega

/-- **A new section.** -/
theorem newSection (h : Sized c w placed) (hl : Layout c w placed)
    (hw : w.newSection = some w') : Sized c w' placed := by
  have heq := AviWriter.newSection_eq hw
  rw [AviWriter.beginSection_eq] at heq
  have hempty : c.bodyOf placed (w.riffIdx + 1) = [] :=
    body_eq_nil hl.riffs (Nat.lt_succ_self _)
  have hlimit := h.limit
  subst heq
  refine ⟨h.even, h.room, ?_, h.first, h.later, ?_⟩
  · show (if w.riffIdx = 0 then 4 * 1000 * 1000 * 1000 else w.currMaxRIFFSize) =
      sectionLimit (w.riffIdx + 1)
    rw [hlimit]
    unfold sectionLimit
    by_cases hz : w.riffIdx = 0
    · rw [if_pos hz, if_neg (Nat.succ_ne_zero _)]
    · rw [if_neg hz, if_neg hz, if_neg (Nat.succ_ne_zero _)]
  · show 24 = (c.bodyOf placed (w.riffIdx + 1)).length + if w.riffIdx + 1 = 0 then _ else 24
    rw [hempty, if_neg (Nat.succ_ne_zero _)]
    rfl

/-- **A chunk that stays below the limit.** -/
theorem writeChunk (h : Sized c w placed) {i : Nat} {s : AviStream} {data : Bytes}
    (heven : data.length % 2 = 0)
    (hroom : c.openDML = true → chunkCount placed i < perIndex * c.slots)
    (hsize : w.riffSize + data.length + 8 < sectionLimit w.riffIdx) :
    Sized c (w.writeChunk i s (c.chunkId i) data)
      (placed ++ [⟨i, w.riffIdx, w.f.pos + 8, data⟩]) := by
  have hcounter := h.counter
  have hsmall : sectionLimit w.riffIdx < 2 ^ 32 - 16 := by
    unfold sectionLimit
    split <;> decide
  have hbody : ∀ k, (c.bodyOf (placed ++ [⟨i, w.riffIdx, w.f.pos + 8, data⟩]) k).length =
      (c.bodyOf placed k).length + if w.riffIdx = k then 8 + data.length else 0 := by
    intro k
    rw [AviConfig.bodyOf, body_append, List.length_append]
    split
    · rw [length_rawChunk]
      rfl
    · rfl
  have hold : sizeofOldIndex = 16 := rfl
  have hfirst := h.first
  refine ⟨?_, ?_, h.limit, ?_, ?_, ?_⟩
  · intro p hp
    rcases List.mem_append.mp hp with hp | hp
    · exact h.even p hp
    · rw [List.mem_singleton.mp hp]
      exact heven
  · intro hd k
    rw [chunkCount_append]
    split
    · rename_i hi
      obtain rfl : i = k := hi
      exact hroom hd
    · exact h.room hd k
  · show _ + _ + (if w.riffIdx = 0 then w.oldIndexEntries ++ [_]
      else w.oldIndexEntries).length * sizeofOldIndex < _
    rw [hbody]
    by_cases hz : w.riffIdx = 0
    · rw [hz] at hcounter hsize
      rw [if_pos rfl] at hcounter
      rw [if_pos hz, if_pos hz, List.length_append, List.length_singleton, Nat.add_mul]
      omega
    · rw [if_neg hz, if_neg hz]
      exact hfirst
  · intro k hk
    have hlater := h.later k hk
    rw [hbody]
    by_cases hz : w.riffIdx = k
    · rw [if_pos hz]
      rw [hz, if_neg (by omega)] at hcounter
      rw [hz] at hsize
      omega
    · rw [if_neg hz]
      exact hlater
  · show (if w.riffIdx = 0 then ((w.riffSize + data.length + 8) % 2 ^ 32 + sizeofOldIndex) % 2 ^ 32
      else (w.riffSize + data.length + 8) % 2 ^ 32) = (c.bodyOf _ w.riffIdx).length +
        if w.riffIdx = 0 then _ + _ + (if w.riffIdx = 0 then w.oldIndexEntries ++ [_]
          else w.oldIndexEntries).length * sizeofOldIndex else 24
    rw [hbody, if_pos rfl, Nat.mod_eq_of_lt (show w.riffSize + data.length + 8 < 2 ^ 32 by omega)]
    by_cases hz : w.riffIdx = 0
    · rw [if_pos hz] at hcounter
      rw [if_pos hz, if_pos hz, if_pos hz, List.length_append, List.length_singleton, Nat.add_mul,
        Nat.mod_eq_of_lt (by omega)]
      omega
    · rw [if_neg hz] at hcounter
      rw [if_neg hz, if_neg hz]
      omega

end Sized

/-- **Every orderly recording has its sizes.** -/
theorem sized {c : AviConfig} (htwo : c.streams.length ≤ 2) {r : Recording}
    (h : Reach (recordings c) (Orderly c) r) : Sized c r.w r.placed := by
  refine (h.inv (P := fun r => Layout c r.w r.placed ∧ Sized c r.w r.placed) ?_ ?_).2
  · intro r hr
    obtain rfl := recordings_start hr
    exact ⟨Layout.start, Sized.start htwo⟩
  · rintro r ⟨i, data⟩ r' ⟨hl, hx⟩ ⟨heven, hroom, hwrap, hown⟩ hw
    obtain ⟨_, s, w₁, hs, hsec, rfl⟩ := Recording.write_cases hw
    dsimp only at heven hroom hwrap hown
    rcases hsec with ⟨_, hsec⟩ | ⟨hfull, rfl⟩
    · obtain ⟨hl₁, hriff, hstreams, _⟩ := hl.newSection hsec
      have hs₁ : w₁.streams[i.toNat]? = some s := hstreams ▸ hs
      have hx₁ := hx.newSection hl hsec
      -- the section is empty
      have hsize : w₁.riffSize + data.val.length + 8 < sectionLimit w₁.riffIdx := by
        have hcounter := hx₁.counter
        have hempty : c.bodyOf r.placed w₁.riffIdx = [] :=
          body_eq_nil hl.riffs (by rw [hriff]; exact Nat.lt_succ_self _)
        have hlimit : sectionLimit w₁.riffIdx = sectionLimit 1 := by
          rw [hriff]
          unfold sectionLimit
          rw [if_neg (Nat.succ_ne_zero _), if_neg (Nat.succ_ne_zero _)]
        rw [hempty, if_neg (by omega), List.length_nil] at hcounter
        omega
      rw [hl₁.chunkId hs₁]
      exact ⟨hl₁.chunkId hs₁ ▸ hl₁.writeChunk hs₁, hx₁.writeChunk heven hroom hsize⟩
    · have hsize : r.w.riffSize + data.val.length + 8 < sectionLimit r.w.riffIdx := by
        unfold AviWriter.sectionFull at hfull
        rw [Nat.mod_eq_of_lt hwrap, hx.limit, decide_eq_false_iff_not] at hfull
        omega
      rw [hl.chunkId hs]
      exact ⟨hl.chunkId hs ▸ hl.writeChunk hs, hx.writeChunk heven hroom hsize⟩

/-- **The closed file of an orderly recording is a container**, if the indexes that `close` writes
leave the last section below 4 GB.

The reader is the parser of RIFF files, which takes every size field as it stands and leaves nothing
over, so no size field is wrong or has wrapped. It gives back the sections with the chunks that were
accepted in each, in order; only the last `movi` list has more behind them, which are the standard
indexes. The limit of a section does not count these: `write_data` knows nothing of them, and that
is why their length is a condition of its own. -/
theorem closed_container {c : AviConfig} (htwo : c.streams.length ≤ 2) {r : Recording}
    (h : Reach (recordings c) (Orderly c) r)
    (hidx : (closedIndexes c r.w).length + sectionLimit 1 + 8 ≤ 2 ^ 32) :
    ∃ file hdrl old ixs, r.file = some file ∧ Container c r file hdrl old ixs := by
  have hl := layout h
  have hc := counted h
  have hx : c.openDML = true → Indexes c r.w r.placed := fun hd => indexes hd h
  have hsized := sized htwo h
  have hfit := roomForIndexes hx hsized.room
  have hbytes := closed_sections hl hc hfit hsized.even
  have hlen := length_section hl hc hfit
  -- without the indexes, a section is below its limit
  have hbelow : ∀ k, (Riff.encodeAll (dataChunks c r.placed k)).length + (if k = 0 then
      c.head.bytes.length + 8 + r.w.oldIndexEntries.length * sizeofOldIndex else 24) <
        sectionLimit k + 8 := by
    intro k
    rw [encodeAll_dataChunks hsized.even]
    by_cases hk : k = 0
    · have hfirst := hsized.first
      rw [if_pos hk, hk]
      omega
    · have hlater := hsized.later k (Nat.pos_of_ne_zero hk)
      rw [if_neg hk]
      omega
  have hlimit : ∀ k, sectionLimit k ≤ sectionLimit 1 := by
    intro k
    unfold sectionLimit
    split <;> decide
  have hfits : Riff.FitsAll (sections c r.placed r.w.riffIdx (hdrlRiffs c r.w) (oldData r.w)
      (indexRiffs c r.w)) := by
    rw [Riff.fitsAll_iff]
    intro x hmem
    obtain ⟨k, -, rfl⟩ := List.mem_map.mp hmem
    refine Riff.fits_of_length _ (named_sectionRiff (namedAll_hdrlRiffs c r.w) ?_ k) ?_
    · intro k
      rw [Riff.namedAll_append]
      refine ⟨namedAll_dataChunks k, ?_⟩
      split
      · exact namedAll_indexRiffs hx
      · exact trivial
    · have hk := hbelow k
      have hle := hlimit k
      have hixs : (Riff.encodeAll (if k = r.w.riffIdx then indexRiffs c r.w else [])).length ≤
          (closedIndexes c r.w).length := by
        split
        · rw [encodeAll_indexRiffs hl]
        · exact Nat.zero_le _
      rw [hlen, Riff.encodeAll_append, List.length_append]
      omega
  refine ⟨_, hdrlRiffs c r.w, oldData r.w, indexRiffs c r.w, file_eq h, ?_, ?_, ?_, ?_⟩
  · rw [hbytes]
    exact Riff.parse_encode hfits
  · exact fun x hmem => mem_indexRiffs hx hmem
  · exact Riff.even_startsAll _ 0 rfl
  · intro k _
    have hk := hbelow k
    have hpos : 0 < sectionLimit k := by
      unfold sectionLimit
      split <;> decide
    rw [hlen]
    omega

/-- Two chunks of each stream. -/
theorem closed_container_both : ∃ (r : Recording) (file : Bytes) (hdrl : List Riff) (old : Bytes)
    (ixs : List Riff), r.placed.map Placement.stream = [0, 1, 1, 0] ∧ r.file = some file ∧
      Container indexedConfig r file hdrl old ixs := by
  have hrun : (runFrom Recording.write (Orderly indexedConfig) ⟨indexedConfig.object.open.2, []⟩
      bothStreams).map (fun r => (r.placed.map Placement.stream,
        (closedIndexes indexedConfig r.w).length)) = some ([0, 1, 1, 0], 96) := by decide +kernel
  obtain ⟨r, hr, hsame⟩ := reach_of_runFrom Recording.write (Orderly indexedConfig) _ _ _ _
    (show (recordings indexedConfig).start _ from rfl) hrun
  obtain ⟨hplaced, hlen⟩ := Prod.mk.inj hsame
  obtain ⟨file, hdrl, old, ixs, hfile, hcontainer⟩ :=
    closed_container (by decide) hr (by rw [hlen]; decide)
  exact ⟨r, file, hdrl, old, ixs, hplaced, hfile, hcontainer⟩

end Maixii.Avi
