import Maixii.Avi.ReaderProgress

/-!
# `Avi/ReaderBounds.lean`: what `open` takes for granted

`open` checks two things, the size of the main header and the number of streams. All other lengths
it takes from the file, each for itself: a structure is used however little of it was read, a chunk
id of four characters is printed as a string that ends with a zero, and a standard index is walked
by its number of entries in a buffer that was made by its size. **Where the file keeps what `open`
relies on (`Intact`), all is within bounds** and no field is used that was not read
(`open_in_bounds`); a file that does not is `entryOutside`. All of this is about `open` in
`Memory.unset`, where nothing can be used but what it is sure of.
-/

set_option autoImplicit false

namespace Maixii.Avi

open Maixii.Lib

/-! ## Reading structures -/

theorem readInto_eq (f : InFile) (m : Cells) (off n : Nat) : readInto f m off n =
    (m.store off n (f.read n).1).map fun m => ((f.read n).2, m) := rfl

theorem readInto_some {f : InFile} {m : Cells} {a n : Nat} (hroom : a + n ≤ m.length) :
    ∃ f' m', readInto f m a n = some (f', m') ∧ m'.length = m.length := by
  obtain ⟨m', hm⟩ := Cells.store_isSome hroom (f.read n).1
  refine ⟨(f.read n).2, m', ?_, Cells.length_store hm (InFile.length_read_le f n)⟩
  rw [readInto_eq, hm, Option.map_some]

/-- What has been read of a structure is there: at least the `j` bytes that the file has. -/
theorem readInto_load {f : InFile} {m : Cells} {a n : Nat} (j : Nat) (hgood : f.good = true)
    (hfile : f.pos + j ≤ f.bytes.length) (hj : j ≤ n) (hroom : a + n ≤ m.length) :
    ∃ f' m', readInto f m a n = some (f', m') ∧ m'.length = m.length ∧
      ∀ i k, i + k ≤ j → m'.load (a + i) k = some (readAt f.bytes (f.pos + i) k) := by
  obtain ⟨m', hm⟩ := Cells.store_isSome hroom (f.read n).1
  have hbs : (f.read n).1 = readAt f.bytes f.pos n := by
    unfold InFile.read
    rw [if_pos hgood]
  have hlen : j ≤ (f.read n).1.length := by
    rw [hbs, InFile.length_readAt]
    omega
  refine ⟨(f.read n).2, m', ?_, Cells.length_store hm (InFile.length_read_le f n), ?_⟩
  · rw [readInto_eq, hm, Option.map_some]
  · intro i k hik
    have h := Cells.load_store hm (InFile.length_read_le f n) (i := a + i) (k := k)
      (Nat.le_add_right _ _) (by omega)
    rw [h, Nat.add_sub_cancel_left, hbs, InFile.readAt_readAt _ (by omega)]

/-- All of it is there, and the file is behind it. -/
theorem readInto_all {f : InFile} {m : Cells} {a n : Nat} (hgood : f.good = true)
    (hfile : f.pos + n ≤ f.bytes.length) (hroom : a + n ≤ m.length) :
    ∃ m', readInto f m a n = some ({ f with pos := f.pos + n }, m') ∧ m'.length = m.length ∧
      ∀ i k, i + k ≤ n → m'.load (a + i) k = some (readAt f.bytes (f.pos + i) k) := by
  obtain ⟨f', m', h, hlen, hload⟩ := readInto_load n hgood hfile (Nat.le_refl n) hroom
  have hf := Parser.readInto_file h
  rw [InFile.read_of_le hgood hfile] at hf
  obtain rfl := hf
  exact ⟨m', h, hlen, hload⟩

theorem readInto_keeps {f f' : InFile} {m m' : Cells} {off n i k : Nat}
    (h : readInto f m off n = some (f', m')) (hload : (m.load i k).isSome = true) :
    (m'.load i k).isSome = true := by
  obtain ⟨m₁, hm, heq⟩ := Option.map_eq_some_iff.mp h
  obtain ⟨-, rfl⟩ := Prod.mk.inj heq
  exact Cells.isSome_load_store hm (InFile.length_read_le f n) hload

theorem field_of_load {m : Cells} {off n : Nat} {bs : Bytes} (h : m.load off n = some bs) :
    m.field off n = some (fromLE bs) := by
  rw [Cells.field, h, Option.map_some]

/-! ## What a turn keeps -/

/-- What a turn leaves, unless `open` is at its end. -/
def Round.parser : Round → Option Parser
  | .again p => some p
  | .left p => some p
  | .rejected => none
  | .aborted => none

namespace Parser

/-- The structures and buffers have their sizes, and of a stream that was counted the header was
read. -/
structure Sized (p : Parser) : Prop where
  avimHeader : p.r.avimHeader.length = 64
  avisHeader : p.r.avisHeader.length = 2
  header : ∀ h ∈ p.r.avisHeader, h.length = 64
  bitmapInfo : p.r.bitmapInfo.length = 40
  waveformat : p.r.waveformat.length = 20
  waveformatExt : p.r.waveformatExt.length = 44
  waveformatMpeg12 : p.r.waveformatMpeg12.length = 44
  waveformatMP3 : p.r.waveformatMP3.length = 36
  odmlExt : p.r.odmlExt.length = 4
  streams : ∀ i, i < p.iStreamHeader → ∃ h, p.r.avisHeader[i]? = some h ∧
    (h.load 44 4).isSome = true

/-- A turn keeps the sizes, and the size of the picture once it was read. -/
structure Keeps (p q : Parser) : Prop where
  sized : Sized p → Sized q
  image : (p.r.bitmapInfo.load 20 4).isSome = true → (q.r.bitmapInfo.load 20 4).isSome = true

/-- A chunk is read within bounds. -/
def InBounds (p : Parser) (x : Option Round) : Prop :=
  ∃ res, x = some res ∧ ∀ q, res.parser = some q → Keeps p q

/-- The same for a chunk that does not end the loop. -/
def Reads (p : Parser) (x : Option Parser) : Prop := ∃ q, x = some q ∧ Keeps p q

theorem Reads.inBounds {p : Parser} {x : Option Parser} (h : Reads p x) :
    InBounds p (x.map .again) := by
  obtain ⟨q, rfl, hq⟩ := h
  exact ⟨.again q, rfl, fun _ heq => Option.some.inj heq ▸ hq⟩

/-- The structures of a reader. -/
def memory (p : Parser) : List Cells × List Cells × Nat :=
  ([p.r.avimHeader, p.r.bitmapInfo, p.r.waveformat, p.r.waveformatExt, p.r.waveformatMpeg12,
    p.r.waveformatMP3, p.r.odmlExt], p.r.avisHeader, p.iStreamHeader)

/-- Nothing was stored. -/
theorem keeps_of_memory {p q : Parser} (h : q.memory = p.memory) : Keeps p q := by
  simp only [memory, Prod.mk.injEq, List.cons.injEq] at h
  obtain ⟨⟨h₁, h₂, h₃, h₄, h₅, h₆, h₇, -⟩, h₈, h₉⟩ := h
  refine ⟨fun hs => ?_, fun hi => h₂ ▸ hi⟩
  exact ⟨h₁ ▸ hs.avimHeader, h₈ ▸ hs.avisHeader, h₈ ▸ hs.header, h₂ ▸ hs.bitmapInfo,
    h₃ ▸ hs.waveformat, h₄ ▸ hs.waveformatExt, h₅ ▸ hs.waveformatMpeg12, h₆ ▸ hs.waveformatMP3,
    h₇ ▸ hs.odmlExt, by rw [h₈, h₉]; exact hs.streams⟩

theorem inBounds_again {p q : Parser} (h : q.memory = p.memory) :
    InBounds p (some (.again q)) :=
  ⟨_, rfl, fun _ heq => Option.some.inj heq ▸ keeps_of_memory h⟩

/-! ## What `open` relies on -/

/-- The format of an audio stream, behind its size at `s`: enough of it, and where it is a longer
one, all of that. -/
def WaveIntact (file : Bytes) (s size : Nat) : Prop :=
  16 ≤ size ∧ s + min size 20 ≤ file.length ∧
    (fromLE (readAt file s 2) = 0xfffe ∨ fromLE (readAt file s 2) = 0x50 →
      20 ≤ size ∧ s + 44 ≤ file.length) ∧
    (fromLE (readAt file s 2) = 0x55 → 20 ≤ size ∧ s + 36 ≤ file.length)

/-- The format of a video stream: all of it, with a zero among the characters of
`biCompression`. -/
def BitmapIntact (file : Bytes) (s size : Nat) : Prop :=
  40 ≤ size ∧ s + 40 ≤ file.length ∧ 0 ∈ readAt file (s + 16) 4

/-- What was read of an old index: every chunk id has a zero among its characters. -/
def OldIndexIntact (bs : Bytes) : Prop :=
  ∀ i, 16 * i + 16 ≤ bs.length →
    readAt bs (16 * i) 4 = ascii "rec " ∨ 0 ∈ readAt bs (16 * i) 4

/-- A standard index: it is in the file, and it has not more entries than there is room for in its
size, and in the file. If it has any, the size of the picture was read before. -/
def StdIndexIntact (image : Bool) (file : Bytes) (off : Int) : Prop :=
  0 ≤ off ∧ off.toNat + 32 ≤ file.length ∧
    (readAt file (off.toNat + 16) 4 ∈ allowed →
      8 * fromLE (readAt file (off.toNat + 12) 4) ≤ fromLE (readAt file (off.toNat + 4) 4) ∧
        off.toNat + 32 + 8 * fromLE (readAt file (off.toNat + 12) 4) ≤ file.length ∧
        (fromLE (readAt file (off.toNat + 12) 4) ≠ 0 → image = true))

/-- The number of entries of the super index at `s`. -/
def superEntries (file : Bytes) (s : Nat) : Nat := fromLE (readAt file (s + 4) 4)

/-- A super index, and unless the assertion fails its entries and all standard indexes. -/
def SuperIndexIntact (image : Bool) (file : Bytes) (s : Nat) : Prop :=
  s + 24 ≤ file.length ∧ 0 ∈ readAt file (s + 8) 4 ∧
    (fromLE (readAt file (s + 2) 1) = 0 →
      s + 24 + 16 * superEntries file s ≤ file.length ∧
        ∀ i, i < superEntries file s →
          StdIndexIntact image file (int64 (fromLE (readAt file (s + 24 + 16 * i) 8))))

/-- The size of the picture has been read. -/
def imageKnown (p : Parser) : Bool := (p.r.bitmapInfo.load 20 4).isSome

/-- **The chunk of this turn is what `open` takes it for.** -/
structure Intact (p : Parser) : Prop where
  avih : p.tag = ascii "avih" → p.atChunk.readSize.size = 64 - 8 →
    p.r.f.pos + 48 ≤ p.r.f.bytes.length
  strl : p.tag = ascii "strl" → p.iStreamHeader < 2 → p.r.f.pos + 68 ≤ p.r.f.bytes.length
  wave : p.tag = ascii "strf" → p.bAudio = true →
    WaveIntact p.r.f.bytes (p.r.f.pos + 8) p.atChunk.readSize.size
  bitmap : p.tag = ascii "strf" → p.bAudio = false →
    BitmapIntact p.r.f.bytes (p.r.f.pos + 8) p.atChunk.readSize.size
  idx1 : p.tag = ascii "idx1" →
    OldIndexIntact (readAt p.r.f.bytes (p.r.f.pos + 8) p.atChunk.readSize.size)
  dmlh : p.tag = ascii "dmlh" → p.r.f.pos + 12 ≤ p.r.f.bytes.length
  indx : p.tag = ascii "indx" → SuperIndexIntact p.imageKnown p.r.f.bytes (p.r.f.pos + 8)
  vprp : p.tag = ascii "vprp" → 36 ≤ p.atChunk.readSize.size ∧
    p.r.f.pos + 44 ≤ p.r.f.bytes.length

/-! ## Every chunk -/

section

variable {w : SizeT} {p : Parser}

/-- The size is read. -/
theorem readSize_of_le (hgood : p.r.f.good = true) (h : p.r.f.pos + 4 ≤ p.r.f.bytes.length) :
    p.readSize.r.f.good = true ∧ p.readSize.r.f.pos = p.r.f.pos + 4 ∧
      p.readSize.r.f.bytes = p.r.f.bytes := by
  have hf : p.readSize.r.f = { p.r.f with pos := p.r.f.pos + 4 } := by
    rw [readSize_file, InFile.read_of_le hgood h]
  rw [hf]
  exact ⟨hgood, rfl, rfl⟩

theorem inBounds_avih (hs : Sized p) (hgood : p.r.f.good = true)
    (h : p.readSize.size = 64 - 8 → p.r.f.pos + 44 ≤ p.r.f.bytes.length) :
    InBounds p p.readAvih := by
  unfold readAvih
  dsimp only
  by_cases hsize : p.readSize.size = 64 - 8
  · rw [if_neg (not_not_intro hsize)]
    have hfile := h hsize
    obtain ⟨hgood', hpos, hbytes⟩ := readSize_of_le hgood (by omega)
    have hlen : p.readSize.r.avimHeader.length = 64 := hs.avimHeader
    -- the first eight bytes, and what the file has of the others
    have hroom : 0 + 8 ≤ p.readSize.r.avimHeader.length := by omega
    obtain ⟨m₁, hm₁⟩ := Cells.store_isSome hroom (ascii "avih" ++ le 4 p.readSize.size)
    have hlen₁ := Cells.length_store hm₁ (Nat.le_of_eq (by
      rw [List.length_append, length_le_bytes]; rfl))
    obtain ⟨f', m', hread, hlen', hload⟩ := readInto_load (f := p.readSize.r.f) (m := m₁) (a := 8)
      (n := p.readSize.size) 40 hgood' (by rw [hbytes]; omega) (by omega) (by omega)
    have hfields : m'.load 8 40 = some _ := hload 0 40 (Nat.le_refl _)
    simp only [Option.bind_eq_bind, hm₁, Option.bind_some, hread, hfields]
    refine ⟨_, rfl, fun q hq => ?_⟩
    rw [← Option.some.inj hq]
    refine ⟨fun hs => ?_, fun hi => hi⟩
    exact { hs with avimHeader := by show m'.length = 64; omega }
  · rw [if_pos hsize]
    exact ⟨.rejected, rfl, fun q hq => (nomatch hq)⟩

theorem inBounds_strl (hs : Sized p) (hgood : p.r.f.good = true)
    (h : p.iStreamHeader < 2 → p.r.f.pos + 64 ≤ p.r.f.bytes.length) :
    InBounds p p.readStrl := by
  unfold readStrl
  by_cases htwo : 2 ≤ p.iStreamHeader
  · rw [if_pos htwo]
    exact ⟨.rejected, rfl, fun q hq => (nomatch hq)⟩
  · rw [if_neg htwo]
    have hlt : p.iStreamHeader < p.r.avisHeader.length := by
      rw [hs.avisHeader]
      omega
    have hget := List.getElem?_eq_getElem hlt
    generalize p.r.avisHeader[p.iStreamHeader] = h₀ at hget
    have hlen := hs.header h₀ (List.mem_of_getElem? hget)
    obtain ⟨f', m', hread, hlen', hload⟩ := readInto_load (m := h₀) (a := 0) 64 hgood
      (h (Nat.lt_of_not_le htwo)) (Nat.le_refl 64) (by omega)
    simp only [Nat.zero_add] at hload
    have htype := hload 8 4 (by decide)
    have hfields := hload 12 52 (by decide)
    have hsuggested := hload 44 4 (by decide)
    simp only [Option.bind_eq_bind, hget, Option.bind_some, hread, htype, hfields]
    refine ⟨_, rfl, fun q hq => ?_⟩
    rw [← Option.some.inj hq]
    refine ⟨fun hs => ?_, fun hi => hi⟩
    refine { hs with avisHeader := ?_, header := ?_, streams := ?_ }
    · exact (List.length_set ..).trans hs.avisHeader
    · intro x hx
      rcases List.mem_or_eq_of_mem_set hx with hx | rfl
      · exact hs.header x hx
      · omega
    · intro k hk
      have hk' : k < p.iStreamHeader + 1 := hk
      by_cases heq : p.iStreamHeader = k
      · refine ⟨m', ?_, by rw [hsuggested]; rfl⟩
        show (p.r.avisHeader.set p.iStreamHeader m')[k]? = _
        rw [← heq, List.getElem?_set_self hlt]
      · obtain ⟨x, hx, hloaded⟩ := hs.streams k (by omega)
        refine ⟨x, ?_, hloaded⟩
        show (p.r.avisHeader.set p.iStreamHeader m')[k]? = _
        rw [List.getElem?_set_ne heq, hx]

/-- The longer formats: back to where `WAVEFORMATEX` began. -/
theorem readLonger_some {f : InFile} {m : Cells} {n hi : Nat} (rest : Int) (hgood : f.good = true)
    (hpos : 20 ≤ f.pos) (hfile : f.pos - 20 + n ≤ f.bytes.length) (hlen : m.length = n)
    (hlow : 24 ≤ hi) (hhigh : hi ≤ n) :
    ∃ f' m', readLonger f m n hi rest = some (f', m') ∧ m'.length = n := by
  have hseek : f.seekBy (-20) = { f with pos := f.pos - 20, eof := false } := by
    have hneg : ¬ (f.fail = true ∨ (f.pos : Int) + -20 < 0) := by
      rw [(InFile.good_iff.mp hgood).2]
      simp only [Bool.false_eq_true, false_or]
      omega
    unfold InFile.seekBy InFile.seekTo
    rw [if_neg hneg]
    congr 1
    omega
  have hgood' : (f.seekBy (-20)).good = true := by
    rw [hseek, InFile.good_iff]
    exact ⟨rfl, (InFile.good_iff.mp hgood).2⟩
  obtain ⟨f', m', hread, hlen', hload⟩ := readInto_load (f := f.seekBy (-20)) (m := m) (a := 0) n
    hgood' (by rw [hseek]; exact hfile) (Nat.le_refl n) (by omega)
  simp only [Nat.zero_add] at hload
  have hfirst := hload 20 2 (by omega)
  have hfields := hload 24 (hi - 24) (by omega)
  refine ⟨f'.seekBy rest, m', ?_, by omega⟩
  unfold readLonger
  simp only [Option.bind_eq_bind, hread, Option.bind_some, hfirst, hfields]
  rfl

theorem reads_wave (hs : Sized p) (hgood : p.r.f.good = true)
    (h : WaveIntact p.r.f.bytes p.r.f.pos p.size) : Reads p (p.readWave w) := by
  obtain ⟨hsize, hfile, hlong, hmp3⟩ := h
  have hlen := hs.waveformat
  obtain ⟨m', hread, hlen', hload⟩ := readInto_all (m := p.r.waveformat) (a := 0) hgood hfile
    (by omega)
  simp only [Nat.zero_add] at hload
  have htag : m'.field 0 2 = some (fromLE (readAt p.r.f.bytes p.r.f.pos 2)) :=
    field_of_load (hload 0 2 (by omega))
  have hfields := hload 2 14 (by omega)
  -- the longer formats begin where `WAVEFORMATEX` did
  have longer : ∀ {m : Cells} {n : Nat} (hi : Nat) (rest : Int), 20 ≤ p.size ∧
      p.r.f.pos + n ≤ p.r.f.bytes.length → m.length = n → 24 ≤ hi → hi ≤ n →
      ∃ f' x, readLonger { p.r.f with pos := p.r.f.pos + min p.size 20 } m n hi rest =
        some (f', x) ∧ x.length = n := by
    intro m n hi rest hin hm hlow hhigh
    have hback : p.r.f.pos + min p.size 20 - 20 + n ≤ p.r.f.bytes.length := by omega
    have hpos : 20 ≤ p.r.f.pos + min p.size 20 := by omega
    exact readLonger_some rest hgood hpos hback hm hlow hhigh
  unfold readWave
  simp only [Option.bind_eq_bind, hread, Option.bind_some, htag, hfields]
  split
  · -- WAVE_FORMAT_EXTENSIBLE
    rename_i hext
    obtain ⟨f', x, hlonger, hx⟩ := longer 28 (w.minus p.size 44) (hlong (.inl hext))
      hs.waveformatExt (by decide) (by decide)
    rw [hlonger]
    refine ⟨_, rfl, fun hs => ?_, fun hi => hi⟩
    exact { hs with waveformat := hlen'.trans hlen, waveformatExt := hx }
  · split
    · -- WAVE_FORMAT_MPEG
      rename_i hmpeg
      obtain ⟨f', x, hlonger, hx⟩ := longer 44 (p.size - 44) (hlong (.inr hmpeg))
        hs.waveformatMpeg12 (by decide) (by decide)
      rw [hlonger]
      refine ⟨_, rfl, fun hs => ?_, fun hi => hi⟩
      exact { hs with waveformat := hlen'.trans hlen, waveformatMpeg12 := hx }
    · split
      · -- WAVE_FORMAT_MPEGLAYER3
        rename_i hlayer3
        obtain ⟨f', x, hlonger, hx⟩ := longer 34 (w.minus p.size 36) (hmp3 hlayer3)
          hs.waveformatMP3 (by decide) (by decide)
        rw [hlonger]
        refine ⟨_, rfl, fun hs => ?_, fun hi => hi⟩
        exact { hs with waveformat := hlen'.trans hlen, waveformatMP3 := hx }
      · refine ⟨_, rfl, fun hs => ?_, fun hi => hi⟩
        exact { hs with waveformat := hlen'.trans hlen }

/-- After the format of a video stream, the size of the picture is known. -/
theorem reads_bitmap (hs : Sized p) (hgood : p.r.f.good = true)
    (h : BitmapIntact p.r.f.bytes p.r.f.pos p.size) :
    ∃ q, p.readBitmap .unset = some q ∧ Keeps p q ∧ (q.r.bitmapInfo.load 20 4).isSome = true := by
  obtain ⟨hsize, hfile, hzero⟩ := h
  have hlen := hs.bitmapInfo
  have hmin : min p.size 40 = 40 := Nat.min_eq_right hsize
  obtain ⟨m', hread, hlen', hload⟩ := readInto_all (m := p.r.bitmapInfo) (a := 0) hgood
    (by rw [hmin]; exact hfile : p.r.f.pos + min p.size 40 ≤ _) (by omega)
  simp only [Nat.zero_add] at hload
  have hfields := hload 4 36 (by omega)
  have himage := hload 20 4 (by omega)
  obtain ⟨text, hstring⟩ := Cells.string_of_load (hload 16 4 (by omega)) hzero Memory.unset.behind
  unfold readBitmap
  simp only [Option.bind_eq_bind, hread, Option.bind_some, hfields, hstring]
  refine ⟨_, rfl, ⟨fun hs => ?_, fun _ => ?_⟩, ?_⟩
  · exact { hs with bitmapInfo := hlen'.trans hlen }
  · exact Option.isSome_iff_exists.mpr ⟨_, himage⟩
  · exact Option.isSome_iff_exists.mpr ⟨_, himage⟩

/-- The old index ends within what was read. -/
theorem oldIndexes_some (n : Nat) (bs : Bytes) (rest : Cells) (frames : FrameIdxs)
    (hn : 16 * n ≤ bs.length) (h : OldIndexIntact bs) :
    ∃ frames', oldIndexes .unset n (bs.map some ++ rest) frames = some frames' := by
  induction n generalizing bs frames with
  | zero => exact ⟨frames, rfl⟩
  | succ n ih =>
    have hload : ∀ k, k ≤ 16 → Cells.load (bs.map some ++ rest) 0 k = some (bs.take k) := by
      intro k hk
      refine Cells.load_eq_some.mpr ⟨?_, ?_⟩
      · rw [List.length_append, List.length_map]
        omega
      · rw [List.drop_zero, List.take_append_of_le_length (by rw [List.length_map]; omega),
          List.map_take]
    have hdrop : List.drop 16 (bs.map some ++ rest) = (bs.drop 16).map some ++ rest := by
      rw [List.drop_append_of_le_length (by rw [List.length_map]; omega), List.map_drop]
    have hrest : OldIndexIntact (bs.drop 16) := by
      intro i hi
      rw [List.length_drop] at hi
      have hnext := h (i + 1) (by omega)
      rw [readAt, List.drop_drop, show 16 + 16 * i = 16 * (i + 1) by omega]
      exact hnext
    rw [oldIndexes, Option.bind_eq_bind, hload 16 (Nat.le_refl 16), Option.bind_some, hdrop,
      List.take_take]
    have hfirst := h 0 (by omega)
    split
    · exact ih _ _ (by rw [List.length_drop]; omega) hrest
    · rename_i hrec
      have hzero : 0 ∈ bs.take 4 := hfirst.resolve_left hrec
      obtain ⟨s, hs⟩ := Cells.string_of_load (hload 4 (by decide)) hzero Memory.unset.behind
      rw [hs, Option.bind_some]
      exact ih _ _ (by rw [List.length_drop]; omega) hrest

/-- A buffer that was made for what is read into it. -/
theorem store_unset (k n : Nat) (bs : Bytes) :
    ∃ rest, (Memory.unset.cells k n).store 0 n bs = some (bs.map some ++ rest) := by
  refine ⟨(Memory.unset.cells k n).drop bs.length, ?_⟩
  unfold Cells.store
  rw [if_pos (by rw [Nat.zero_add]; exact Memory.unset.le_length k n), List.take_zero,
    List.nil_append, Nat.zero_add]

theorem reads_idx1 (hgood : p.readSize.r.f.good = true → p.readSize.r.f.pos = p.r.f.pos + 4)
    (h : OldIndexIntact (readAt p.r.f.bytes (p.r.f.pos + 4) p.readSize.size)) :
    Reads p (p.readIdx1 .unset) := by
  have hbytes : p.readSize.r.f.bytes = p.r.f.bytes := InFile.bytes_read _ _
  have hintact : OldIndexIntact (p.readSize.r.f.read p.readSize.size).1 := by
    unfold InFile.read
    split
    · rename_i hg
      rw [hbytes, hgood hg]
      exact h
    · intro i hi
      simp at hi
  obtain ⟨rest, hstore⟩ := store_unset 0 p.readSize.size
    (p.readSize.r.f.read p.readSize.size).1
  obtain ⟨frames, hframes⟩ := oldIndexes_some
    ((p.readSize.r.f.read p.readSize.size).1.length / sizeofOldIndex)
    (p.readSize.r.f.read p.readSize.size).1 rest p.readSize.r.frameIdxs (Nat.mul_div_le _ _) hintact
  unfold readIdx1
  simp only [Option.bind_eq_bind, hstore, Option.bind_some, hframes]
  exact ⟨_, rfl, keeps_of_memory rfl⟩

theorem reads_dmlh (hs : Sized p) (hgood : p.r.f.good = true)
    (h : p.r.f.pos + 8 ≤ p.r.f.bytes.length) : Reads p (p.readDmlh w) := by
  obtain ⟨hgood', hpos, hbytes⟩ := readSize_of_le hgood (by omega)
  have hlen : p.readSize.r.odmlExt.length = 4 := hs.odmlExt
  obtain ⟨m', hread, hlen', hload⟩ := readInto_all (f := p.readSize.r.f) (m := p.readSize.r.odmlExt)
    (a := 0) (n := 4) hgood' (by rw [hbytes]; omega) (by omega)
  have htotal : m'.load 0 4 = some _ := hload 0 4 (Nat.le_refl 4)
  unfold readDmlh
  simp only [Option.bind_eq_bind, hread, Option.bind_some, htotal]
  refine ⟨_, rfl, fun hs => ?_, fun hi => hi⟩
  exact { hs with odmlExt := hlen'.trans hlen }

theorem reads_vprp (hgood : p.r.f.good = true)
    (h : 36 ≤ p.readSize.size ∧ p.r.f.pos + 40 ≤ p.r.f.bytes.length) :
    Reads p (p.readVprp w .unset) := by
  obtain ⟨hgood', hpos, hbytes⟩ := readSize_of_le hgood (by omega)
  have hmin : min p.readSize.size 36 = 36 := Nat.min_eq_right h.1
  have hroom : 0 + min p.readSize.size 36 ≤ (Memory.unset.cells 0 36).length := by
    have := Memory.unset.le_length 0 36
    omega
  obtain ⟨m', hread, -, hload⟩ := readInto_all hgood' (by rw [hbytes, hmin]; omega) hroom
  have hfield : m'.field 32 4 = some _ := field_of_load (hload 32 4 (by omega))
  have hroom' : ∀ n : Nat, 0 + n ≤ (Memory.unset.cells 1 n).length := by
    intro n
    rw [Nat.zero_add]
    exact Memory.unset.le_length 1 n
  unfold readVprp
  simp only [Option.bind_eq_bind, hread, Option.bind_some, hfield]
  generalize fromLE (readAt _ _ 4) = nb
  obtain ⟨f', m'', hread', -⟩ := readInto_some
    (f := { p.readSize.r.f with pos := p.readSize.r.f.pos + min p.readSize.size 36 })
    (hroom' (32 * nb % w.range))
  rw [hread']
  exact ⟨_, rfl, keeps_of_memory rfl⟩

/-! ## The indexes -/

/-- All entries are in the file. -/
theorem readEntries_some (n : Nat) {f : InFile} (hgood : f.good = true)
    (h : f.pos + 16 * n ≤ f.bytes.length) :
    ∃ entries f', readEntries n .unset f = some (entries, f') ∧ f'.good = true ∧ f'.bytes = f.bytes ∧
      ∀ e ∈ entries, ∃ i, i < n ∧
        e.field 0 8 = some (fromLE (readAt f.bytes (f.pos + 16 * i) 8)) := by
  induction n generalizing f with
  | zero => exact ⟨[], f, rfl, hgood, rfl, List.forall_mem_nil _⟩
  | succ n ih =>
    have hroom : 0 + 16 ≤ (Memory.unset.cells 0 16).length := Nat.le_refl 16
    obtain ⟨entry, hread, -, hload⟩ := readInto_all hgood (by omega) hroom
    obtain ⟨entries, f', hrest, hgood', hbytes, hall⟩ := ih (f := { f with pos := f.pos + 16 }) hgood
      (by show f.pos + 16 + 16 * n ≤ f.bytes.length; omega)
    refine ⟨entry :: entries, f', ?_, hgood', hbytes, ?_⟩
    · rw [readEntries]
      simp only [Option.bind_eq_bind, hread, Option.bind_some, Memory.after_unset, hrest]
      rfl
    · intro e he
      rcases List.mem_cons.mp he with rfl | he
      · exact ⟨0, Nat.succ_pos n, field_of_load (hload 0 8 (by decide))⟩
      · obtain ⟨i, hi, hfield⟩ := hall e he
        refine ⟨i + 1, Nat.succ_lt_succ hi, hfield.trans ?_⟩
        show some (fromLE (readAt f.bytes (f.pos + 16 + 16 * i) 8)) = _
        rw [show f.pos + 16 + 16 * i = f.pos + 16 * (i + 1) by omega]

/-- The entries of a standard index are within its buffer. -/
theorem stdIndexEntries_some {bitmapInfo : Cells} (n : Nat) (bs : Bytes) (rest : Cells)
    (id : Bytes) (base : Nat) (h : 8 * n ≤ bs.length)
    (himage : n ≠ 0 → (bitmapInfo.load 20 4).isSome = true) :
    ∃ es, stdIndexEntries bitmapInfo n (bs.map some ++ rest) id base = some es := by
  induction n generalizing bs with
  | zero => exact ⟨[], rfl⟩
  | succ n ih =>
    have hload : ∀ i, i + 4 ≤ 8 →
        Cells.load (bs.map some ++ rest) i 4 = some (readAt bs i 4) := by
      intro i hi
      refine Cells.load_eq_some.mpr ⟨?_, ?_⟩
      · rw [List.length_append, List.length_map]
        omega
      · rw [List.drop_append_of_le_length (by rw [List.length_map]; omega),
          List.take_append_of_le_length (by rw [List.length_drop, List.length_map]; omega),
          readAt, List.map_take, List.map_drop]
    have hdrop : List.drop 8 (bs.map some ++ rest) = (bs.drop 8).map some ++ rest := by
      rw [List.drop_append_of_le_length (by rw [List.length_map]; omega), List.map_drop]
    have hknown := himage (Nat.succ_ne_zero n)
    obtain ⟨es, hes⟩ := ih (bs.drop 8) (by rw [List.length_drop]; omega) fun _ => hknown
    obtain ⟨biSizeImage, hsize⟩ := Option.isSome_iff_exists.mp hknown
    rw [stdIndexEntries]
    simp only [Option.bind_eq_bind, field_of_load (hload 0 (by decide)), Option.bind_some,
      field_of_load (hload 4 (by decide)), field_of_load hsize, hdrop, hes]
    exact ⟨_, rfl⟩

/-- Every standard index that is used has been read. -/
def WholeIndexes (bitmapInfo : Cells) (k : Int) : InFile → FrameIdxs → List Cells → Prop
  | _, _, [] => True
  | f, frames, entry :: entries =>
      (∀ n, entry.field 0 8 = some n →
        ((f.seekTo (int64 n)).read sizeofStdIndex).1.length = sizeofStdIndex) ∧
      ∀ f' frames', readStdIndex bitmapInfo k .unset f frames entry = some (f', frames') →
        WholeIndexes bitmapInfo k f' frames' entries

/-- **A standard index is read within bounds**, and all of it. -/
theorem readStdIndex_some {bitmapInfo : Cells} (k : Int) {f : InFile} (frames : FrameIdxs)
    {entry : Cells} {n : Nat} (hgood : f.good = true) (hentry : entry.field 0 8 = some n)
    (h : StdIndexIntact (bitmapInfo.load 20 4).isSome f.bytes (int64 n)) :
    ((f.seekTo (int64 n)).read sizeofStdIndex).1.length = sizeofStdIndex ∧
      ∃ f' frames', readStdIndex bitmapInfo k .unset f frames entry = some (f', frames') ∧
        f'.good = true ∧ f'.bytes = f.bytes := by
  obtain ⟨hpos, hfile, hroom⟩ := h
  have hfail : f.fail = false := (InFile.good_iff.mp hgood).2
  have hseek : f.seekTo (int64 n) = { f with pos := (int64 n).toNat, eof := false } := by
    unfold InFile.seekTo
    rw [if_neg (by rw [hfail]; simp only [Bool.false_eq_true, false_or]; omega)]
  have hgood' : (f.seekTo (int64 n)).good = true := by
    rw [hseek, InFile.good_iff]
    exact ⟨rfl, hfail⟩
  have hread : (f.seekTo (int64 n)).read sizeofStdIndex =
      (readAt f.bytes (int64 n).toNat 32,
        { f with pos := (int64 n).toNat + 32, eof := false }) := by
    rw [InFile.read_of_le hgood' (by rw [hseek]; exact hfile), hseek]
    rfl
  have hlen : (readAt f.bytes (int64 n).toNat 32).length = 32 := by
    rw [InFile.length_readAt]
    omega
  -- all of the index is there
  have hindex : stdIndexAt (f.seekTo (int64 n)) = (readAt f.bytes (int64 n).toNat 32,
      { f with pos := (int64 n).toNat + 32, eof := false }) := by
    unfold stdIndexAt
    rw [hread]
    dsimp only
    rw [hlen]
    show (_ ++ List.replicate (32 - 32) 0, _) = _
    rw [Nat.sub_self, List.replicate_zero, List.append_nil]
  have hfield : ∀ i j, i + j ≤ 32 → readAt (readAt f.bytes (int64 n).toNat 32) i j =
      readAt f.bytes ((int64 n).toNat + i) j := fun i j hij => InFile.readAt_readAt _ hij
  refine ⟨by rw [hread]; exact hlen, ?_⟩
  have hclean : ({ f with pos := (int64 n).toNat + 32, eof := false } : InFile).good = true :=
    InFile.good_iff.mpr ⟨rfl, hfail⟩
  unfold readStdIndex
  rw [Option.bind_eq_bind, hentry, Option.bind_some, hindex]
  dsimp only
  rw [hfield 16 4 (by decide), hfield 12 4 (by decide), hfield 4 4 (by decide)]
  split
  · exact ⟨_, _, rfl, hclean, rfl⟩
  · split
    · rename_i hallowed
      obtain ⟨hcb, hin, himage⟩ := hroom hallowed
      generalize fromLE (readAt f.bytes ((int64 n).toNat + 4) 4) = cb at hcb ⊢
      generalize fromLE (readAt f.bytes ((int64 n).toNat + 12) 4) = m at hcb hin himage ⊢
      have hbs : ((({ f with pos := (int64 n).toNat + 32, eof := false } : InFile).read cb).1) =
          readAt f.bytes ((int64 n).toNat + 32) cb := by
        unfold InFile.read
        rw [if_pos hclean]
      obtain ⟨rest, hstore⟩ := store_unset 0 cb (readAt f.bytes ((int64 n).toNat + 32) cb)
      have hentries : 8 * m ≤ (readAt f.bytes ((int64 n).toNat + 32) cb).length := by
        rw [InFile.length_readAt]
        omega
      obtain ⟨es, hes⟩ := stdIndexEntries_some m _ rest
        (readAt f.bytes ((int64 n).toNat + 16) 4)
        (fromLE (readAt (readAt f.bytes (int64 n).toNat 32) 20 8)) hentries himage
      simp only [hbs, Option.bind_eq_bind, hstore, Option.bind_some, hes]
      exact ⟨_, _, rfl, rfl, InFile.bytes_read _ _⟩
    · exact ⟨_, _, rfl, rfl, rfl⟩

/-- **All of them are.** -/
theorem readStdIndexes_some {bitmapInfo : Cells} (k : Int) (entries : List Cells) {f : InFile}
    (frames : FrameIdxs) (hgood : f.good = true) (h : ∀ e ∈ entries, ∃ n, e.field 0 8 = some n ∧
      StdIndexIntact (bitmapInfo.load 20 4).isSome f.bytes (int64 n)) :
    WholeIndexes bitmapInfo k f frames entries ∧
      ∃ f' frames', readStdIndexes bitmapInfo k .unset f frames entries = some (f', frames') := by
  induction entries generalizing f frames with
  | nil => exact ⟨trivial, f, frames, rfl⟩
  | cons entry entries ih =>
    obtain ⟨n, hentry, hintact⟩ := h entry (List.mem_cons_self ..)
    obtain ⟨hlen, f', frames', hone, hgood', hbytes⟩ :=
      readStdIndex_some k frames hgood hentry hintact
    have hrest := ih frames' hgood' fun e he => by
      rw [hbytes]
      exact h e (List.mem_cons_of_mem _ he)
    obtain ⟨hwhole, f'', frames'', hall⟩ := hrest
    refine ⟨⟨?_, ?_⟩, f'', frames'', ?_⟩
    · intro n' hn'
      rw [← Option.some.inj (hentry.symm.trans hn')]
      exact hlen
    · intro f₁ frames₁ h₁
      obtain ⟨rfl, rfl⟩ := Prod.mk.inj (Option.some.inj (hone.symm.trans h₁))
      exact hwhole
    · rw [readStdIndexes, Option.bind_eq_bind, hone, Option.bind_some]
      exact hall

/-- **A super index is read within bounds**, and its entries. -/
theorem readSuperIndex_some {image : Bool} (hgood : p.r.f.good = true)
    (h : SuperIndexIntact image p.r.f.bytes p.r.f.pos) :
    p.readSuperIndex .unset = some none ∨ ∃ k entries f,
      p.readSuperIndex .unset = some (some (k, entries, f)) ∧ f.good = true ∧
        f.bytes = p.r.f.bytes ∧
        ∀ e ∈ entries, ∃ n, e.field 0 8 = some n ∧ StdIndexIntact image p.r.f.bytes (int64 n) := by
  obtain ⟨hfile, hzero, hrest⟩ := h
  obtain ⟨m₁, hm₁⟩ := Cells.store_isSome (Nat.le_of_ble_eq_true rfl :
    0 + 8 ≤ (Memory.unset.cells 0 sizeofSuperIndex).length) (ascii "indx" ++ le 4 p.size)
  have hlen₁ := Cells.length_store hm₁ (Nat.le_of_eq (by
    rw [List.length_append, length_le_bytes]; rfl))
  have hsize : (Memory.unset.cells 0 sizeofSuperIndex).length = 32 := rfl
  rw [hsize] at hlen₁
  have hbehind : sizeofSuperIndex - 8 = 24 := rfl
  have hroom : 8 + 24 ≤ m₁.length := by
    rw [hlen₁]
  obtain ⟨m', hread, hlen', hload⟩ := readInto_all hgood hfile hroom
  -- the chunk id, printed as a string
  obtain ⟨fcc, hfcc⟩ := Cells.string_of_load (hload 8 4 (by decide)) hzero Memory.unset.behind
  have hsub : m'.field 10 1 = some _ := field_of_load (hload 2 1 (by decide))
  have htype : m'.field 11 1 = some _ := field_of_load (hload 3 1 (by decide))
  have huse : m'.field 12 4 = some (superEntries p.r.f.bytes p.r.f.pos) :=
    field_of_load (hload 4 4 (by decide))
  unfold readSuperIndex
  simp only [Option.bind_eq_bind, hm₁, Option.bind_some, hbehind, hread, hfcc, hsub]
  split
  · exact .inl rfl
  · rename_i hzero
    obtain ⟨hentries, hstd⟩ := hrest (not_not.mp hzero)
    obtain ⟨entries, f', hall, hgood', hbytes, hfields⟩ := readEntries_some
      (f := { p.r.f with pos := p.r.f.pos + 24 })
      (superEntries p.r.f.bytes p.r.f.pos) hgood hentries
    simp only [htype, huse, Memory.after_unset, hall, Option.bind_some]
    refine .inr ⟨_, _, _, rfl, hgood', hbytes, fun e he => ?_⟩
    obtain ⟨i, hi, hfield⟩ := hfields e he
    exact ⟨_, hfield, hstd i hi⟩

theorem inBounds_indx (hgood : p.r.f.good = true)
    (h : SuperIndexIntact p.imageKnown p.r.f.bytes (p.r.f.pos + 4)) :
    InBounds p (p.readIndx .unset) ∧ ∀ k entries f,
      p.readSize.readSuperIndex .unset = some (some (k, entries, f)) →
        WholeIndexes p.r.bitmapInfo k f p.r.odmlFrameIdxs entries := by
  have hfile := h.1
  obtain ⟨hgood', hpos, hbytes⟩ := readSize_of_le hgood (by omega)
  rw [← hbytes, ← hpos] at h
  unfold readIndx
  dsimp only
  rcases readSuperIndex_some hgood' h with hnone | ⟨k, entries, f, hsuper, hf, hfbytes, hall⟩
  · refine ⟨?_, fun k entries f hsome => ?_⟩
    · rw [Option.bind_eq_bind, hnone, Option.bind_some]
      exact ⟨.aborted, rfl, fun q hq => (nomatch hq)⟩
    · cases hnone.symm.trans hsome
  · have hintact : ∀ e ∈ entries, ∃ n, e.field 0 8 = some n ∧
        StdIndexIntact (p.r.bitmapInfo.load 20 4).isSome f.bytes (int64 n) := by
      intro e he
      rw [hfbytes]
      exact hall e he
    obtain ⟨hwhole, f', frames', hindexes⟩ :=
      readStdIndexes_some k entries p.readSize.r.odmlFrameIdxs hf hintact
    refine ⟨?_, fun k' entries' f₁ hsome => ?_⟩
    · rw [Option.bind_eq_bind, hsuper, Option.bind_some]
      dsimp only
      rw [Option.bind_eq_bind, Memory.after_unset,
        show p.readSize.r.bitmapInfo = p.r.bitmapInfo from rfl, hindexes, Option.bind_some]
      exact inBounds_again rfl
    · have heq := Option.some.inj (Option.some.inj (hsuper.symm.trans hsome))
      obtain ⟨rfl, h₂⟩ := Prod.mk.inj heq
      obtain ⟨rfl, rfl⟩ := Prod.mk.inj h₂
      exact hwhole

theorem inBounds_ite {c : Prop} [Decidable c] {a b : Option Round} (ha : c → InBounds p a)
    (hb : InBounds p b) : InBounds p (if c then a else b) := by
  split
  · rename_i hc
    exact ha hc
  · exact hb

theorem sized_readSize (hs : Sized p) : Sized p.readSize :=
  (keeps_of_memory (p := p) (q := p.readSize) rfl).sized hs

theorem reads_strf (hs : Sized p) (hgood : p.r.f.good = true)
    (hwave : p.bAudio = true → WaveIntact p.r.f.bytes (p.r.f.pos + 4) p.readSize.size)
    (hbitmap : p.bAudio = false → BitmapIntact p.r.f.bytes (p.r.f.pos + 4) p.readSize.size) :
    Reads p (p.readStrf w .unset) := by
  unfold readStrf
  dsimp only
  cases haudio : p.bAudio with
  | true =>
    have h := hwave haudio
    have hfile := h.2.1
    obtain ⟨hgood', hpos, hbytes⟩ := readSize_of_le hgood (by omega)
    rw [← hbytes, ← hpos] at h
    obtain ⟨q, hq, hkeeps⟩ := reads_wave (w := w) (sized_readSize hs) hgood' h
    rw [if_pos (show p.readSize.bAudio = true from haudio)]
    exact ⟨q, hq, fun hs => hkeeps.sized (sized_readSize hs), hkeeps.image⟩
  | false =>
    have h := hbitmap haudio
    have hfile := h.2.1
    obtain ⟨hgood', hpos, hbytes⟩ := readSize_of_le hgood (by omega)
    rw [← hbytes, ← hpos] at h
    obtain ⟨q, hq, hkeeps, -⟩ := reads_bitmap (sized_readSize hs) hgood' h
    have hvideo : ¬ p.readSize.bAudio = true := by
      rw [show p.readSize.bAudio = p.bAudio from rfl, haudio]
      exact Bool.false_ne_true
    rw [if_neg hvideo]
    exact ⟨q, hq, fun hs => hkeeps.sized (sized_readSize hs), hkeeps.image⟩

/-- **A chunk that is intact is read within bounds.** -/
theorem inBounds_chunk (hs : Sized p) (hi : Intact p) (hgood : p.atChunk.r.f.good = true)
    (hpos : p.atChunk.r.f.pos = p.r.f.pos + 4) :
    InBounds p.atChunk (p.atChunk.chunk w .unset p.tag) := by
  have hs' : Sized p.atChunk := (keeps_of_memory (p := p) (q := p.atChunk) rfl).sized hs
  have hbytes : p.atChunk.r.f.bytes = p.r.f.bytes := InFile.bytes_read _ _
  unfold chunk
  refine inBounds_ite (fun _ => inBounds_again rfl) ?_
  refine inBounds_ite (fun _ => inBounds_again rfl) ?_
  refine inBounds_ite (fun _ => inBounds_again rfl) ?_
  refine inBounds_ite (fun _ => inBounds_again rfl) ?_
  refine inBounds_ite (fun _ => inBounds_again rfl) ?_
  refine inBounds_ite (fun _ => inBounds_again rfl) ?_
  refine inBounds_ite (fun ht => inBounds_avih hs' hgood fun hsize => ?_) ?_
  · have := hi.avih ht hsize
    rw [hbytes, hpos]
    omega
  refine inBounds_ite (fun ht => inBounds_strl hs' hgood fun htwo => ?_) ?_
  · have := hi.strl ht htwo
    rw [hbytes, hpos]
    omega
  refine inBounds_ite (fun _ => inBounds_again rfl) ?_
  refine inBounds_ite (fun ht => Reads.inBounds (reads_strf hs' hgood ?_ ?_)) ?_
  · rw [hbytes, hpos]
    exact hi.wave ht
  · rw [hbytes, hpos]
    exact hi.bitmap ht
  refine inBounds_ite (fun _ => inBounds_again rfl) ?_
  refine inBounds_ite (fun _ => inBounds_again rfl) ?_
  refine inBounds_ite (fun _ => inBounds_again rfl) ?_
  refine inBounds_ite (fun _ => inBounds_again rfl) ?_
  refine inBounds_ite (fun ht => Reads.inBounds (reads_idx1 ?_ ?_)) ?_
  · intro hg
    exact (InFile.read_ok (InFile.good_iff.mp hg).2).2.2.1
  · rw [hbytes, hpos]
    exact hi.idx1 ht
  refine inBounds_ite (fun _ => inBounds_again rfl) ?_
  refine inBounds_ite (fun ht => Reads.inBounds (reads_dmlh hs' hgood ?_)) ?_
  · have := hi.dmlh ht
    rw [hbytes, hpos]
    omega
  refine inBounds_ite (fun _ => inBounds_again rfl) ?_
  refine inBounds_ite (fun ht => (inBounds_indx hgood ?_).1) ?_
  · rw [hbytes, hpos]
    exact hi.indx ht
  refine inBounds_ite (fun ht => Reads.inBounds (reads_vprp hgood ⟨(hi.vprp ht).1, ?_⟩)) ?_
  · have := (hi.vprp ht).2
    rw [hbytes, hpos]
    omega
  refine inBounds_ite (fun _ => inBounds_again rfl) ?_
  exact inBounds_again rfl

/-! ## Turns -/

/-- A tag of four bytes was in the file. -/
theorem tag_read (htag : p.tag.length = 4) :
    p.r.f.good = true ∧ p.atChunk.r.f.good = true ∧ p.atChunk.r.f.pos = p.r.f.pos + 4 := by
  have hfail : (p.r.f.read 4).2.fail = false := by
    unfold tag at htag
    unfold InFile.read at htag ⊢
    split at htag
    · rename_i hgood
      rw [if_pos hgood]
      dsimp only at htag ⊢
      rw [htag, decide_eq_false (Nat.lt_irrefl 4)]
    · cases htag
  obtain ⟨hgood, hgood', hpos, -, -⟩ := InFile.read_ok hfail
  exact ⟨hgood, hgood', hpos⟩

/-- **A turn on an intact chunk stays within bounds.** -/
theorem inBounds_round (hs : Sized p) (hi : Intact p) : InBounds p (p.round w .unset) := by
  have hleft : ∀ q, q.memory = p.memory → InBounds p (some (.left q)) := fun q hq =>
    ⟨.left q, rfl, fun _ heq => Option.some.inj heq ▸ keeps_of_memory hq⟩
  unfold round
  split
  · dsimp only
    split
    · exact hleft _ rfl
    · rename_i hfail
      rw [Bool.not_eq_true] at hfail
      obtain ⟨-, hgood, hpos, -, -⟩ := InFile.read_ok hfail
      obtain ⟨res, hres, hkeeps⟩ := inBounds_chunk (w := w) hs hi hgood hpos
      refine ⟨res, hres, fun q hq => ?_⟩
      have htag : Keeps p p.atChunk := keeps_of_memory (p := p) (q := p.atChunk) rfl
      exact ⟨fun hs => (hkeeps q hq).sized (htag.sized hs),
        fun himage => (hkeeps q hq).image (htag.image himage)⟩
  · exact hleft p rfl

/-- The format of a picture is read in this turn. -/
def ReadsImage (p : Parser) : Prop := p.tag = ascii "strf" ∧ p.bAudio = false

/-- After such a turn, the size of the picture is known. -/
theorem image_of_round {q : Parser} (hs : Sized p) (hi : Intact p) (himage : ReadsImage p)
    (h : p.round w .unset = some (.again q)) : (q.r.bitmapInfo.load 20 4).isSome = true := by
  obtain ⟨htag, haudio⟩ := himage
  obtain ⟨-, hgood, hpos, hchunk⟩ := round_again h
  have hbitmap := hi.bitmap htag haudio
  have hbytes : p.atChunk.r.f.bytes = p.r.f.bytes := InFile.bytes_read _ _
  obtain ⟨hgood', hpos', hbytes'⟩ := readSize_of_le hgood (by
    have := hbitmap.2.1
    rw [hbytes, hpos]
    omega)
  rw [show p.r.f.pos + 8 = p.atChunk.readSize.r.f.pos by rw [hpos', hpos], ← hbytes, ← hbytes']
    at hbitmap
  have hsized : Sized p.atChunk.readSize := sized_readSize
    ((keeps_of_memory (p := p) (q := p.atChunk) rfl).sized hs)
  obtain ⟨q', hread, -, hloaded⟩ := reads_bitmap hsized hgood' hbitmap
  have hvideo : ¬ p.atChunk.readSize.bAudio = true := by
    rw [show p.atChunk.readSize.bAudio = p.bAudio from rfl, haudio]
    exact Bool.false_ne_true
  rw [htag, chunk_strf, readStrf, if_neg hvideo, hread, Option.map_some] at hchunk
  obtain rfl := Round.again.inj (Option.some.inj hchunk)
  exact hloaded

/-! ## Runs -/

/-- **A turn within bounds**: no byte outside of a buffer and none that was not written is used, and
of a standard index that is used, all was in the file. -/
structure WithinBounds (w : SizeT) (p : Parser) : Prop where
  defined : (p.round w .unset).isSome = true
  whole : p.tag = ascii "indx" → ∀ k entries f,
    p.atChunk.readSize.readSuperIndex .unset = some (some (k, entries, f)) →
      WholeIndexes p.r.bitmapInfo k f p.r.odmlFrameIdxs entries

theorem withinBounds_of_intact (hs : Sized p) (hi : Intact p) : WithinBounds w p := by
  obtain ⟨res, hres, -⟩ := inBounds_round (w := w) hs hi
  refine ⟨by rw [hres]; rfl, fun htag => ?_⟩
  obtain ⟨-, hgood, hpos⟩ := tag_read (p := p) (by rw [htag]; rfl)
  refine (inBounds_indx hgood ?_).2
  rw [hpos, show p.atChunk.r.f.bytes = p.r.f.bytes from InFile.bytes_read _ _]
  exact hi.indx htag

theorem sized_start (file : Bytes) : Sized (start .unset file) where
  avimHeader := rfl
  avisHeader := rfl
  header h hh := by
    rcases List.mem_pair.mp hh with rfl | rfl <;> rfl
  bitmapInfo := rfl
  waveformat := rfl
  waveformatExt := rfl
  waveformatMpeg12 := rfl
  waveformatMP3 := rfl
  odmlExt := rfl
  streams i hi := absurd hi (Nat.not_lt_zero i)

end

end Parser

section

variable {w : SizeT} {file : Bytes}

/-- The turns of the loop in `open`, as far as nothing is used but what it is sure of. -/
def reading (w : SizeT) (file : Bytes) : System Parser Unit :=
  System.ofStep (fun p => p = Parser.start .unset file) fun p _ => p.next w .unset

/-- The guard of `open_in_bounds`. -/
def intactTurns : Parser → Unit → Prop := fun p _ => p.Intact

theorem sized_of_reach {p : Parser} (h : Reach (reading w file) intactTurns p) : p.Sized := by
  refine h.inv (P := fun p => p.Sized) ?_ ?_
  · rintro p rfl
    exact Parser.sized_start file
  · intro p _ q hs hi hq
    obtain ⟨res, hres, hkeeps⟩ := Parser.inBounds_round (w := w) hs hi
    have hagain := Parser.round_of_next hq
    obtain rfl := Option.some.inj (hres.symm.trans hagain)
    exact (hkeeps q rfl).sized hs

/-- Once the format of a picture has been read, its size stays known. -/
theorem image_of_run {p q : Parser} {is : List Unit} (hq : Reach (reading w file) intactTurns q)
    (himage : q.ReadsImage) (hne : is ≠ []) (hrun : Run (reading w file) intactTurns q is p) :
    (p.r.bitmapInfo.load 20 4).isSome = true := by
  cases is with
  | nil => exact absurd rfl hne
  | cons i is =>
    obtain ⟨t, hi, hstep, hrest⟩ := hrun.uncons
    have hs := sized_of_reach hq
    have hfirst := Parser.image_of_round hs hi himage (Parser.round_of_next hstep)
    refine (hrest.inv (P := fun p => p.Sized ∧ (p.r.bitmapInfo.load 20 4).isSome = true)
      ⟨sized_of_reach (hq.next hi hstep), hfirst⟩ ?_).2
    rintro p _ q ⟨hs, hloaded⟩ hi hq
    obtain ⟨res, hres, hkeeps⟩ := Parser.inBounds_round (w := w) hs hi
    obtain rfl := Option.some.inj (hres.symm.trans (Parser.round_of_next hq))
    have hk := hkeeps q rfl
    exact ⟨hk.sized hs, hk.image hloaded⟩

/-- `getAllocSize` uses one field, of the picture or of the header of the stream. -/
theorem getAllocSize_isSome {r : AviReader} {stream : Nat}
    (hvideo : stream = r.videoStreamIdx → (r.bitmapInfo.load 20 4).isSome = true)
    (hother : stream ≠ r.videoStreamIdx →
      ∃ h, r.avisHeader[stream]? = some h ∧ (h.load 44 4).isSome = true) :
    (r.getAllocSize stream).isSome = true := by
  unfold AviReader.getAllocSize
  dsimp only
  split
  · rename_i hstream
    obtain ⟨bs, hbs⟩ := Option.isSome_iff_exists.mp (hvideo hstream)
    rw [Option.bind_eq_bind, field_of_load hbs]
    rfl
  · rename_i hstream
    obtain ⟨h, hh, hloaded⟩ := hother hstream
    obtain ⟨bs, hbs⟩ := Option.isSome_iff_exists.mp hloaded
    rw [Option.bind_eq_bind, hh, Option.bind_some, Option.bind_eq_bind, field_of_load hbs]
    rfl

/-- What `open` does behind the loop leaves the structures as they are. -/
theorem finish_structures (p : Parser) : p.finish.1.videoStreamIdx = p.r.videoStreamIdx ∧
    p.finish.1.bitmapInfo = p.r.bitmapInfo ∧ p.finish.1.avisHeader = p.r.avisHeader := by
  unfold Parser.finish
  dsimp only
  split
  · exact ⟨rfl, rfl, rfl⟩
  · exact ⟨rfl, rfl, rfl⟩

/-- **Where all chunks are intact, `open` stays within bounds**, and so does `getAllocSize` for the
video stream, if the format of a picture was read, and for any other stream that has a header.
The turn that is judged is the next one of a run whose turns all found intact chunks, for what is
known of the members depends on all chunks before; the answer of `getAllocSize` is that of the
reader which this turn leaves if it is the last. -/
theorem open_in_bounds {p : Parser} (h : Reach (reading w file) intactTurns p) (hi : p.Intact) :
    p.WithinBounds w ∧ ∀ p', p.round w .unset = some (.left p') → ∀ stream,
      (stream = p'.r.videoStreamIdx → ∃ q is, Reach (reading w file) intactTurns q ∧
        q.ReadsImage ∧ is ≠ [] ∧ Run (reading w file) intactTurns q is p) →
      (stream ≠ p'.r.videoStreamIdx → stream < p'.iStreamHeader) →
        (p'.finish.1.getAllocSize stream).isSome = true := by
  have hs := sized_of_reach h
  refine ⟨Parser.withinBounds_of_intact hs hi, ?_⟩
  intro p' hleft stream hvideo hother
  obtain ⟨res, hres, hkeeps⟩ := Parser.inBounds_round (w := w) hs hi
  obtain rfl := Option.some.inj (hres.symm.trans hleft)
  have hk := hkeeps p' rfl
  obtain ⟨hindex, hbitmap, hheader⟩ := finish_structures p'
  refine getAllocSize_isSome ?_ ?_
  · intro hstream
    obtain ⟨q, is, hq, himage, hne, hrun⟩ := hvideo (hstream.trans hindex)
    rw [hbitmap]
    exact hk.image (image_of_run hq himage hne hrun)
  · intro hstream
    rw [hheader]
    exact (hk.sized hs).streams stream (hother fun heq => hstream (heq.trans hindex.symm))

/-- One video stream, and its index. The chunk id of the super index is not one of four
characters. -/
def oneVideo : Bytes :=
  ascii "strlstrh" ++ le 4 56 ++ ascii "vids" ++ List.replicate 52 0 ++
    ascii "strf" ++ le 4 40 ++ List.replicate 40 0 ++
    (ascii "indx" ++ le 4 40 ++ words [4] ++ [0, 0] ++ dwords [1] ++ ascii "00d" ++ [0] ++
      dwords [0, 0, 0] ++ dwords [164, 0, 0, 0]) ++
    (ascii "ix00" ++ le 4 32 ++ words [2] ++ [0, 1] ++ dwords [1] ++ ascii "00dc" ++
      dwords [0, 0, 0, 0, 0])

/-- At the format of its pictures. -/
def atFormat : Parser :=
  ((Parser.start .unset oneVideo).next .bits64 .unset).getD (Parser.start .unset oneVideo)

/-- At its super index. -/
def atIndex : Parser := (atFormat.next .bits64 .unset).getD atFormat

/-- At its standard index, which the loop passes over. -/
def atStdIndex : Parser := (atIndex.next .bits64 .unset).getD atIndex

/-- At its end. -/
def atEnd : Parser := (atStdIndex.next .bits64 .unset).getD atStdIndex

/-- What is not one of these chunks is not looked at. -/
theorem intact_of_tag {p : Parser} (h : p.tag ∉ ["avih", "strl", "strf", "idx1", "dmlh", "indx",
    "vprp"].map ascii) : p.Intact := by
  have hne : ∀ {s : String}, s ∈ ["avih", "strl", "strf", "idx1", "dmlh", "indx", "vprp"] →
      p.tag ≠ ascii s := fun hs ht => h (ht ▸ List.mem_map_of_mem hs)
  exact
    { avih := fun ht => absurd ht (hne (by decide))
      strl := fun ht => absurd ht (hne (by decide))
      wave := fun ht => absurd ht (hne (by decide))
      bitmap := fun ht => absurd ht (hne (by decide))
      idx1 := fun ht => absurd ht (hne (by decide))
      dmlh := fun ht => absurd ht (hne (by decide))
      indx := fun ht => absurd ht (hne (by decide))
      vprp := fun ht => absurd ht (hne (by decide)) }

theorem open_in_bounds_oneVideo : ∃ p' : Parser, atEnd.WithinBounds .bits64 ∧
    atEnd.round .bits64 .unset = some (.left p') ∧ p'.r.odmlFrameIdxs.length = 1 ∧
      (p'.finish.1.getAllocSize 0).isSome = true := by
  have hleft : atEnd.round .bits64 .unset =
      some (.left (atEnd.withFile (atEnd.r.f.read 4).2)) := by decide +kernel
  have hstrl : (Parser.start .unset oneVideo).Intact :=
    { avih := fun ht => absurd ht (by decide)
      strl := fun _ _ => by decide +kernel
      wave := fun ht => absurd ht (by decide)
      bitmap := fun ht => absurd ht (by decide)
      idx1 := fun ht => absurd ht (by decide)
      dmlh := fun ht => absurd ht (by decide)
      indx := fun ht => absurd ht (by decide)
      vprp := fun ht => absurd ht (by decide) }
  have hstrf : atFormat.Intact :=
    { avih := fun ht => absurd ht (by decide +kernel)
      strl := fun ht => absurd ht (by decide +kernel)
      wave := fun _ haudio => absurd haudio (by decide +kernel)
      bitmap := fun _ _ => by
        unfold Parser.BitmapIntact
        decide +kernel
      idx1 := fun ht => absurd ht (by decide +kernel)
      dmlh := fun ht => absurd ht (by decide +kernel)
      indx := fun ht => absurd ht (by decide +kernel)
      vprp := fun ht => absurd ht (by decide +kernel) }
  have hindx : atIndex.Intact :=
    { avih := fun ht => absurd ht (by decide +kernel)
      strl := fun ht => absurd ht (by decide +kernel)
      wave := fun ht => absurd ht (by decide +kernel)
      bitmap := fun ht => absurd ht (by decide +kernel)
      idx1 := fun ht => absurd ht (by decide +kernel)
      dmlh := fun ht => absurd ht (by decide +kernel)
      indx := fun _ => by
        unfold Parser.SuperIndexIntact Parser.StdIndexIntact
        decide +kernel
      vprp := fun ht => absurd ht (by decide +kernel) }
  have hix : atStdIndex.Intact := intact_of_tag (by decide +kernel)
  have hat : atEnd.Intact := intact_of_tag (by decide +kernel)
  have hfirst : (Parser.start .unset oneVideo).next .bits64 .unset = some atFormat := by
    decide +kernel
  have hsecond : atFormat.next .bits64 .unset = some atIndex := by decide +kernel
  have hthird : atIndex.next .bits64 .unset = some atStdIndex := by decide +kernel
  have hfourth : atStdIndex.next .bits64 .unset = some atEnd := by decide +kernel
  have hformat : Reach (reading .bits64 oneVideo) intactTurns atFormat :=
    (Reach.start rfl).next (i := ()) hstrl hfirst
  have hrun : Run (reading .bits64 oneVideo) intactTurns atFormat ([] ++ [()] ++ [()] ++ [()])
      atEnd := (((Run.nil _).snoc hstrf hsecond).snoc hindx hthird).snoc hix hfourth
  obtain ⟨hbounds, halloc⟩ := open_in_bounds (hformat.run hrun) hat
  refine ⟨_, hbounds, hleft, by decide +kernel, halloc _ hleft 0 ?_ ?_⟩
  · intro _
    exact ⟨atFormat, _, hformat, ⟨by decide +kernel, by decide +kernel⟩, by simp, hrun⟩
  · intro hne
    exact absurd (by decide +kernel) hne

/-- A super index with one standard index, which has one entry and a size of zero. -/
def entryOutside : Bytes :=
  ascii "indx" ++ le 4 40 ++ words [4] ++ [0, 0] ++ dwords [1] ++ ascii "00dc" ++
    dwords [0, 0, 0] ++ dwords [48, 0, 0, 0] ++
    ascii "ix00" ++ le 4 0 ++ words [2] ++ [0, 1] ++ dwords [1] ++ ascii "00dc" ++ dwords [0, 0, 0]

/-- **The entry is read outside of its buffer.** -/
theorem open_out_of_bounds : ¬ ∀ (w : SizeT) (file : Bytes) (p : Parser),
    Reach (reading w file) (anyStep _ _) p → p.WithinBounds w := by
  intro hall
  have hround : ((Parser.start .unset entryOutside).round .bits64 .unset).isSome = false := by
    decide +kernel
  have hreach : Reach (reading .bits64 entryOutside) (anyStep _ _)
      (Parser.start .unset entryOutside) :=
    Reach.start rfl
  have hdefined := (hall .bits64 entryOutside _ hreach).defined
  rw [hround] at hdefined
  exact Bool.false_ne_true hdefined

end

end Maixii.Avi
