import Maixii.Avi.AviReader

/-!
# `Avi/ReaderProgress.lean`: whether the loop of `open` ends

Nothing in the loop checks that it gets on. A chunk whose size field is in the file takes it at
least to the end of that field, with one exception: behind the format of an audio stream it seeks
by `size - sizeof(x)`, which is below zero for a short chunk if `size_t` is wider than `size`. And
where the size field of an `indx` chunk is not in the file, the error is cleared and the loop goes
on at `size - 1`. **If no turn is of these two kinds, the loop ends, and it never comes back to a
state it has been in** (`open_ends`). There is a file on which it does (`open_returns`).
-/

set_option autoImplicit false

namespace Maixii.Avi

open Maixii.Lib

namespace Parser

/-! ## The two kinds -/

/-- The four bytes at the position of the file. -/
def tag (p : Parser) : Bytes := (p.r.f.read 4).1

/-- Behind the tag. -/
def atChunk (p : Parser) : Parser := p.withFile (p.r.f.read 4).2

/-- The `wFormatTag` that is in force once this format has been read. -/
def formatTag (p : Parser) : Option Nat :=
  (readInto p.r.f p.r.waveformat 0 (min p.size 20)).bind fun x => x.2.field 0 2

/-- **The turn goes forward**: the format of an audio stream is not too short, and the size field of
an `indx` chunk is in the file. -/
structure Forward (w : SizeT) (p : Parser) : Prop where
  format : p.tag = ascii "strf" → p.bAudio = true →
    w = .bits64 ∨ p.atChunk.readSize.formatTag = some 0x50 → 7 ≤ p.atChunk.readSize.size
  index : p.tag = ascii "indx" → p.atChunk.readSize.r.f.good = true ∨
    p.r.f.pos + 1 < p.atChunk.readSize.size

theorem forward_iff_both {w : SizeT} {p : Parser} : p.Forward w ↔
    (p.tag = ascii "strf" → p.bAudio = true →
      w = .bits64 ∨ p.atChunk.readSize.formatTag = some 0x50 → 7 ≤ p.atChunk.readSize.size) ∧
    (p.tag = ascii "indx" → p.atChunk.readSize.r.f.good = true ∨
      p.r.f.pos + 1 < p.atChunk.readSize.size) :=
  ⟨fun h => ⟨h.format, h.index⟩, fun h => ⟨h.1, h.2⟩⟩

/-! ## Where each chunk leads -/

section

variable {w : SizeT} {mem : Memory} {p q : Parser}

/-- The chunk leads forward, and the file stays the same. -/
def Onward (p q : Parser) : Prop := ∃ n : Int, 0 ≤ n ∧ InFile.Moved p.r.f q.r.f n

theorem readSize_file (p : Parser) : p.readSize.r.f = (p.r.f.read 4).2 := rfl

theorem moved_readSize (p : Parser) : InFile.Moved p.r.f p.readSize.r.f 4 :=
  InFile.moved_read p.r.f 4

theorem onward_self (h : p.r.f.good = true) : Onward p p :=
  ⟨0, Int.le_refl _, rfl, fun hf => ⟨hf, h, (Int.add_zero _).symm⟩⟩

theorem onward_readSize (p : Parser) : Onward p p.readSize := ⟨4, by decide, moved_readSize p⟩

/-- A seek forward, behind the size. -/
theorem onward_seek (p : Parser) {n : Int} (h : 0 ≤ n) : Onward p (p.readSize.seekBy n) :=
  ⟨4 + n, by omega, (moved_readSize p).trans (InFile.moved_seekBy _ _)⟩

theorem onward_skip (p : Parser) : Onward p p.skip := onward_seek p (Int.natCast_nonneg _)

theorem minus32_nonneg (size n : Nat) : 0 ≤ SizeT.minus .bits32 size n := Int.natCast_nonneg _

theorem onward_skipStrn (p : Parser) : Onward p p.skipStrn := onward_seek p (minus32_nonneg _ _)

theorem onward_readMovi (w : SizeT) (p : Parser) : Onward p (p.readMovi w) :=
  ⟨_, minus32_nonneg _ _, InFile.moved_seekBy _ _⟩

theorem readInto_file {f f' : InFile} {m m' : Cells} {off n : Nat}
    (h : readInto f m off n = some (f', m')) : f' = (f.read n).2 := by
  obtain ⟨m₁, -, heq⟩ := Option.map_eq_some_iff.mp h
  exact (Prod.mk.inj heq).1.symm

theorem moved_readInto {f f' : InFile} {m m' : Cells} {off n : Nat}
    (h : readInto f m off n = some (f', m')) : InFile.Moved f f' n := by
  rw [readInto_file h]
  exact InFile.moved_read f n

theorem onward_readAvih (h : p.readAvih = some (.again q)) : Onward p q := by
  unfold readAvih at h
  dsimp only at h
  split at h
  · cases h
  · simp only [Option.bind_eq_bind, Option.bind_eq_some_iff, Option.pure_def, Option.some.injEq,
      Round.again.injEq] at h
    obtain ⟨m, -, ⟨f, m'⟩, hread, _, -, rfl⟩ := h
    exact ⟨4 + _, by omega, (moved_readSize p).trans (moved_readInto hread)⟩

theorem onward_readStrl (h : p.readStrl = some (.again q)) : Onward p q := by
  unfold readStrl at h
  split at h
  · cases h
  · simp only [Option.bind_eq_bind, Option.bind_eq_some_iff, Option.pure_def, Option.some.injEq,
      Round.again.injEq] at h
    obtain ⟨m, -, ⟨f, m'⟩, hread, _, -, _, -, rfl⟩ := h
    exact ⟨_, by omega, moved_readInto hread⟩

theorem onward_readBitmap (h : p.readSize.readBitmap mem = some q) : Onward p q := by
  unfold readBitmap at h
  simp only [Option.bind_eq_bind, Option.bind_eq_some_iff, Option.pure_def, Option.some.injEq] at h
  obtain ⟨⟨f, m⟩, hread, _, -, _, -, rfl⟩ := h
  have hmoved := (moved_readSize p).trans (moved_readInto hread)
  by_cases hlong : 40 < p.readSize.size
  · have hseek : InFile.Moved f (if 40 < p.readSize.size then
        f.seekBy (p.readSize.size - 40) else f) (p.readSize.size - 40) := by
      rw [if_pos hlong]
      exact InFile.moved_seekBy _ _
    exact ⟨_, by omega, hmoved.trans hseek⟩
  · rw [if_neg hlong]
    exact ⟨_, by omega, hmoved⟩

theorem moved_readLonger {f f' : InFile} {m m' : Cells} {n hi : Nat} {rest : Int}
    (h : readLonger f m n hi rest = some (f', m')) : InFile.Moved f f' (-20 + n + rest) := by
  unfold readLonger at h
  simp only [Option.bind_eq_bind, Option.bind_eq_some_iff, Option.pure_def, Option.some.injEq] at h
  obtain ⟨⟨f₁, m₁⟩, hread, _, -, _, -, heq⟩ := h
  obtain ⟨rfl, -⟩ := Prod.mk.inj heq
  exact ((InFile.moved_seekBy f (-20)).trans (moved_readInto hread)).trans
    (InFile.moved_seekBy _ _)

/-- **Where the format of an audio stream leads**: to its end, less what there is not of the first
20 bytes; further, if `size_t` is no wider than `size` and the format is not that of MPEG. -/
theorem moved_readWave (h : p.readWave w = some q) :
    ∃ n : Int, InFile.Moved p.r.f q.r.f n ∧
      (w = .bits64 ∨ p.formatTag = some 0x50 → n = min p.size 20 + (p.size - 20)) ∧
      (¬ (w = .bits64 ∨ p.formatTag = some 0x50) → 0 ≤ n) := by
  unfold readWave at h
  simp only [Option.bind_eq_bind, Option.bind_eq_some_iff, Option.pure_def] at h
  obtain ⟨⟨f, m⟩, hread, wFormatTag, hformat, _, -, h⟩ := h
  have hmoved := moved_readInto hread
  have htag : p.formatTag = some wFormatTag := by
    rw [formatTag, hread]
    exact hformat
  have hwide : ∀ n : Nat, w = .bits64 → w.minus p.size n = p.size - n := by
    rintro n rfl
    rfl
  have hnarrow : ∀ n : Nat, w ≠ .bits64 → 0 ≤ w.minus p.size n := by
    intro n hw
    cases w with
    | bits64 => exact absurd rfl hw
    | bits32 => exact minus32_nonneg _ _
  rw [htag]
  split at h
  · -- WAVE_FORMAT_EXTENSIBLE
    rename_i hext
    rw [Option.bind_eq_some_iff] at h
    obtain ⟨⟨f', x⟩, hlonger, heq⟩ := h
    obtain rfl := Option.some.inj heq
    refine ⟨_, hmoved.trans (moved_readLonger hlonger), ?_, ?_⟩
    · intro hback
      rcases hback with hw | hmpeg
      · rw [hwide 44 hw]
        omega
      · rw [Option.some.injEq, hext] at hmpeg
        exact absurd hmpeg (by decide)
    · intro hback
      have := hnarrow 44 fun hw => hback (.inl hw)
      omega
  · split at h
    · -- WAVE_FORMAT_MPEG
      rename_i hmpeg
      rw [Option.bind_eq_some_iff] at h
      obtain ⟨⟨f', x⟩, hlonger, heq⟩ := h
      obtain rfl := Option.some.inj heq
      refine ⟨_, hmoved.trans (moved_readLonger hlonger), ?_, ?_⟩
      · intro _
        omega
      · intro hback
        exact absurd (.inr (congrArg some hmpeg)) hback
    · rename_i hmpeg
      have hmpeg' : some wFormatTag ≠ some 0x50 := fun h => hmpeg (Option.some.inj h)
      split at h
      · -- WAVE_FORMAT_MPEGLAYER3
        rw [Option.bind_eq_some_iff] at h
        obtain ⟨⟨f', x⟩, hlonger, heq⟩ := h
        obtain rfl := Option.some.inj heq
        refine ⟨_, hmoved.trans (moved_readLonger hlonger), ?_, ?_⟩
        · intro hback
          rw [hwide 36 (hback.resolve_right hmpeg')]
          omega
        · intro hback
          have := hnarrow 36 fun hw => hback (.inl hw)
          omega
      · obtain rfl := Option.some.inj h
        refine ⟨_, hmoved.trans (InFile.moved_seekBy _ _), ?_, ?_⟩
        · intro hback
          rw [hwide 20 (hback.resolve_right hmpeg')]
          rfl
        · intro hback
          have := hnarrow 20 fun hw => hback (.inl hw)
          omega

theorem onward_readIdx1 (h : p.readIdx1 mem = some q) : Onward p q := by
  unfold readIdx1 at h
  simp only [Option.bind_eq_bind, Option.bind_eq_some_iff, Option.pure_def, Option.some.injEq] at h
  obtain ⟨_, -, _, -, rfl⟩ := h
  exact ⟨_, by omega, (moved_readSize p).trans (InFile.moved_read _ _)⟩

/-- `size - 4` may be below zero, but four bytes have been read. -/
theorem onward_readDmlh (h : p.readDmlh w = some q) : Onward p q := by
  unfold readDmlh at h
  simp only [Option.bind_eq_bind, Option.bind_eq_some_iff, Option.pure_def, Option.some.injEq] at h
  obtain ⟨⟨f, m⟩, hread, _, -, rfl⟩ := h
  refine ⟨_, ?_, ((moved_readSize p).trans (moved_readInto hread)).trans
    (InFile.moved_seekBy _ _)⟩
  cases w with
  | bits32 =>
    have := minus32_nonneg p.readSize.size 4
    omega
  | bits64 =>
    show (0 : Int) ≤ 4 + (4 : Nat) + ((p.readSize.size : Int) - (4 : Nat))
    omega

theorem onward_readVprp (h : p.readVprp w mem = some q) : Onward p q := by
  unfold readVprp at h
  simp only [Option.bind_eq_bind, Option.bind_eq_some_iff, Option.pure_def, Option.some.injEq] at h
  obtain ⟨⟨f, m⟩, hread, _, -, ⟨f', m'⟩, hread', rfl⟩ := h
  exact ⟨_, by omega, ((moved_readSize p).trans (moved_readInto hread)).trans
    (moved_readInto hread')⟩

theorem bytes_readEntries {n : Nat} {f f' : InFile} {entries : List Cells}
    (h : readEntries n mem f = some (entries, f')) : f'.bytes = f.bytes := by
  induction n generalizing mem f entries with
  | zero =>
    obtain ⟨-, rfl⟩ := Prod.mk.inj (Option.some.inj h)
    rfl
  | succ n ih =>
    simp only [readEntries, Option.bind_eq_bind, Option.bind_eq_some_iff, Option.pure_def,
      Option.some.injEq] at h
    obtain ⟨⟨f₁, entry⟩, hread, ⟨es, f₂⟩, hrest, heq⟩ := h
    obtain ⟨-, rfl⟩ := Prod.mk.inj heq
    rw [ih hrest, (moved_readInto hread).bytes]

theorem bytes_stdIndexAt (f : InFile) : (stdIndexAt f).2.bytes = f.bytes := InFile.bytes_read _ _

theorem bytes_readStdIndex {bitmapInfo : Cells} {k : Int} {f f' : InFile}
    {frames frames' : FrameIdxs} {entry : Cells}
    (h : readStdIndex bitmapInfo k mem f frames entry = some (f', frames')) :
    f'.bytes = f.bytes := by
  unfold readStdIndex at h
  rw [Option.bind_eq_bind, Option.bind_eq_some_iff] at h
  obtain ⟨qwOffset, -, h⟩ := h
  have hbytes : (stdIndexAt (f.seekTo (int64 qwOffset))).2.bytes = f.bytes := by
    rw [bytes_stdIndexAt, InFile.bytes_seekTo]
  generalize stdIndexAt (f.seekTo (int64 qwOffset)) = x at h hbytes
  dsimp only at h
  split at h
  · obtain ⟨rfl, -⟩ := Prod.mk.inj (Option.some.inj h)
    exact hbytes
  · split at h
    · simp only [Option.bind_eq_bind, Option.bind_eq_some_iff, Option.pure_def,
        Option.some.injEq] at h
      obtain ⟨_, -, _, -, heq⟩ := h
      obtain ⟨rfl, -⟩ := Prod.mk.inj heq
      exact (InFile.bytes_read _ _).trans hbytes
    · obtain ⟨rfl, -⟩ := Prod.mk.inj (Option.some.inj h)
      exact hbytes

theorem bytes_readStdIndexes {bitmapInfo : Cells} {k : Int} {f f' : InFile}
    {frames frames' : FrameIdxs} {entries : List Cells}
    (h : readStdIndexes bitmapInfo k mem f frames entries = some (f', frames')) :
    f'.bytes = f.bytes := by
  induction entries generalizing mem f frames with
  | nil =>
    obtain ⟨rfl, -⟩ := Prod.mk.inj (Option.some.inj h)
    rfl
  | cons entry entries ih =>
    rw [readStdIndexes, Option.bind_eq_bind, Option.bind_eq_some_iff] at h
    obtain ⟨⟨f₁, frames₁⟩, hone, hrest⟩ := h
    rw [ih hrest, bytes_readStdIndex hone]

theorem bytes_readSuperIndex {k : Int} {entries : List Cells} {f : InFile}
    (h : p.readSuperIndex mem = some (some (k, entries, f))) : f.bytes = p.r.f.bytes := by
  unfold readSuperIndex at h
  simp only [Option.bind_eq_bind, Option.bind_eq_some_iff] at h
  obtain ⟨m, -, ⟨f₁, m'⟩, hread, fcc, -, sub, -, h⟩ := h
  split at h
  · cases h
  · simp only [Option.bind_eq_some_iff, Option.pure_def, Option.some.injEq] at h
    obtain ⟨_, -, n, -, ⟨es, f₂⟩, hentries, heq⟩ := h
    obtain ⟨-, -, rfl⟩ := Prod.mk.inj heq |>.imp_right Prod.mk.inj
    rw [bytes_readEntries hentries, (moved_readInto hread).bytes]

/-- **Where an `indx` chunk leads**: to its end, or to `size - 1`. -/
theorem readIndx_again (h : p.readIndx mem = some (.again q)) :
    q.r.f.bytes = p.r.f.bytes ∧
      (q.r.f.fail = false → q.r.f.good = true ∧
        (q.r.f.pos : Int) = p.readSize.r.f.tell + p.readSize.size) := by
  unfold readIndx at h
  dsimp only at h
  rw [Option.bind_eq_bind, Option.bind_eq_some_iff] at h
  obtain ⟨found, hsuper, h⟩ := h
  cases found with
  | none => cases h
  | some x =>
    obtain ⟨k, entries, f⟩ := x
    simp only [Option.bind_eq_bind, Option.bind_eq_some_iff, Option.pure_def, Option.some.injEq,
      Round.again.injEq] at h
    obtain ⟨⟨f', frames⟩, hindexes, rfl⟩ := h
    refine ⟨?_, fun hfail => (InFile.seekTo_ok hfail).2⟩
    show (InFile.seekTo _ _).bytes = _
    rw [InFile.bytes_seekTo]
    show f'.bytes = _
    rw [bytes_readStdIndexes hindexes, bytes_readSuperIndex hsuper, (moved_readSize p).bytes]

/-- **Where a chunk leads.** -/
theorem chunk_again {tag : Bytes} (hgood : p.r.f.good = true)
    (h : p.chunk w mem tag = some (.again q)) :
    (tag = ascii "strf" ∧ p.readSize.bAudio = true ∧ p.readSize.readWave w = some q) ∨
      (tag = ascii "indx" ∧ p.readIndx mem = some (.again q)) ∨ Onward p q := by
  -- a chunk that is read without a check, one with its own result, and one that may be undefined
  have plain : ∀ {x : Parser}, some (Round.again x) = some (.again q) → Onward p x →
      Onward p q := by
    intro x hx honward
    rwa [← Round.again.inj (Option.some.inj hx)]
  have reads : ∀ {x : Option Parser}, x.map Round.again = some (.again q) → x = some q := by
    intro x hx
    obtain ⟨q', rfl, heq⟩ := Option.map_eq_some_iff.mp hx
    rw [Round.again.inj heq]
  unfold chunk at h
  rcases ite_eq_iff.mp h with ⟨-, h⟩ | ⟨-, h⟩
  · exact .inr (.inr (plain h (onward_skip p)))
  rcases ite_eq_iff.mp h with ⟨-, h⟩ | ⟨-, h⟩
  · exact .inr (.inr (plain h (onward_readSize p)))
  rcases ite_eq_iff.mp h with ⟨-, h⟩ | ⟨-, h⟩
  · exact .inr (.inr (plain h (onward_self hgood)))
  rcases ite_eq_iff.mp h with ⟨-, h⟩ | ⟨-, h⟩
  · exact .inr (.inr (plain h (onward_self hgood)))
  rcases ite_eq_iff.mp h with ⟨-, h⟩ | ⟨-, h⟩
  · exact .inr (.inr (plain h (onward_readSize p)))
  rcases ite_eq_iff.mp h with ⟨-, h⟩ | ⟨-, h⟩
  · exact .inr (.inr (plain h (onward_self hgood)))
  rcases ite_eq_iff.mp h with ⟨-, h⟩ | ⟨-, h⟩
  · exact .inr (.inr (onward_readAvih h))
  rcases ite_eq_iff.mp h with ⟨-, h⟩ | ⟨-, h⟩
  · exact .inr (.inr (onward_readStrl h))
  rcases ite_eq_iff.mp h with ⟨-, h⟩ | ⟨-, h⟩
  · exact .inr (.inr (plain h (onward_self hgood)))
  rcases ite_eq_iff.mp h with ⟨ht, h⟩ | ⟨-, h⟩
  · have hread := reads h
    unfold readStrf at hread
    dsimp only at hread
    rcases ite_eq_iff.mp hread with ⟨haudio, hread⟩ | ⟨-, hread⟩
    · exact .inl ⟨ht, haudio, hread⟩
    · exact .inr (.inr (onward_readBitmap hread))
  rcases ite_eq_iff.mp h with ⟨-, h⟩ | ⟨-, h⟩
  · exact .inr (.inr (plain h (onward_self hgood)))
  rcases ite_eq_iff.mp h with ⟨-, h⟩ | ⟨-, h⟩
  · exact .inr (.inr (plain h (onward_skip p)))
  rcases ite_eq_iff.mp h with ⟨-, h⟩ | ⟨-, h⟩
  · exact .inr (.inr (plain h (onward_skipStrn p)))
  rcases ite_eq_iff.mp h with ⟨-, h⟩ | ⟨-, h⟩
  · exact .inr (.inr (plain h (onward_readMovi w p)))
  rcases ite_eq_iff.mp h with ⟨-, h⟩ | ⟨-, h⟩
  · exact .inr (.inr (onward_readIdx1 (reads h)))
  rcases ite_eq_iff.mp h with ⟨-, h⟩ | ⟨-, h⟩
  · exact .inr (.inr (plain h (onward_self hgood)))
  rcases ite_eq_iff.mp h with ⟨-, h⟩ | ⟨-, h⟩
  · exact .inr (.inr (onward_readDmlh (reads h)))
  rcases ite_eq_iff.mp h with ⟨-, h⟩ | ⟨-, h⟩
  · exact .inr (.inr (plain h (onward_skip p)))
  rcases ite_eq_iff.mp h with ⟨ht, h⟩ | ⟨-, h⟩
  · exact .inr (.inl ⟨ht, h⟩)
  rcases ite_eq_iff.mp h with ⟨-, h⟩ | ⟨-, h⟩
  · exact .inr (.inr (onward_readVprp (reads h)))
  rcases ite_eq_iff.mp h with ⟨-, h⟩ | ⟨-, h⟩
  · exact .inr (.inr (plain h (onward_self hgood)))
  exact .inr (.inr (plain h (onward_skip p)))

theorem chunk_strf (w : SizeT) (mem : Memory) (p : Parser) :
    p.chunk w mem (ascii "strf") = (p.readStrf w mem).map .again := rfl

theorem chunk_indx (w : SizeT) (mem : Memory) (p : Parser) :
    p.chunk w mem (ascii "indx") = p.readIndx mem := rfl

/-! ## Turns -/

/-- A turn after which the loop goes on has read a tag, and the chunk behind it. -/
theorem round_again (h : p.round w mem = some (.again q)) :
    p.r.f.pos + 4 ≤ p.r.f.bytes.length ∧ p.atChunk.r.f.good = true ∧
      p.atChunk.r.f.pos = p.r.f.pos + 4 ∧ p.atChunk.chunk w mem p.tag = some (.again q) := by
  unfold round at h
  split at h
  · dsimp only at h
    split at h
    · exact Round.noConfusion (Option.some.inj h)
    · rename_i hfail
      obtain ⟨-, hgood, hpos, hread, hlen⟩ := InFile.read_ok (Bool.not_eq_true _ ▸ hfail)
      refine ⟨?_, hgood, hpos, h⟩
      rw [hread, InFile.length_readAt] at hlen
      omega
  · exact Round.noConfusion (Option.some.inj h)

/-- **A turn goes forward just when it is `Forward`.** -/
theorem forward_iff (h : p.round w mem = some (.again q)) (hq : q.r.f.good = true) :
    p.r.f.pos < q.r.f.pos ↔ p.Forward w := by
  obtain ⟨-, hgood, hpos, hchunk⟩ := round_again h
  have hfail : q.r.f.fail = false := (InFile.good_iff.mp hq).2
  by_cases hstrf : p.tag = ascii "strf" ∧ p.bAudio = true
  · have haudio : p.atChunk.readSize.bAudio = true := hstrf.2
    rw [hstrf.1, chunk_strf, readStrf, if_pos haudio] at hchunk
    obtain ⟨q', hread, heq⟩ := Option.map_eq_some_iff.mp hchunk
    rw [Round.again.inj heq] at hread
    obtain ⟨n, hmoved, hback, honward⟩ := moved_readWave hread
    obtain ⟨-, -, hq'⟩ := ((moved_readSize p.atChunk).trans hmoved).ok hfail
    have hforward : p.Forward w ↔
        (w = .bits64 ∨ p.atChunk.readSize.formatTag = some 0x50 → 7 ≤ p.atChunk.readSize.size) := by
      refine ⟨fun hf => hf.format hstrf.1 hstrf.2, fun hf => ⟨fun _ _ => hf, fun hindx => ?_⟩⟩
      exact absurd (hstrf.1.symm.trans hindx) (by decide)
    rw [hforward]
    by_cases hkind : w = .bits64 ∨ p.atChunk.readSize.formatTag = some 0x50
    · have hn := hback hkind
      constructor
      · intro _ _
        omega
      · intro hsize
        have := hsize hkind
        omega
    · have hn := honward hkind
      refine ⟨fun _ hk => absurd hk hkind, fun _ => ?_⟩
      omega
  · by_cases hindx : p.tag = ascii "indx"
    · rw [hindx, chunk_indx] at hchunk
      obtain ⟨-, hend⟩ := readIndx_again hchunk
      obtain ⟨-, hq'⟩ := hend hfail
      have hforward : p.Forward w ↔ p.atChunk.readSize.r.f.good = true ∨
          p.r.f.pos + 1 < p.atChunk.readSize.size :=
        ⟨fun hf => hf.index hindx, fun hf => ⟨fun ht hb => absurd ⟨ht, hb⟩ hstrf, fun _ => hf⟩⟩
      rw [hforward]
      cases hread : p.atChunk.readSize.r.f.good with
      | true =>
        obtain ⟨-, -, hsize⟩ :=
          (moved_readSize p.atChunk).ok (InFile.good_iff.mp hread).2
        rw [InFile.tell, if_pos hread] at hq'
        refine ⟨fun _ => .inl rfl, fun _ => ?_⟩
        omega
      | false =>
        rw [InFile.tell, hread, if_neg Bool.false_ne_true] at hq'
        constructor
        · intro hlt
          right
          omega
        · rintro (hbad | hlt)
          · exact absurd hbad Bool.false_ne_true
          · omega
    · rcases chunk_again hgood hchunk with ⟨ht, hb, -⟩ | ⟨ht, -⟩ | ⟨n, hn, hmoved⟩
      · exact absurd ⟨ht, hb⟩ hstrf
      · exact absurd ht hindx
      · obtain ⟨-, -, hq'⟩ := hmoved.ok hfail
        refine ⟨fun _ => ?_, fun _ => ?_⟩
        · exact ⟨fun ht hb => absurd ⟨ht, hb⟩ hstrf, fun ht => absurd ht hindx⟩
        · omega

/-- The file stays the same. -/
theorem bytes_round (h : p.round w mem = some (.again q)) : q.r.f.bytes = p.r.f.bytes := by
  obtain ⟨-, hgood, -, hchunk⟩ := round_again h
  have htag : p.atChunk.r.f.bytes = p.r.f.bytes := InFile.bytes_read _ _
  rw [← htag]
  rcases chunk_again hgood hchunk with ⟨-, -, hread⟩ | ⟨-, hread⟩ | ⟨n, -, hmoved⟩
  · obtain ⟨n, hmoved, -⟩ := moved_readWave hread
    exact ((moved_readSize p.atChunk).trans hmoved).bytes
  · exact (readIndx_again hread).1
  · exact hmoved.bytes

theorem round_of_next (h : p.next w mem = some q) : p.round w mem = some (.again q) := by
  unfold next at h
  split at h
  · rename_i hround
    rw [hround, Option.some.inj h]
  · cases h

/-! ## Runs -/

/-- How far the loop has come; a file that has failed ends it. -/
def rank (p : Parser) : Nat := if p.r.f.good then p.r.f.pos else p.r.f.bytes.length

/-- **A forward turn climbs.** -/
theorem rank_lt {file : Bytes} (hfile : p.r.f.bytes = file) (hf : p.Forward w)
    (h : p.next w mem = some q) : q.r.f.bytes = file ∧ p.rank < q.rank ∧ p.rank < file.length := by
  have hround := round_of_next h
  obtain ⟨hlen, -⟩ := round_again hround
  have hbytes := (bytes_round hround).trans hfile
  have hgood : p.r.f.good = true := by
    cases hg : p.r.f.good with
    | true => rfl
    | false =>
      unfold round at hround
      rw [hg, if_neg Bool.false_ne_true] at hround
      exact Round.noConfusion (Option.some.inj hround)
  have hrank : p.rank = p.r.f.pos := if_pos hgood
  rw [hfile] at hlen
  refine ⟨hbytes, ?_, by omega⟩
  rw [hrank, rank]
  split
  · rename_i hq
    exact (forward_iff hround hq).mpr hf
  · rw [hbytes]
    omega

end

end Parser

section

variable {w : SizeT} {file : Bytes}

/-- The guard of `open_ends`. It asks nothing of the memory of a turn. -/
def forwardTurns (w : SizeT) : Parser → Memory → Prop := fun p _ => p.Forward w

instance (p : Parser) (mem : Memory) : Decidable (forwardTurns w p mem) :=
  decidable_of_iff _ (Parser.forward_iff_both (w := w) (p := p)).symm

/-- **If all turns go forward, the loop ends**: there are no more of them than the file has bytes,
and no state comes twice. The first run is from the start of `open` to some state `p`, the second
goes on from there, so that `p` and `q` are any two states of one execution. Each turn has a memory
of its own: what is logged of a structure that the file has not filled is whatever was there, and
the loop goes on. -/
theorem open_ends {mem : Memory} {is js : List Memory} {p q : Parser}
    (h : Run (parsing w file) (forwardTurns w) (Parser.start mem file) is p)
    (hrest : Run (parsing w file) (forwardTurns w) p js q) :
    is.length ≤ file.length ∧ (js ≠ [] → q ≠ p) := by
  have hstep : ∀ (p : Parser) (i : Memory) (q : Parser), p.r.f.bytes = file →
      forwardTurns w p i → (parsing w file).step p i q →
        q.r.f.bytes = file ∧ p.rank < q.rank := by
    intro p _ q hp hf hq
    obtain ⟨hbytes, hlt, -⟩ := Parser.rank_lt hp hf hq
    exact ⟨hbytes, hlt⟩
  have hbound : ∀ (p : Parser) (i : Memory) (q : Parser), p.r.f.bytes = file →
      forwardTurns w p i → (parsing w file).step p i q → p.rank < file.length := by
    intro p _ q hp hf hq
    exact (Parser.rank_lt hp hf hq).2.2
  have hstart : (Parser.start mem file).r.f.bytes = file := rfl
  have hfile := (h.climbs hstart hstep).1
  exact ⟨h.length_le hstart hstep hbound, hrest.ne hfile hstep⟩

/-- An audio stream whose format has ten bytes of the twenty, and an index. -/
def tenBytes : Bytes :=
  ascii "strlstrh" ++ le 4 56 ++ ascii "auds" ++ List.replicate 52 0 ++
    (ascii "strf" ++ le 4 10 ++ words [1, 2] ++ le 4 2 ++ words [8]) ++
    ascii "indx" ++ le 4 40 ++ words [4] ++ [0, 0] ++ dwords [1] ++ ascii "00wb" ++
    dwords [0, 0, 0] ++ dwords [134, 0, 0, 0] ++
    ascii "ix00" ++ le 4 32 ++ words [2] ++ [0, 1] ++ dwords [1] ++ ascii "00wb" ++
    dwords [0, 0, 0, 0, 0]

/-- So many turns in memory that is zero. -/
def zeroTurns (n : Nat) : List Memory := List.replicate n (Memory.zeros 4)

/-- The start of `open` in it. -/
def tenBytesStart : Parser := Parser.start (Memory.zeros 4) tenBytes

/-- Two turns on: behind the format the reader has sought back by ten bytes. -/
def tenBytesFormat : Parser :=
  (runFrom (fun p mem => Parser.next .bits64 mem p) (forwardTurns .bits64) tenBytesStart
    (zeroTurns 2)).getD tenBytesStart

/-- Two more: it has taken what it had read of the format for a chunk that it does not know, and
then read the index. -/
def tenBytesIndex : Parser :=
  (runFrom (fun p mem => Parser.next .bits64 mem p) (forwardTurns .bits64) tenBytesFormat
    (zeroTurns 2)).getD tenBytesFormat

theorem open_ends_tenBytes :
    (tenBytesFormat.r.f.pos = 76 ∧ tenBytesIndex.r.f.pos = 134 ∧
      tenBytesIndex.r.odmlFrameIdxs.length = 1) ∧
    (zeroTurns 2).length ≤ tenBytes.length ∧ (zeroTurns 2 ≠ [] → tenBytesIndex ≠ tenBytesFormat) := by
  have hfirst : runFrom (fun p mem => Parser.next .bits64 mem p) (forwardTurns .bits64)
      tenBytesStart (zeroTurns 2) = some tenBytesFormat := by decide +kernel
  have hsecond : runFrom (fun p mem => Parser.next .bits64 mem p) (forwardTurns .bits64)
      tenBytesFormat (zeroTurns 2) = some tenBytesIndex := by decide +kernel
  have h : Run (parsing .bits64 tenBytes) (forwardTurns .bits64) tenBytesStart (zeroTurns 2)
      tenBytesFormat := run_of_runFrom hfirst
  have hrest : Run (parsing .bits64 tenBytes) (forwardTurns .bits64) tenBytesFormat (zeroTurns 2)
      tenBytesIndex := run_of_runFrom hsecond
  exact ⟨by decide +kernel, open_ends h hrest⟩

/-- An audio stream with a format of 20 bytes, and once more with one of six. -/
def shortFormat : Bytes :=
  ascii "strlstrh" ++ le 4 56 ++ ascii "auds" ++ List.replicate 52 0 ++
    (ascii "strf" ++ le 4 20 ++ words [1, 2] ++ dwords [8000, 32000] ++ words [4, 16, 0, 0]) ++
    (ascii "strf" ++ le 4 6 ++ words [1, 2, 8000] ++ List.replicate 14 0)

/-- **The loop comes back** to the second format, again and again: it reads six bytes, and then
seeks by 6 - 20. It does so in any memory, for all that it uses was read. -/
theorem open_returns : ¬ ∀ (w : SizeT) (file : Bytes) (p q : Parser) (is : List Memory),
    Reach (parsing w file) (anyStep _ _) p → Run (parsing w file) (anyStep _ _) p is q →
      is ≠ [] → q ≠ p := by
  intro hall
  have hrun : (runFrom (fun p mem => Parser.next .bits64 mem p) (anyStep _ _)
      (Parser.start .unset shortFormat) [.unset, .unset, .unset]).map
        (fun p => decide (p.next .bits64 .unset = some p)) = some true := by decide +kernel
  obtain ⟨p, hreach, hback⟩ := reach_of_runFrom (fun p mem => Parser.next .bits64 mem p)
    (anyStep _ _) _ _ _ _ (show (parsing .bits64 shortFormat).start _ from ⟨.unset, rfl⟩) hrun
  have hnext : p.next .bits64 .unset = some p := of_decide_eq_true hback
  have hone : Run (parsing .bits64 shortFormat) (anyStep _ _) p ([] ++ [.unset]) p :=
    (Run.nil p).snoc trivial hnext
  exact hall _ _ p p _ hreach hone (by simp) rfl

end

end Maixii.Avi
