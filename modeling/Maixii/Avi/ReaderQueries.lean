import Maixii.Avi.ReaderBounds

/-!
# `Avi/ReaderQueries.lean`: what a reader that has been asked before answers

The queries of a reader share what they leave behind: a stream that is asked for is a stream from
then on; once a frame has been found behind the offset of `movi`, no frame is looked for at its own
offset; and in that mode the file is not cleared, so after a read past its end it stays failed.
**As long as no call is made that one of these is of consequence for, every call is answered as if
it were the first** (`queries_independent`). It is not so in general (`streams_are_counted`).
-/

set_option autoImplicit false

namespace Maixii.Avi

open Maixii.Lib

namespace AviReader

/-! ## Calls -/

inductive Call
  | readFrame (idx stream : Nat)
  | getFrameCount (stream : Nat)
  | getStreamCount
  | getAllocSize (stream : Nat)
  deriving DecidableEq

/-- What a call answers, the bytes of a frame with it, and the reader after it. -/
def call (r : AviReader) : Call → Option ((Int × Bytes) × AviReader)
  | .readFrame idx stream => (r.readFrame idx stream).map fun x => ((x.1, x.2.1), x.2.2)
  | .getFrameCount stream =>
      some ((((r.getFrameCount stream).1 : Nat), []), (r.getFrameCount stream).2)
  | .getStreamCount => some (((r.getStreamCount : Nat), []), r)
  | .getAllocSize stream => (r.getAllocSize stream).map fun x => (((x.1 : Nat), []), x.2)

/-- A reader that has been opened, and is asked. -/
def answering (r : AviReader) : System AviReader Call :=
  System.ofStep (fun s => s = r) fun s c => (s.call c).map Prod.snd

/-! ## Frames -/

variable {r : AviReader}

/-- The stream is known. -/
def Known (r : AviReader) (stream : Nat) : Prop :=
  (r.frameIdxs.lookup (int32 stream)).isSome = true

theorem touch_of_known {stream : Nat} (h : r.Known stream) :
    r.frameIdxs.touch (int32 stream) = r.frameIdxs := if_pos h

theorem readFrame_of_known {idx stream : Nat} (h : r.Known stream) : r.readFrame idx stream =
    match (r.frameIdxs.at (int32 stream))[idx]? with
    | none => some (0, [], r)
    | some e => if e.size = 0 then some (1, [], r) else r.fetch e := by
  have hsame : { r with frameIdxs := r.frameIdxs.touch (int32 stream) } = r := by
    rw [touch_of_known h]
  exact congrArg (fun s : AviReader => match (s.frameIdxs.at (int32 stream))[idx]? with
    | none => some (0, [], s)
    | some e => if e.size = 0 then some (1, [], s) else s.fetch e) hsame

/-- The offset of a frame, from where `movi` is. -/
def movieOffset (r : AviReader) (e : DmlIndex) : Int :=
  int64 ((e.offset + (r.moviOffs.headD 0 : Nat)) % 2 ^ 64).toNat

/-- **The frame is looked for as if no other had been.** Either the reader is not in the mode of
`movi`, and the file has four bytes to compare; or it is, but the file has not failed, and at its
own offset the frame would not have been found either. -/
structure Findable (r : AviReader) (e : DmlIndex) : Prop where
  own : r.useMovieOffset = false →
    0 ≤ e.offset ∧ e.offset.toNat + 4 ≤ r.f.bytes.length
  movie : r.useMovieOffset = true → r.f.fail = false ∧
    0 ≤ e.offset ∧ e.offset.toNat + 8 ≤ r.f.bytes.length ∧
    readAt r.f.bytes e.offset.toNat 4 ≠ e.dwChunkId ∧
    0 ≤ r.movieOffset e ∧ (r.movieOffset e).toNat + 4 ≤ r.f.bytes.length

/-- The reader before the first call: what no call changes. -/
def unasked (r : AviReader) : AviReader :=
  { r with f := InFile.opened r.f.bytes, useMovieOffset := false }

/-! ## The search -/

theorem movieOffset_of_head {M : Nat} {e : DmlIndex} (h : r.moviOffs[0]? = some M) :
    r.movieOffset e = int64 ((e.offset + M) % 2 ^ 64).toNat := by
  have hM : r.moviOffs.headD 0 = M := by
    cases hl : r.moviOffs with
    | nil =>
      rw [hl] at h
      cases h
    | cons N Ns =>
      rw [hl] at h
      exact Option.some.inj h
  rw [movieOffset, hM]

/-- A file that has not failed is sought to a position that is not before its start. -/
theorem seekTo_of_le {f : InFile} {p : Int} (hfail : f.fail = false) (hp : 0 ≤ p) :
    f.seekTo p = ⟨f.bytes, p.toNat, false, false⟩ := by
  unfold InFile.seekTo
  rw [if_neg (by rw [hfail]; simp only [Bool.false_eq_true, false_or]; omega), hfail]

/-- Four bytes of the tag, if the file has them. -/
theorem load_tag {f : InFile} {m : Cells} (hgood : f.good = true)
    (hfile : f.pos + 4 ≤ f.bytes.length) (hm : m.length = 8) :
    ∃ tag, readInto f m 0 8 = some ((f.read 8).2, tag) ∧ tag.length = 8 ∧
      tag.load 0 4 = some (readAt f.bytes f.pos 4) := by
  obtain ⟨f', tag, hread, hlen, hload⟩ := readInto_load 4 hgood hfile (by decide : 4 ≤ 8)
    (by rw [hm] : 0 + 8 ≤ m.length)
  obtain rfl := Parser.readInto_file hread
  exact ⟨tag, hread, hlen.trans hm, hload 0 4 (Nat.le_refl 4)⟩

/-- **The first search** has its four bytes. -/
theorem tryOwn_some {e : DmlIndex} (huse : r.useMovieOffset = false) (hoff : 0 ≤ e.offset)
    (hfile : e.offset.toNat + 4 ≤ r.f.bytes.length) :
    ∃ tag, r.tryOwn e = some (((⟨r.f.bytes, e.offset.toNat, false, false⟩ : InFile).read 8).2, tag,
        decide (readAt r.f.bytes e.offset.toNat 4 = e.dwChunkId)) ∧
      tag.length = 8 ∧ tag.load 0 4 = some (readAt r.f.bytes e.offset.toNat 4) := by
  obtain ⟨tag, hread, hlen, hload⟩ :=
    load_tag (f := ⟨r.f.bytes, e.offset.toNat, false, false⟩) rfl hfile (Cells.length_unset 8)
  have hseek : r.f.clear.seekTo e.offset = ⟨r.f.bytes, e.offset.toNat, false, false⟩ :=
    seekTo_of_le rfl hoff
  refine ⟨tag, ?_, hlen, hload⟩
  unfold tryOwn
  rw [huse, if_neg Bool.false_ne_true, hseek, Option.bind_eq_bind, hread, Option.bind_some]
  dsimp only
  rw [Option.bind_eq_bind, hload]
  rfl

/-- **The second search** is defined where the first has left a tag. -/
theorem tryMovie_isSome {e : DmlIndex} {f : InFile} {tag : Cells} (hmovi : r.moviOffs ≠ [])
    (hlen : tag.length = 8) (hload : (tag.load 0 4).isSome = true) :
    (r.tryMovie e f tag).isSome = true := by
  cases hM : r.moviOffs with
  | nil => exact absurd hM hmovi
  | cons M Ms =>
    unfold tryMovie
    rw [hM]
    obtain ⟨f', tag', hread, -⟩ := readInto_some
      (f := f.seekTo (int64 ((e.offset + M) % 2 ^ 64).toNat)) (by rw [hlen] : 0 + 8 ≤ tag.length)
    obtain ⟨id, hid⟩ := Option.isSome_iff_exists.mp (readInto_keeps hread hload)
    simp only [List.getElem?_cons_zero, Option.bind_eq_bind, Option.bind_some, hread, hid]
    rfl

/-- Where the file has four bytes at the offset of `movi`, the second search sees nothing of the
first. -/
theorem tryMovie_congr {e : DmlIndex} {f g : InFile} {tag tag' : Cells}
    (hbytes : f.bytes = r.f.bytes) (hbytes' : g.bytes = r.f.bytes) (hf : f.fail = false)
    (hg : g.fail = false) (hlen : tag.length = 8) (hlen' : tag'.length = 8)
    (hoff : 0 ≤ r.movieOffset e) (hfile : (r.movieOffset e).toNat + 4 ≤ r.f.bytes.length) :
    r.tryMovie e f tag = r.tryMovie e g tag' := by
  unfold tryMovie
  cases hM : r.moviOffs[0]? with
  | none => rfl
  | some M =>
    rw [movieOffset_of_head hM] at hoff hfile
    have hat : ∀ {m : Cells}, m.length = 8 → _ := fun hm =>
      load_tag (f := ⟨r.f.bytes, (int64 ((e.offset + M) % 2 ^ 64).toNat).toNat, false, false⟩)
        rfl hfile hm
    obtain ⟨m, hread, -, hload⟩ := hat hlen
    obtain ⟨m', hread', -, hload'⟩ := hat hlen'
    simp only [Option.bind_eq_bind, Option.bind_some, seekTo_of_le hf hoff, seekTo_of_le hg hoff,
      hbytes, hbytes', hread, hread', hload, hload']

theorem find_own {e : DmlIndex} (huse : r.useMovieOffset = false) (hoff : 0 ≤ e.offset)
    (hfile : e.offset.toNat + 4 ≤ r.f.bytes.length) (hmovi : r.moviOffs ≠ []) :
    (r.find e).isSome = true := by
  obtain ⟨tag, htry, hlen, hload⟩ := tryOwn_some huse hoff hfile
  unfold find
  rw [Option.bind_eq_bind, htry, Option.bind_some]
  dsimp only
  split
  · rfl
  · exact tryMovie_isSome hmovi hlen (by rw [hload]; rfl)

/-- **A frame that is findable is found as it is by a reader that was never asked.** -/
theorem find_unasked {e : DmlIndex} (hmovi : r.moviOffs ≠ []) (h : r.Findable e) :
    r.find e = r.unasked.find e ∧ (r.find e).isSome = true := by
  cases huse : r.useMovieOffset with
  | false =>
    obtain ⟨hoff, hfile⟩ := h.own huse
    refine ⟨?_, find_own huse hoff hfile hmovi⟩
    have hseek : r.f.clear.seekTo e.offset = r.unasked.f.clear.seekTo e.offset := by
      rw [seekTo_of_le rfl hoff, seekTo_of_le rfl hoff]
      rfl
    have hown : r.tryOwn e = r.unasked.tryOwn e := by
      unfold tryOwn
      rw [huse, hseek]
      rfl
    unfold find
    rw [hown, huse]
    rfl
  | true =>
    obtain ⟨hfail, hoff, hfile, hother, hmoff, hmfile⟩ := h.movie huse
    have hshort : e.offset.toNat + 4 ≤ r.unasked.f.bytes.length := by
      show _ ≤ r.f.bytes.length
      omega
    obtain ⟨tag, htry, hlen, hload⟩ := tryOwn_some (r := r.unasked) rfl hoff hshort
    -- the first search, had it been made, would have left a good file and eight bytes
    have hgood : ((⟨r.f.bytes, e.offset.toNat, false, false⟩ : InFile).read 8).2.good = true :=
      InFile.good_read_of_le rfl hfile
    have hfirst : r.find e = r.tryMovie e r.f (Cells.unset 8) := by
      unfold find tryOwn
      rw [huse]
      rfl
    have hsecond : r.unasked.find e = r.tryMovie e
        ((⟨r.f.bytes, e.offset.toNat, false, false⟩ : InFile).read 8).2 tag := by
      unfold find
      rw [Option.bind_eq_bind, htry, Option.bind_some]
      have hnot : readAt r.unasked.f.bytes e.offset.toNat 4 ≠ e.dwChunkId := hother
      rw [decide_eq_false hnot]
      rfl
    rw [hfirst, hsecond]
    have hsame : r.tryMovie e r.f (Cells.unset 8) = r.tryMovie e
        ((⟨r.f.bytes, e.offset.toNat, false, false⟩ : InFile).read 8).2 tag :=
      tryMovie_congr rfl (InFile.bytes_read ⟨r.f.bytes, e.offset.toNat, false, false⟩ 8) hfail
        (InFile.good_iff.mp hgood).2 (Cells.length_unset 8) hlen hmoff hmfile
    refine ⟨hsame, ?_⟩
    rw [hsame]
    exact tryMovie_isSome hmovi hlen (by rw [hload]; rfl)

/-- The file stays the same. -/
theorem bytes_find {e : DmlIndex} {f : InFile} {use : Bool} (h : r.find e = some (f, use)) :
    f.bytes = r.f.bytes := by
  have movie : ∀ {g : InFile} {tag : Cells}, g.bytes = r.f.bytes →
      r.tryMovie e g tag = some (f, use) → f.bytes = r.f.bytes := by
    intro g tag hg h
    unfold tryMovie at h
    simp only [Option.bind_eq_bind, Option.bind_eq_some_iff, Option.pure_def, Option.some.injEq]
      at h
    obtain ⟨M, -, ⟨f', tag'⟩, hread, id, -, h⟩ := h
    have hf' : f'.bytes = r.f.bytes := by
      rw [Parser.readInto_file hread, InFile.bytes_read, InFile.bytes_seekTo, hg]
    dsimp only at h
    split at h
    · rw [← (Prod.mk.inj h).1, hf']
    · rw [← (Prod.mk.inj h).1, InFile.bytes_seekTo, hf']
  have own : ∀ {g : InFile} {tag : Cells} {found : Bool},
      r.tryOwn e = some (g, tag, found) → g.bytes = r.f.bytes := by
    intro g tag found h
    unfold tryOwn at h
    split at h
    · rw [← (Prod.mk.inj (Option.some.inj h)).1]
    · simp only [Option.bind_eq_bind, Option.bind_eq_some_iff, Option.pure_def, Option.some.injEq]
        at h
      obtain ⟨⟨f', tag'⟩, hread, id, -, h⟩ := h
      rw [← (Prod.mk.inj h).1, Parser.readInto_file hread, InFile.bytes_read,
        InFile.bytes_seekTo]
      rfl
  unfold find at h
  rw [Option.bind_eq_bind, Option.bind_eq_some_iff] at h
  obtain ⟨⟨g, tag, found⟩, htry, h⟩ := h
  dsimp only at h
  split at h
  · rw [← (Prod.mk.inj (Option.some.inj h)).1, own htry]
  · exact movie (own htry) h

theorem fetch_eq (r : AviReader) (e : DmlIndex) : r.fetch e = (r.find e).map fun x =>
    (int32 (x.1.read e.size).1.length, (x.1.read e.size).1,
      { r with f := (x.1.read e.size).2, useMovieOffset := x.2 }) := by
  unfold fetch
  cases r.find e <;> rfl

/-- The size that is suggested for a stream. -/
def suggested (r : AviReader) (stream : Nat) : Option Nat :=
  if stream = r.videoStreamIdx then r.bitmapInfo.field 20 4
  else r.avisHeader[stream]?.bind fun h => h.field 44 4

theorem getAllocSize_of_known {stream : Nat} (h : r.Known stream) : r.getAllocSize stream =
    (r.suggested stream).map fun n =>
      (max ((r.frameIdxs.at (int32 stream)).foldl (fun n e => max n e.size) 0) n, r) := by
  unfold getAllocSize suggested
  rw [touch_of_known h]
  dsimp only
  split
  · cases r.bitmapInfo.field 20 4 <;> rfl
  · cases r.avisHeader[stream]? with
    | none => rfl
    | some x => cases hx : x.field 44 4 <;> simp [hx]

/-! ## What no call changes -/

/-- **A call of no consequence**: its stream is known, the frame is findable, and the size that is
asked for was in the file. -/
def Steady (r : AviReader) : Call → Prop
  | .readFrame idx stream => r.Known stream ∧
      ∀ e, (r.frameIdxs.at (int32 stream))[idx]? = some e → e.size ≠ 0 → r.Findable e
  | .getFrameCount stream => r.Known stream
  | .getStreamCount => True
  | .getAllocSize stream => r.Known stream ∧
      (stream = r.videoStreamIdx → (r.bitmapInfo.load 20 4).isSome = true) ∧
      (stream ≠ r.videoStreamIdx →
        ∃ h, r.avisHeader[stream]? = some h ∧ (h.load 44 4).isSome = true)

/-- **A steady call is answered as it is by a reader that was never asked**, and leaves a reader
that differs in nothing else. -/
theorem call_unasked {c : Call} (hmovi : r.moviOffs ≠ []) (h : r.Steady c) :
    ∃ a r', r.call c = some (a, r') ∧ (r.unasked.call c).map Prod.fst = some a ∧
      r'.unasked = r.unasked := by
  cases c with
  | readFrame idx stream =>
    obtain ⟨hknown, hfind⟩ := h
    have hknown' : r.unasked.Known stream := hknown
    unfold call
    dsimp only
    rw [readFrame_of_known hknown, readFrame_of_known hknown']
    have hframes : (r.unasked.frameIdxs.at (int32 stream))[idx]? =
        (r.frameIdxs.at (int32 stream))[idx]? := rfl
    rw [hframes]
    cases he : (r.frameIdxs.at (int32 stream))[idx]? with
    | none => exact ⟨_, _, rfl, rfl, rfl⟩
    | some e =>
      dsimp only
      by_cases hempty : e.size = 0
      · rw [if_pos hempty, if_pos hempty]
        exact ⟨_, _, rfl, rfl, rfl⟩
      · rw [if_neg hempty, if_neg hempty]
        obtain ⟨hsame, hsome⟩ := find_unasked hmovi (hfind e he hempty)
        obtain ⟨⟨f, use⟩, hx⟩ := Option.isSome_iff_exists.mp hsome
        rw [fetch_eq, fetch_eq, ← hsame, hx]
        refine ⟨_, _, rfl, rfl, ?_⟩
        have hbytes := bytes_find hx
        simp only [unasked, InFile.bytes_read, hbytes]
  | getFrameCount stream =>
    have hknown : r.Known stream := h
    have hcount : ∀ s : AviReader, s.Known stream → s.getFrameCount stream =
        ((s.frameIdxs.at (int32 stream)).length % 2 ^ 32, s) := by
      intro s hs
      unfold getFrameCount
      rw [touch_of_known hs]
    unfold call
    dsimp only
    rw [hcount r hknown, hcount r.unasked hknown]
    exact ⟨_, _, rfl, rfl, rfl⟩
  | getStreamCount => exact ⟨_, _, rfl, rfl, rfl⟩
  | getAllocSize stream =>
    obtain ⟨hknown, hvideo, hother⟩ := h
    have hknown' : r.unasked.Known stream := hknown
    have hsome := getAllocSize_isSome hvideo hother
    unfold call
    dsimp only
    rw [getAllocSize_of_known hknown] at hsome ⊢
    rw [getAllocSize_of_known hknown']
    obtain ⟨x, hx⟩ := Option.isSome_iff_exists.mp hsome
    obtain ⟨n, hn, rfl⟩ := Option.map_eq_some_iff.mp hx
    have hn' : r.unasked.suggested stream = some n := hn
    rw [hn, hn']
    exact ⟨_, _, rfl, rfl, rfl⟩

end AviReader

open AviReader

section

variable {w : SizeT} {file : Bytes} {r r₁ r₂ : AviReader} {cs cs₁ cs₂ : List Call} {c : Call}

/-- `open` accepts no file without a `movi`. -/
theorem moviOffs_of_accepted (h : Accepted w file r) : r.moviOffs ≠ [] := by
  obtain ⟨p, mem, p', -, -, hfinish⟩ := h
  unfold Parser.finish at hfinish
  dsimp only at hfinish
  obtain ⟨rfl, hmovi⟩ := Prod.mk.inj hfinish
  exact of_decide_eq_true hmovi

theorem moviOffs_of_unasked (h : r₁.unasked = r.unasked) : r₁.moviOffs = r.moviOffs := by
  have hoffs : r₁.unasked.moviOffs = r.unasked.moviOffs := by rw [h]
  exact hoffs

/-- A run of steady calls leaves what a reader has of its file. -/
theorem unasked_of_run (hmovi : r.moviOffs ≠ []) (h : Run (answering r) Steady r cs r₁) :
    r₁.unasked = r.unasked := by
  refine h.inv (P := fun s => s.unasked = r.unasked) rfl ?_
  intro s c s' hs hc hstep
  have hmovi' : s.moviOffs ≠ [] := by
    rw [moviOffs_of_unasked hs]
    exact hmovi
  obtain ⟨a, s'', hcall, -, hkept⟩ := call_unasked hmovi' hc
  have heq : (s.call c).map Prod.snd = some s' := hstep
  rw [hcall] at heq
  rw [← Option.some.inj heq, hkept, hs]

/-- **What a reader answers does not depend on what it was asked before**, as long as it is only
asked by steady calls. Two runs from the same opened file are compared by one more call at their
ends, so neither the number nor the order of the questions matters. A call that is not steady adds a
stream to a map or leaves the file somewhere else, and later answers tell. -/
theorem queries_independent (hacc : Accepted w file r)
    (h₁ : Run (answering r) Steady r cs₁ r₁) (h₂ : Run (answering r) Steady r cs₂ r₂)
    (hc₁ : r₁.Steady c) (hc₂ : r₂.Steady c) :
    ∃ a, (r₁.call c).map Prod.fst = some a ∧ (r₂.call c).map Prod.fst = some a := by
  have hmovi := moviOffs_of_accepted hacc
  have hsame : ∀ {s : AviReader} {cs : List Call}, Run (answering r) Steady r cs s →
      s.Steady c → ∃ a, (s.call c).map Prod.fst = some a ∧
        (r.unasked.call c).map Prod.fst = some a := by
    intro s cs h hc
    have hkept := unasked_of_run hmovi h
    have hmovi' : s.moviOffs ≠ [] := by
      rw [moviOffs_of_unasked hkept]
      exact hmovi
    obtain ⟨a, s', hcall, hfirst, -⟩ := call_unasked hmovi' hc
    rw [hkept] at hfirst
    exact ⟨a, by rw [hcall]; rfl, hfirst⟩
  obtain ⟨a, ha, hfirst⟩ := hsame h₁ hc₁
  obtain ⟨b, hb, hfirst'⟩ := hsame h₂ hc₂
  have hab : a = b := Option.some.inj (hfirst.symm.trans hfirst')
  exact ⟨a, ha, hab ▸ hb⟩

/-- One frame, with an offset from where `movi` is. -/
def relativeFrame : Bytes :=
  ascii "LIST" ++ le 4 16 ++ ascii "movi" ++ ascii "00dc" ++ le 4 4 ++ [1, 2, 3, 4] ++
    ascii "idx1" ++ le 4 16 ++ ascii "00dc" ++ dwords [16, 4, 4]

/-- The loop of `open` at its end. -/
def relativeEnd : Parser :=
  (runFrom (fun p mem => Parser.next .bits64 mem p) (anyStep _ _)
    (Parser.start (.zeros 0) relativeFrame) (zeroTurns 3)).getD
      (Parser.start (.zeros 0) relativeFrame)

/-- The reader. -/
def relativeReader : AviReader := (relativeEnd.withFile (relativeEnd.r.f.read 4).2).finish.1

theorem accepted_relativeReader : Accepted .bits64 relativeFrame relativeReader := by
  have hrun : runFrom (fun p mem => Parser.next .bits64 mem p) (anyStep _ _)
      (Parser.start (.zeros 0) relativeFrame) (zeroTurns 3) = some relativeEnd := by decide +kernel
  refine ⟨relativeEnd, .zeros 0, relativeEnd.withFile (relativeEnd.r.f.read 4).2,
    ⟨_, _, ⟨_, rfl⟩, run_of_runFrom hrun⟩, ?_, ?_⟩
  · decide +kernel
  · decide +kernel

/-- The reader that has found the frame in its second search. -/
def relativeAsked : AviReader :=
  ((relativeReader.call (.readFrame 0 0)).map Prod.snd).getD relativeReader

theorem queries_independent_relativeFrame : ∃ a,
    (relativeAsked.call (.readFrame 0 0)).map Prod.fst = some a ∧
      (relativeReader.call (.readFrame 0 0)).map Prod.fst = some a := by
  have hframe : (relativeReader.frameIdxs.at (int32 0))[0]? =
      some ⟨ascii "00dc", 16, 4, 4⟩ := by decide +kernel
  have hframe' : (relativeAsked.frameIdxs.at (int32 0))[0]? =
      some ⟨ascii "00dc", 16, 4, 4⟩ := by decide +kernel
  have hfirst : relativeReader.Steady (.readFrame 0 0) := by
    refine ⟨?_, fun e he _ => ⟨fun _ => ?_, fun huse => ?_⟩⟩
    · unfold Known
      decide +kernel
    · rw [← Option.some.inj (hframe.symm.trans he)]
      decide +kernel
    · exact absurd huse (by decide +kernel)
  have hsecond : relativeAsked.Steady (.readFrame 0 0) := by
    refine ⟨?_, fun e he _ => ⟨fun huse => ?_, fun _ => ?_⟩⟩
    · unfold Known
      decide +kernel
    · exact absurd huse (by decide +kernel)
    · rw [← Option.some.inj (hframe'.symm.trans he)]
      decide +kernel
  have hcall : (relativeReader.call (.readFrame 0 0)).map Prod.snd = some relativeAsked := by
    decide +kernel
  have hrun : Run (answering relativeReader) Steady relativeReader ([] ++ [.readFrame 0 0])
      relativeAsked := (Run.nil _).snoc hfirst hcall
  exact queries_independent accepted_relativeReader hrun (Run.nil _) hsecond hfirst

/-- **After a call that asks for a stream the file has not, there is one more.** -/
theorem streams_are_counted : ¬ ∀ (w : SizeT) (file : Bytes) (r r₁ r₂ : AviReader)
    (cs₁ cs₂ : List Call) (c : Call), Accepted w file r →
      Run (answering r) (anyStep _ _) r cs₁ r₁ → Run (answering r) (anyStep _ _) r cs₂ r₂ →
        (r₁.call c).map Prod.fst = (r₂.call c).map Prod.fst := by
  intro hall
  have hrun : Run (answering relativeReader) (anyStep _ _) relativeReader ([] ++ [.getFrameCount 7])
      (relativeReader.getFrameCount 7).2 := (Run.nil _).snoc trivial rfl
  have hsame := hall .bits64 relativeFrame relativeReader _ _ _ _ .getStreamCount
    accepted_relativeReader hrun (Run.nil _)
  have hone : (relativeReader.call .getStreamCount).map Prod.fst = some (1, []) := by
    decide +kernel
  have htwo : ((relativeReader.getFrameCount 7).2.call .getStreamCount).map Prod.fst =
      some (2, []) := by decide +kernel
  rw [hone, htwo] at hsame
  exact absurd hsame (by decide)

end

end Maixii.Avi
