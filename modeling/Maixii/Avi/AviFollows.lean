import Maixii.Avi.AviRecording
import Mathlib.Data.List.Forall2

/-!
# `Avi/AviFollows.lean`: two writers side by side

A writer that has been used before may have old standard indexes before its own, a position that
nobody asks for any more, and the number of a video stream that is no longer there. A new one has
none of this. From the same call of `open` on the two go the same way: each `write_data` is answered
alike (`AviWriter.Follows.writeData`), and `close` leaves the same file
(`AviWriter.Follows.closeStreams`).
-/

set_option autoImplicit false

namespace Maixii.Avi

open Maixii.Lib

/-! ## Streams with old indexes before their own -/

/-- An entry of `m_stdIndexEntries` behind `k` old indexes. -/
def shifted (k : Nat) (p : Int × List AVISTDINDEX_ENTRY) : Int × List AVISTDINDEX_ENTRY :=
  (p.1 + k, p.2)

/-- **The streams of two objects**: the used one may have old indexes, all of them empty. -/
structure Alike (dml : Bool) (s s' : AviStream) : Prop where
  streamType : s.streamType = s'.streamType
  avisHeader : s.avisHeader = s'.avisHeader
  posStreamHeader : s.posStreamHeader = s'.posStreamHeader
  super : dml = true → s.posOdmlSuperIdx = s'.posOdmlSuperIdx ∧ s.superIdx = s'.superIdx
  indexes : ∃ stale, s.stdIndexes = stale ++ s'.stdIndexes ∧
    s.stdIndexEntries = s'.stdIndexEntries.map (shifted stale.length)

theorem lookup_shifted (l : List (Int × List AVISTDINDEX_ENTRY)) (k : Nat) (x : Int) :
    (l.map (shifted k)).lookup (x + k) = l.lookup x := by
  induction l with
  | nil => rfl
  | cons p l ih =>
    rw [List.map_cons, List.lookup_cons, List.lookup_cons, ih]
    have hkey : (x + k == (shifted k p).1) = (x == p.1) := by
      show (x + k == p.1 + k) = (x == p.1)
      rw [Bool.eq_iff_iff, beq_iff_eq, beq_iff_eq]
      omega
    rw [hkey]
    rfl

variable {dml : Bool} {s s' : AviStream}

/-- The last index is the same one. -/
theorem lastIndex_shifted {stale : List AVISTDINDEX} (h : s.stdIndexes = stale ++ s'.stdIndexes) :
    s.lastIndex = s'.lastIndex + stale.length := by
  unfold AviStream.lastIndex
  rw [h, List.length_append]
  omega

theorem Alike.indexFull (h : Alike dml s s') : s.indexFull = s'.indexFull := by
  obtain ⟨stale, hidx, hent⟩ := h.indexes
  unfold AviStream.indexFull AviStream.entriesAt
  rw [lastIndex_shifted hidx, hent, lookup_shifted]

theorem Alike.newIndex (h : Alike dml s s') (i : Nat) (chunkId : FourCC) (base : Nat) :
    Alike dml (s.newIndex i chunkId base) (s'.newIndex i chunkId base) where
  streamType := h.streamType
  avisHeader := h.avisHeader
  posStreamHeader := h.posStreamHeader
  super hdml := by
    obtain ⟨hpos, hsuper⟩ := h.super hdml
    refine ⟨hpos, ?_⟩
    show { s.superIdx with nEntriesInUse := s.superIdx.nEntriesInUse + 1 } = _
    rw [hsuper]
    rfl
  indexes := by
    obtain ⟨stale, hidx, hent⟩ := h.indexes
    refine ⟨stale, ?_, hent⟩
    show s.stdIndexes ++ _ = stale ++ (s'.stdIndexes ++ _)
    rw [hidx, List.append_assoc]

theorem Alike.pushEntry (h : Alike dml s s') (e : AVISTDINDEX_ENTRY) :
    Alike dml (s.pushEntry s.lastIndex e) (s'.pushEntry s'.lastIndex e) where
  streamType := h.streamType
  avisHeader := h.avisHeader
  posStreamHeader := h.posStreamHeader
  super := h.super
  indexes := by
    obtain ⟨stale, hidx, hent⟩ := h.indexes
    refine ⟨stale, hidx, ?_⟩
    unfold AviStream.pushEntry
    dsimp only
    rw [lastIndex_shifted hidx, hent, lookup_shifted]
    split
    · rw [List.map_map, List.map_map]
      refine List.map_congr_left ?_
      intro p _
      show (if p.1 + (stale.length : Int) = _ then _ else _) =
        shifted stale.length (if _ then _ else _)
      by_cases hp : p.1 = s'.lastIndex
      · rw [if_pos hp, if_pos (by rw [hp])]
        rfl
      · rw [if_neg hp, if_neg (by omega)]
    · rw [List.map_append]
      rfl

theorem Alike.counted (h : Alike dml s s') : Alike dml s.counted s'.counted := by
  unfold AviStream.counted
  rw [h.streamType]
  split
  · refine ⟨rfl, ?_, h.posStreamHeader, h.super, h.indexes⟩
    show { s.avisHeader with dwLength := s.avisHeader.dwLength + 1 } = _
    rw [h.avisHeader]
  · exact h

/-- Each index that `close` writes is there in both. -/
theorem Alike.indexed (h : Alike dml s s') (hidx : s'.indexed = true) : s.indexed = true := by
  obtain ⟨stale, hstale, hent⟩ := h.indexes
  unfold AviStream.indexed at hidx ⊢
  rw [hent, List.all_map, List.all_eq_true]
  intro p hp
  have hin := List.all_eq_true.mp hidx p hp
  rw [decide_eq_true_eq] at hin
  show decide (0 ≤ p.1 + (stale.length : Int) ∧
    p.1 + (stale.length : Int) < s.stdIndexes.length) = true
  rw [decide_eq_true_eq, hstale, List.length_append]
  omega

/-- The indexes that are written are the same. -/
theorem writeIndexes_shifted {stale own : List AVISTDINDEX}
    (entries : List (Int × List AVISTDINDEX_ENTRY)) (f : OutFile)
    (hidx : ∀ p ∈ entries, 0 ≤ p.1) :
    AviWriter.writeIndexes (stale ++ own) f (entries.map (shifted stale.length)) =
      AviWriter.writeIndexes own f entries := by
  induction entries generalizing f with
  | nil => rfl
  | cons p entries ih =>
    obtain ⟨k, es⟩ := p
    have hk : 0 ≤ k := hidx _ List.mem_cons_self
    have hkey : (k + (stale.length : Int)).toNat = stale.length + k.toNat := by omega
    have hget : (stale ++ own)[(k + (stale.length : Int)).toNat]? = own[k.toNat]? := by
      rw [hkey, List.getElem?_append_right (Nat.le_add_right _ _), Nat.add_sub_cancel_left]
    have htail := fun f => ih f fun q hq => hidx q (List.mem_cons_of_mem _ hq)
    rw [List.map_cons]
    show AviWriter.writeIndexes (stale ++ own) f ((k + (stale.length : Int), es) :: _) = _
    unfold AviWriter.writeIndexes
    simp only [hget, htail]

theorem Alike.closeStream (h : Alike true s s') (hidx : s'.indexed = true) (f : OutFile) :
    AviWriter.closeStream f s = AviWriter.closeStream f s' := by
  obtain ⟨stale, hstale, hent⟩ := h.indexes
  obtain ⟨hpos, hsuper⟩ := h.super rfl
  have hkeys : ∀ p ∈ s'.stdIndexEntries, 0 ≤ p.1 := by
    intro p hp
    have hin := List.all_eq_true.mp hidx p hp
    rw [decide_eq_true_eq] at hin
    exact hin.1
  unfold AviWriter.closeStream
  rw [hstale, hent, writeIndexes_shifted _ f hkeys, hpos, hsuper]

/-! ## Writers that differ in what does not matter -/

namespace AviWriter

/-- The same writer with other streams, and with three members that may be old. -/
def reused (w : AviWriter) (ss : List AviStream) (p : Nat) (v : Option Nat) (r : Nat) : AviWriter :=
  { w with streams := ss, posOdmlExt := p, videoStreamIdx := v, reservedFrames := r }

variable (w : AviWriter) (ss : List AviStream) (p : Nat) (v : Option Nat) (r : Nat)

theorem newSection_reused :
    (w.reused ss p v r).newSection = w.newSection.map fun w => w.reused ss p v r := by
  have hfinished :
      (if (w.reused ss p v r).riffIdx = 0 then
          { (w.reused ss p v r).finishOld with currMaxRIFFSize := 4 * 1000 * 1000 * 1000 }
        else (w.reused ss p v r).finishAvix) =
      reused (if w.riffIdx = 0 then
          { w.finishOld with currMaxRIFFSize := 4 * 1000 * 1000 * 1000 }
        else w.finishAvix) ss p v r := by
    show (if w.riffIdx = 0 then _ else _) = _
    split <;> rfl
  unfold newSection
  dsimp only
  rw [hfinished]
  generalize (if w.riffIdx = 0 then
    { w.finishOld with currMaxRIFFSize := 4 * 1000 * 1000 * 1000 } else w.finishAvix) = x
  show (if 32 ≤ x.message.length then none else some (x.beginSection.reused ss p v r)) = _
  split <;> rfl

end AviWriter

/-- The first `n` streams of two objects. -/
def AllAlike (dml : Bool) (n : Nat) (ss ss' : List AviStream) : Prop :=
  ∀ i, i < n → ∃ s s', ss[i]? = some s ∧ ss'[i]? = some s' ∧ Alike dml s s'

section

variable {n : Nat} {ss ss' : List AviStream}

theorem AllAlike.set (h : AllAlike dml n ss ss') (i : Nat) (hs : Alike dml s s') :
    AllAlike dml n (ss.set i s) (ss'.set i s') := by
  intro j hj
  obtain ⟨t, t', ht, ht', halike⟩ := h j hj
  by_cases hij : i = j
  · subst hij
    refine ⟨s, s', ?_, ?_, hs⟩
    · exact List.getElem?_set_self (List.getElem?_eq_some_iff.mp ht).1
    · exact List.getElem?_set_self (List.getElem?_eq_some_iff.mp ht').1
  · refine ⟨t, t', ?_, ?_, halike⟩
    · rw [List.getElem?_set_ne hij]
      exact ht
    · rw [List.getElem?_set_ne hij]
      exact ht'

theorem AllAlike.length_le (h : AllAlike dml n ss ss') : n ≤ ss.length ∧ n ≤ ss'.length := by
  cases n with
  | zero => exact ⟨Nat.zero_le _, Nat.zero_le _⟩
  | succ n =>
    obtain ⟨s, s', hs, hs', -⟩ := h n (Nat.lt_succ_self n)
    exact ⟨(List.getElem?_eq_some_iff.mp hs).1, (List.getElem?_eq_some_iff.mp hs').1⟩

theorem AllAlike.forall₂ (h : AllAlike dml n ss ss') :
    List.Forall₂ (Alike dml) (ss.take n) (ss'.take n) := by
  obtain ⟨hlen, hlen'⟩ := h.length_le
  refine List.forall₂_iff_get.mpr ⟨?_, ?_⟩
  · rw [List.length_take_of_le hlen, List.length_take_of_le hlen']
  · intro i hi hi'
    rw [List.length_take_of_le hlen] at hi
    obtain ⟨s, s', hs, hs', halike⟩ := h i hi
    obtain ⟨_, rfl⟩ := List.getElem?_eq_some_iff.mp hs
    obtain ⟨_, rfl⟩ := List.getElem?_eq_some_iff.mp hs'
    rw [List.get_eq_getElem, List.get_eq_getElem, List.getElem_take, List.getElem_take]
    exact halike

end

/-- Two folds over lists that go together. -/
theorem foldl_forall₂ {α β γ : Type} {R : α → β → Prop} {g : γ → α → γ} {g' : γ → β → γ}
    {l : List α} {l' : List β} (h : List.Forall₂ R l l')
    (hg : ∀ x a b, a ∈ l → b ∈ l' → R a b → g x a = g' x b) (x : γ) :
    l.foldl g x = l'.foldl g' x := by
  induction h generalizing x with
  | nil => rfl
  | @cons a b l l' hab _ ih =>
    rw [List.foldl_cons, List.foldl_cons, hg x a b List.mem_cons_self List.mem_cons_self hab]
    exact ih (fun x a b ha hb => hg x a b (List.mem_cons_of_mem _ ha) (List.mem_cons_of_mem _ hb)) _

/-! ## Writing -/

/-- What `write_data` makes of a stream. -/
def AviStream.chunked (s : AviStream) (i : Nat) (chunkId : FourCC) (pos currBaseOff len : Nat) :
    AviStream :=
  let base := if s.indexFull then pos else currBaseOff
  let s := if s.indexFull then s.newIndex i chunkId pos else s
  (s.pushEntry s.lastIndex ⟨(pos + 8 - base) % 2 ^ 32, len⟩).counted

theorem Alike.chunked (h : Alike dml s s') (i : Nat) (chunkId : FourCC) (pos currBaseOff len : Nat) :
    Alike dml (s.chunked i chunkId pos currBaseOff len)
      (s'.chunked i chunkId pos currBaseOff len) := by
  unfold AviStream.chunked
  rw [h.indexFull]
  dsimp only
  split
  · exact ((h.newIndex i chunkId pos).pushEntry _).counted
  · exact (h.pushEntry _).counted

namespace AviWriter

/-- No video has been declared, or counted. -/
structure Silent (n : Nat) (w : AviWriter) : Prop where
  total : w.avimHeader.dwTotalFrames = 0
  streams : ∀ i, i < n → ∀ s, w.streams[i]? = some s →
    s.streamType ≠ .video ∧ s.avisHeader.dwLength = 0

/-- **A used writer goes the way of a new one**: it has `ss`, `p` and `v` in the new one's place. -/
structure Follows (n : Nat) (w : AviWriter) (ss : List AviStream) (p : Nat) (v : Option Nat) :
    Prop where
  streams : AllAlike w.openDML n ss w.streams
  odml : w.openDML = true → p = w.posOdmlExt
  video : (v = w.videoStreamIdx ∧ ∀ k, v = some k → k < n) ∨ Silent n w

variable {n : Nat} {w w' : AviWriter} {ss : List AviStream} {p r : Nat} {v : Option Nat}

theorem streams_writeChunk (w : AviWriter) (i : Nat) (s : AviStream) (chunkId : FourCC)
    (data : Bytes) :
    (w.writeChunk i s chunkId data).streams =
      w.streams.set i (s.chunked i chunkId w.f.pos w.currBaseOff data.length) := rfl

/-- What of `write_data` depends on the stream. -/
theorem writeChunk_eq (w : AviWriter) (i : Nat) (s : AviStream) (chunkId : FourCC) (data : Bytes) :
    w.writeChunk i s chunkId data =
      { w.writeChunk i blankStream chunkId data with
        currBaseOff := if s.indexFull then w.f.pos else w.currBaseOff
        streams := w.streams.set i (s.chunked i chunkId w.f.pos w.currBaseOff data.length)
        avimHeader := if s.streamType = .video then
            { w.avimHeader with dwTotalFrames := w.avimHeader.dwTotalFrames + 1 }
          else w.avimHeader } := by
  have htype : ((if s.indexFull then s.newIndex i chunkId w.f.pos else s).pushEntry
      (if s.indexFull then s.newIndex i chunkId w.f.pos else s).lastIndex
      ⟨(w.f.pos + 8 - if s.indexFull then w.f.pos else w.currBaseOff) % 2 ^ 32,
        data.length⟩).streamType = s.streamType := by
    show (if s.indexFull then s.newIndex i chunkId w.f.pos else s).streamType = s.streamType
    split <;> rfl
  rw [← htype]
  rfl

theorem writeChunk_reused (h : Alike dml s s') (i : Nat) (chunkId : FourCC) (data : Bytes) :
    (w.reused ss p v r).writeChunk i s chunkId data =
      (w.writeChunk i s' chunkId data).reused
        (ss.set i (s.chunked i chunkId w.f.pos w.currBaseOff data.length)) p v r := by
  rw [writeChunk_eq _ i s, writeChunk_eq _ i s', h.indexFull, h.streamType]
  rfl

/-- A new section leaves what `Follows` is about. -/
theorem newSection_kept (hw : w.newSection = some w') :
    w'.streams = w.streams ∧ w'.openDML = w.openDML ∧ w'.posOdmlExt = w.posOdmlExt ∧
      w'.videoStreamIdx = w.videoStreamIdx ∧ w'.avimHeader = w.avimHeader ∧
      w'.totalFrames = w.totalFrames := by
  rw [newSection_eq hw]
  unfold beginSection
  exact ⟨rfl, rfl, rfl, rfl, rfl, rfl⟩

theorem Silent.congr (h : Silent n w) (hstreams : w'.streams = w.streams)
    (havim : w'.avimHeader = w.avimHeader) : Silent n w' where
  total := by
    rw [havim]
    exact h.total
  streams := by
    rw [hstreams]
    exact h.streams

theorem Follows.newSection (h : Follows n w ss p v) (hw : w.newSection = some w') :
    Follows n w' ss p v := by
  obtain ⟨hstreams, hdml, hodml, hvideo, havim, -⟩ := newSection_kept hw
  refine ⟨?_, ?_, ?_⟩
  · rw [hstreams, hdml]
    exact h.streams
  · rw [hdml, hodml]
    exact h.odml
  · rw [hvideo]
    exact h.video.imp_right fun hsilent => hsilent.congr hstreams havim

/-- Only video is counted. -/
theorem chunked_silent (h : s.streamType ≠ .video) (i : Nat) (chunkId : FourCC)
    (pos currBaseOff len : Nat) :
    (s.chunked i chunkId pos currBaseOff len).streamType = s.streamType ∧
      (s.chunked i chunkId pos currBaseOff len).avisHeader = s.avisHeader := by
  have hcounted : ∀ t : AviStream, t.streamType = s.streamType → t.avisHeader = s.avisHeader →
      t.counted.streamType = s.streamType ∧ t.counted.avisHeader = s.avisHeader := by
    intro t htype hheader
    unfold AviStream.counted
    rw [htype, if_neg h]
    exact ⟨htype, hheader⟩
  unfold AviStream.chunked
  dsimp only
  split <;> exact hcounted _ rfl rfl

theorem Silent.writeChunk (h : Silent n w) {i : Nat} (hi : i < n) (hs : w.streams[i]? = some s)
    (chunkId : FourCC) (data : Bytes) : Silent n (w.writeChunk i s chunkId data) := by
  obtain ⟨hnot, hlen⟩ := h.streams i hi s hs
  obtain ⟨htype, hheader⟩ := chunked_silent hnot i chunkId w.f.pos w.currBaseOff data.length
  rw [writeChunk_eq]
  refine ⟨?_, ?_⟩
  · show AVIMAINHEADER.dwTotalFrames (if s.streamType = .video then _ else _) = 0
    rw [if_neg hnot]
    exact h.total
  · intro j hj t ht
    have hset : (w.streams.set i (s.chunked i chunkId w.f.pos w.currBaseOff data.length))[j]? =
      some t := ht
    by_cases hij : i = j
    · subst hij
      rw [List.getElem?_set_self (List.getElem?_eq_some_iff.mp hs).1] at hset
      obtain rfl := Option.some.inj hset
      rw [htype, hheader]
      exact ⟨hnot, hlen⟩
    · rw [List.getElem?_set_ne hij] at hset
      exact h.streams j hj t hset

theorem Follows.writeChunk (h : Follows n w ss p v) {i : Nat} (hi : i < n)
    (hs' : w.streams[i]? = some s') (halike : Alike w.openDML s s') (chunkId : FourCC)
    (data : Bytes) :
    ∃ ss₂, (w.reused ss p v r).writeChunk i s chunkId data =
        (w.writeChunk i s' chunkId data).reused ss₂ p v r ∧
      Follows n (w.writeChunk i s' chunkId data) ss₂ p v := by
  refine ⟨_, writeChunk_reused halike i chunkId data, ?_, h.odml, ?_⟩
  · rw [streams_writeChunk]
    exact h.streams.set i (halike.chunked i chunkId _ _ _)
  · exact h.video.imp_right fun hsilent => hsilent.writeChunk hi hs' chunkId data

/-- **One call of `write_data`** that is accepted is accepted, where there is room. -/
theorem Follows.writeData (h : Follows n w ss p v) {i : Nat} (hi : i < n) {data : Bytes}
    (hr : w.totalFrames < r) (hw : w.writeData i data = some (true, w')) :
    ∃ ss₂, (w.reused ss p v r).writeData i data = some (true, w'.reused ss₂ p v r) ∧
      Follows n w' ss₂ p v ∧ w'.totalFrames = w.totalFrames + 1 := by
  obtain ⟨s, s', hs, hs', halike⟩ := h.streams i hi
  have hroom' : ¬ (w.reused ss p v r).reservedFrames ≤ (w.reused ss p v r).totalFrames :=
    Nat.not_le.mpr hr
  unfold AviWriter.writeData at hw ⊢
  by_cases hroom : w.reservedFrames ≤ w.totalFrames
  · rw [if_pos hroom] at hw
    cases (Prod.mk.inj (Option.some.inj hw)).1
  · rw [if_neg hroom, hs', Option.bind_some] at hw
    obtain ⟨w₁, hw₁, hok⟩ := Option.map_eq_some_iff.mp hw
    obtain ⟨-, rfl⟩ := Prod.mk.inj hok
    -- Up to the chunk itself, both begin a new section or neither does.
    have hsection : (if (w.reused ss p v r).sectionFull data.length then (w.reused ss p v r).newSection
        else some (w.reused ss p v r)) = some (w₁.reused ss p v r) ∧ Follows n w₁ ss p v ∧
        w₁.streams = w.streams ∧ w₁.openDML = w.openDML ∧ w₁.totalFrames = w.totalFrames := by
      show (if w.sectionFull data.length then _ else _) = _ ∧ _
      split at hw₁
      · rename_i hfull
        obtain ⟨hstreams, hdml, -, -, -, htotal⟩ := newSection_kept hw₁
        rw [if_pos hfull, newSection_reused, hw₁]
        exact ⟨rfl, h.newSection hw₁, hstreams, hdml, htotal⟩
      · rename_i hfull
        obtain rfl := Option.some.inj hw₁
        rw [if_neg hfull]
        exact ⟨rfl, h, rfl, rfl, rfl⟩
    obtain ⟨heq, hfollows, hstreams, hdml, htotal⟩ := hsection
    rw [← hdml] at halike
    rw [← hstreams] at hs'
    obtain ⟨ss₂, hchunk, hfollows₂⟩ := hfollows.writeChunk hi hs' halike
      (dataFcc s'.streamType i) data
    refine ⟨ss₂, ?_, hfollows₂, congrArg Nat.succ htotal⟩
    rw [if_neg hroom']
    show (ss[i]?.bind _) = _
    rw [hs, Option.bind_some, heq, halike.streamType]
    exact congrArg (fun w => some (true, w)) hchunk

/-! ## Closing -/

/-- Where there is no video, no length is filled in. -/
theorem closedHeader_silent (htotal : w.avimHeader.dwTotalFrames = 0)
    (hlen : s.avisHeader.dwLength = 0) : w.closedHeader s = s.avisHeader := by
  unfold AviWriter.closedHeader
  split
  · rfl
  · dsimp only
    split
    · rw [htotal, Nat.zero_mul, Nat.zero_mod, Nat.zero_div, Nat.mul_zero, Nat.zero_mod, Nat.zero_div,
        Nat.zero_div, ← hlen]
    · rfl

/-- The stream headers are the same. -/
theorem Follows.closedHeader (h : Follows n w ss p v) {i : Nat} (hi : i < n)
    (hs' : w.streams[i]? = some s') (halike : Alike w.openDML s s') :
    (w.reused ss p v r).closedHeader s = w.closedHeader s' := by
  rcases h.video with ⟨rfl, hlt⟩ | hsilent
  · -- The same video stream is looked up, and has the same header.
    have hlook : (w.videoStreamIdx.bind fun k => ss[k]?).map AviStream.avisHeader =
        (w.videoStreamIdx.bind fun k => w.streams[k]?).map AviStream.avisHeader := by
      cases hv : w.videoStreamIdx with
      | none => rfl
      | some k =>
        obtain ⟨t, t', ht, ht', hsame⟩ := h.streams k (hlt k hv)
        rw [Option.bind_some, Option.bind_some, ht, ht', Option.map_some, Option.map_some,
          hsame.avisHeader]
    unfold AviWriter.closedHeader
    have hfind : ((w.reused ss p w.videoStreamIdx r).videoStreamIdx.bind fun k =>
        (w.reused ss p w.videoStreamIdx r).streams[k]?) =
        w.videoStreamIdx.bind fun k => ss[k]? := rfl
    rw [hfind]
    cases ht : w.videoStreamIdx.bind fun k => ss[k]? with
    | none =>
      rw [ht, Option.map_none] at hlook
      rw [Option.map_eq_none_iff.mp hlook.symm]
      exact halike.avisHeader
    | some t =>
      rw [ht, Option.map_some] at hlook
      obtain ⟨t', ht', hheader⟩ := Option.map_eq_some_iff.mp hlook.symm
      rw [ht']
      dsimp only
      rw [← hheader, halike.streamType, halike.avisHeader]
      rfl
  · obtain ⟨-, hlen⟩ := hsilent.streams i hi s' hs'
    rw [closedHeader_silent hsilent.total hlen, ← halike.avisHeader]
    rw [← halike.avisHeader] at hlen
    exact closedHeader_silent hsilent.total hlen

/-- **The file** that `close` leaves is the same. -/
theorem Follows.closeStreams (h : Follows n w ss p v)
    (hidx : w.openDML = true → (w.streams.take n).all AviStream.indexed = true) :
    ((w.reused ss p v r).closeStreams (ss.take n)).f = (w.closeStreams (w.streams.take n)).f := by
  have hindexes : (if w.openDML then
        (ss.take n).foldl closeStream ((((w.f.seek w.posAviMainHeader).write
          w.avimHeader.toBytes).seek p).write (odmlExtendedAVIHeader w.totalFrames))
      else (w.f.seek w.posAviMainHeader).write w.avimHeader.toBytes) =
      (if w.openDML then
        (w.streams.take n).foldl closeStream ((((w.f.seek w.posAviMainHeader).write
          w.avimHeader.toBytes).seek w.posOdmlExt).write (odmlExtendedAVIHeader w.totalFrames))
      else (w.f.seek w.posAviMainHeader).write w.avimHeader.toBytes) := by
    split
    · rename_i hdml
      have hall := List.all_eq_true.mp (hidx hdml)
      have halike := h.streams.forall₂
      rw [hdml] at halike
      rw [h.odml hdml]
      exact foldl_forall₂ halike (fun f s s' _ hs' hss => hss.closeStream (hall s' hs') f) _
    · rfl
  have hheaders : ∀ f : OutFile,
      (ss.take n).foldl (fun f s =>
        (f.seek s.posStreamHeader).write ((w.reused ss p v r).closedHeader s).toBytes) f =
      (w.streams.take n).foldl (fun f s =>
        (f.seek s.posStreamHeader).write (w.closedHeader s).toBytes) f := by
    intro f
    refine foldl_forall₂ h.streams.forall₂ ?_ f
    intro f s s' _ hs' halike
    obtain ⟨i, hi⟩ := List.mem_iff_getElem?.mp hs'
    rw [List.getElem?_take] at hi
    split at hi
    · rename_i hlt
      rw [halike.posStreamHeader, h.closedHeader hlt hi halike]
    · cases hi
  have hfile : (w.reused ss p v r).f = w.f := rfl
  have hpos : (w.reused ss p v r).posAviMainHeader = w.posAviMainHeader := rfl
  have havim : (w.reused ss p v r).avimHeader = w.avimHeader := rfl
  have hdml : (w.reused ss p v r).openDML = w.openDML := rfl
  have hodml : (w.reused ss p v r).posOdmlExt = p := rfl
  have htotal : (w.reused ss p v r).totalFrames = w.totalFrames := rfl
  unfold AviWriter.closeStreams
  dsimp only
  rw [hfile, hpos, havim, hdml, hodml, htotal, hindexes, hheaders]
  show AviWriter.f (if w.riffIdx = 0 then _ else _) = _
  split <;> rfl

end AviWriter

end Maixii.Avi
