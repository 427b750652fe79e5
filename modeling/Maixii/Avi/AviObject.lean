import Maixii.Avi.AviWriter
import Mathlib.Data.Finset.Card
import Mathlib.Data.Finset.Lattice.Basic

/-!
# `Avi/AviObject.lean`: the writer as an object

`Avi/AviWriter.lean` has the streams in one list. The source keeps them in maps, and a map that is
read with a number it does not have makes up an entry of zeros. Here every call may come with any
stream number: the list is filled up with such entries, and the keys of `m_streamTypes`, which
`open` and `close` count, stand beside it. An object can be used for one file after the other; what
`close` leaves is what the next configuration begins with.

The calls before `open` may declare the streams in any order and as often as they like. What they
leave is `AviObject.Configured`, and where `open` then returns `true` the object has all streams up
to the last and does what its writer does, as long as only these are written to
(`AviObject.open_eq`, `AviObject.writeData_eq`, `AviObject.close_eq`).
-/

set_option autoImplicit false

namespace Maixii.Avi

open Maixii.Lib

/-- What is written from memory; `len` is an `uint32_t`. -/
abbrev Buffer : Type := { data : Bytes // data.length < 2 ^ 32 }

namespace AviWriter

variable (w : AviWriter)

/-- `reset`. -/
def reset : AviWriter :=
  { w with
    avimHeader := new.avimHeader
    bitmapInfo := new.bitmapInfo
    waveFormat := new.waveFormat }

/-- `close` for the streams it counts, which need not be all. -/
def closeStreams (ss : List AviStream) : AviWriter :=
  let f := (w.f.seek w.posAviMainHeader).write w.avimHeader.toBytes
  let f :=
    if w.openDML then
      ss.foldl closeStream ((f.seek w.posOdmlExt).write (odmlExtendedAVIHeader w.totalFrames))
    else f
  let f := ss.foldl (fun f s => (f.seek s.posStreamHeader).write (w.closedHeader s).toBytes) f
  let w : AviWriter := { w with f := f }
  if w.riffIdx = 0 then w.finishOld
  else
    let f := w.f.seekEnd
    let riffAvixMoviSize := f.pos - w.posMoviListSize - 4
    let f := ((f.seek w.posMoviListSize).write (le 4 riffAvixMoviSize)).seekEnd
    let riffAvixSize := f.pos - w.posRIFFSize - 4
    { w with f := (f.seek w.posRIFFSize).write (le 4 riffAvixSize) }

theorem closeStreams_streams : w.closeStreams w.streams = w.close := rfl

end AviWriter

/-- Whether each standard index that `close` writes is there. -/
def AviStream.indexed (s : AviStream) : Bool :=
  s.stdIndexEntries.all fun p => decide (0 ≤ p.1 ∧ p.1 < s.stdIndexes.length)

/-- `AviWriter`. -/
structure AviObject where
  w : AviWriter
  /-- The keys of `m_streamTypes`. -/
  declared : Finset Nat
  /-- `m_opened`. -/
  opened : Bool
  deriving DecidableEq

/-- A configuration call. -/
inductive AviSetting
  | openDML (yes : Bool)
  | setVideoProperties (stream : UInt8) (p : VideoProperties)
  | setAudioProperties (stream : UInt8) (p : AudioProperties)
  | setFrameCount (stream : UInt8) (count : Nat)

namespace AviObject

/-- The constructor. -/
def new : AviObject := ⟨AviWriter.new, ∅, false⟩

/-- `openDML`, `setVideoProperties`, `setAudioProperties` and `setFrameCount`. -/
def set (o : AviObject) (setting : AviSetting) : Bool × AviObject :=
  if o.opened then (false, o)
  else
    match setting with
    | .openDML yes => (true, { o with w := o.w.setOpenDML yes })
    | .setVideoProperties i p =>
        (true, { o with
          w := o.w.setVideoProperties i.toNat p
          declared := insert i.toNat o.declared })
    | .setAudioProperties i p =>
        (true, { o with
          w := o.w.setAudioProperties i.toNat p
          declared := insert i.toNat o.declared })
    | .setFrameCount _ count => (true, { o with w := o.w.setFrameCount count })

/-- The calls before `open`. -/
def configure (o : AviObject) (settings : List AviSetting) : AviObject :=
  settings.foldl (fun o setting => (o.set setting).2) o

/-- `open`. The streams must be numbered from zero without a gap. -/
def «open» (o : AviObject) : Bool × AviObject :=
  if o.declared = ∅ then (false, o)
  else if !o.w.openDML && o.w.reservedFrames = 0 then (false, o)
  else if o.declared ≠ Finset.range o.declared.card then (false, o)
  else
    let n := o.declared.card
    let w := o.w.pad n
    let (ok, w') := { w with streams := w.streams.take n }.open
    (ok, { o with w := { w' with streams := w'.streams ++ w.streams.drop n } })

/-- `write_data`. The type of any stream is asked for, and is 0 for one that was not declared. -/
def writeData (o : AviObject) (stream : UInt8) (data : Buffer) : Option (Bool × AviObject) :=
  if o.w.reservedFrames ≤ o.w.totalFrames then some (false, o)
  else
    ((o.w.pad (stream.toNat + 1)).writeData stream.toNat data.val).map fun (ok, w) =>
      (ok, { o with w := w, declared := insert stream.toNat o.declared })

/-- `write_frame`: as much as `biSizeImage` says, from what is in memory. -/
def writeFrame (o : AviObject) (stream : UInt8) (mem : Nat → UInt8) : Option (Bool × AviObject) :=
  o.writeData stream ⟨(List.range (o.w.bitmapInfo.biSizeImage % 2 ^ 32)).map mem, by
    rw [List.length_map, List.length_range]
    exact Nat.mod_lt _ (by decide)⟩

/-- The calls of `write_data`, with their answers. -/
def writes (o : AviObject) : List (UInt8 × Buffer) → Option (List Bool × AviObject)
  | [] => some ([], o)
  | (stream, data) :: rest =>
      (o.writeData stream data).bind fun (ok, o) =>
        (o.writes rest).map fun (oks, o) => (ok :: oks, o)

/-- The streams behind `close`, which fills in the lengths of audio. -/
def closedStreams (w : AviWriter) (n : Nat) : List AviStream :=
  ((w.streams.take n).map fun s => { s with avisHeader := w.closedHeader s }) ++ w.streams.drop n

/-- `close`, with the file. A standard index that is not there is undefined behaviour. -/
def close (o : AviObject) : Option (Bytes × AviObject) :=
  let n := o.declared.card
  let w := o.w.pad n
  let ss := w.streams.take n
  if w.openDML && !ss.all AviStream.indexed then none
  else
    let w' := w.closeStreams ss
    some (w'.f.bytes,
      { o with
        w := AviWriter.reset { w' with streams := closedStreams w n }
        declared := o.declared ∪ Finset.range n })

variable {o o' : AviObject}

/-! ## `m_opened` is never set -/

theorem set_opened (o : AviObject) (setting : AviSetting) : (o.set setting).2.opened = o.opened := by
  unfold set
  split
  · rfl
  · cases setting <;> rfl

theorem configure_opened (o : AviObject) (settings : List AviSetting) :
    (o.configure settings).opened = o.opened := by
  induction settings generalizing o with
  | nil => rfl
  | cons setting settings ih => exact (ih (o.set setting).2).trans (o.set_opened setting)

theorem open_opened (o : AviObject) : o.open.2.opened = o.opened := by
  unfold AviObject.open
  split
  · rfl
  · split
    · rfl
    · split <;> rfl

theorem writeData_opened {stream : UInt8} {data : Buffer} {ok : Bool}
    (h : o.writeData stream data = some (ok, o')) : o'.opened = o.opened := by
  unfold writeData at h
  split at h
  · obtain ⟨-, rfl⟩ := Prod.mk.inj (Option.some.inj h)
    rfl
  · obtain ⟨r, -, hr⟩ := Option.map_eq_some_iff.mp h
    obtain ⟨-, rfl⟩ := Prod.mk.inj hr
    rfl

/-- A configuration call is carried out. -/
theorem set_true (h : o.opened = false) (setting : AviSetting) : (o.set setting).1 = true := by
  unfold set
  rw [h, if_neg Bool.false_ne_true]
  cases setting <;> rfl

end AviObject

/-- A video of one frame, without the extended index. -/
def shortSettings : List AviSetting :=
  [.setVideoProperties 0 ⟨16, 16, fourcc "MJPG", 4, 40000, 100, 1, 25⟩, .setFrameCount 0 1,
    .openDML false]

/-- A frame of four bytes. -/
def shortFrame : Buffer := ⟨[1, 2, 3, 4], by decide⟩

/-! ## What a configuration leaves -/

namespace AviWriter

variable {w : AviWriter}

theorem pad_of_le {n : Nat} (h : n ≤ w.streams.length) : w.pad n = w := by
  unfold pad
  rw [Nat.sub_eq_zero_of_le h, List.replicate_zero, List.append_nil]

theorem length_redeclare (w : AviWriter) (i : Nat) (t : StreamType) (header : AVISTREAMHEADER) :
    (w.redeclare i t header).length = max w.streams.length (i + 1) := by
  unfold redeclare pad
  rw [List.length_modify, List.length_append, List.length_replicate]
  omega

/-- What is there behind a property call, and was not there before, is its stream or blank. -/
theorem getElem?_redeclare {i k : Nat} {t : StreamType} {header : AVISTREAMHEADER} {s : AviStream}
    (h : (w.redeclare i t header)[k]? = some s) :
    ∃ s₀, (w.streams[k]? = some s₀ ∨ w.streams.length ≤ k ∧ s₀ = blankStream) ∧
      s = if i = k then { s₀ with streamType := t, avisHeader := header } else s₀ := by
  unfold redeclare pad at h
  rw [List.getElem?_modify] at h
  obtain ⟨s₀, hs₀, rfl⟩ := Option.map_eq_some_iff.mp h
  refine ⟨s₀, ?_, rfl⟩
  by_cases hk : k < w.streams.length
  · rw [List.getElem?_append_left hk] at hs₀
    exact .inl hs₀
  · rw [List.getElem?_append_right (Nat.le_of_not_lt hk)] at hs₀
    exact .inr ⟨Nat.le_of_not_lt hk, List.eq_of_mem_replicate (List.mem_of_getElem? hs₀)⟩

end AviWriter

/-- A call of `setVideoProperties` or `setAudioProperties`. -/
inductive StreamProperties
  | video (p : VideoProperties)
  | audio (p : AudioProperties)

/-- A stream when it has been declared so. -/
def declaredStream : StreamProperties → AviStream
  | .video p => ⟨.video, AviWriter.videoHeader p, 0, 0, blankSuperIdx, [], []⟩
  | .audio q => ⟨.audio, AviWriter.audioHeader q, 0, 0, blankSuperIdx, [], []⟩

namespace AviObject

/-- **What the configuration of a new object leaves**: nothing has been recorded yet, the streams
that were declared are as their last property call has them, the others are blank, and there are
not more of them than that needs. -/
structure Configured (o : AviObject) : Prop where
  opened : o.opened = false
  riffIdx : o.w.riffIdx = 0
  oldIndexEntries : o.w.oldIndexEntries = []
  currMaxRIFFSize : o.w.currMaxRIFFSize = 1000 * 1000 * 1000
  frames : o.w.reservedFrames < 2 ^ 32
  fcc : o.w.avimHeader.fcc = fourcc "avih"
  cb : o.w.avimHeader.cb = 56
  totalFrames : o.w.avimHeader.dwTotalFrames = 0
  streams : ∀ (k : Nat) (s : AviStream), o.w.streams[k]? = some s →
    (∃ p, s = declaredStream p) ∨ k ∉ o.declared ∧ s = blankStream
  within : ∀ k ∈ o.declared, k < o.w.streams.length
  last : ∀ n, o.w.streams.length = n + 1 → n ∈ o.declared

theorem configured_new : Configured new where
  opened := rfl
  riffIdx := rfl
  oldIndexEntries := rfl
  currMaxRIFFSize := rfl
  frames := by decide
  fcc := rfl
  cb := rfl
  totalFrames := rfl
  streams k s h := by cases h
  within k h := absurd h (Finset.notMem_empty k)
  last n h := by cases h

/-- What a property call makes of the streams. -/
theorem Configured.redeclared {o : AviObject} (h : Configured o) (i : Nat) (p : StreamProperties)
    {t : StreamType} {header : AVISTREAMHEADER}
    (hp : { blankStream with streamType := t, avisHeader := header } = declaredStream p) :
    (∀ (k : Nat) (s : AviStream), (o.w.redeclare i t header)[k]? = some s →
      (∃ p, s = declaredStream p) ∨ k ∉ insert i o.declared ∧ s = blankStream) ∧
    (∀ k ∈ insert i o.declared, k < (o.w.redeclare i t header).length) ∧
    ∀ n, (o.w.redeclare i t header).length = n + 1 → n ∈ insert i o.declared := by
  rw [AviWriter.length_redeclare]
  refine ⟨fun k s hs => ?_, fun k hk => ?_, fun n hn => ?_⟩
  · obtain ⟨s₀, hs₀, rfl⟩ := AviWriter.getElem?_redeclare hs
    have hbefore : (∃ p, s₀ = declaredStream p) ∨ k ∉ o.declared ∧ s₀ = blankStream := by
      rcases hs₀ with hs₀ | ⟨hk, rfl⟩
      · exact h.streams k s₀ hs₀
      · exact .inr ⟨fun hmem => absurd (h.within k hmem) (Nat.not_lt_of_le hk), rfl⟩
    by_cases hik : i = k
    · rw [if_pos hik]
      rcases hbefore with ⟨q, rfl⟩ | ⟨-, rfl⟩
      · refine .inl ⟨p, ?_⟩
        rw [← hp]
        cases q <;> rfl
      · exact .inl ⟨p, hp⟩
    · rw [if_neg hik]
      refine hbefore.imp_right fun hblank => ⟨fun hmem => ?_, hblank.2⟩
      rcases Finset.mem_insert.mp hmem with heq | hmem
      · exact hik heq.symm
      · exact hblank.1 hmem
  · rcases Finset.mem_insert.mp hk with rfl | hk
    · omega
    · have := h.within k hk
      omega
  · by_cases hi : i = n
    · rw [hi]
      exact Finset.mem_insert_self ..
    · exact Finset.mem_insert_of_mem (h.last n (by omega))

theorem Configured.set {o : AviObject} (h : Configured o) (setting : AviSetting) :
    Configured (o.set setting).2 := by
  unfold AviObject.set
  rw [h.opened, if_neg Bool.false_ne_true]
  cases setting with
  | openDML yes => exact { h with opened := rfl }
  | setVideoProperties i p =>
    obtain ⟨hstreams, hwithin, hlast⟩ := h.redeclared i.toNat (.video p) rfl
    exact { h with opened := rfl, streams := hstreams, within := hwithin, last := hlast }
  | setAudioProperties i q =>
    obtain ⟨hstreams, hwithin, hlast⟩ := h.redeclared i.toNat (.audio q) rfl
    exact { h with opened := rfl, streams := hstreams, within := hwithin, last := hlast }
  | setFrameCount i count => exact { h with opened := rfl, frames := Nat.mod_lt _ (by decide) }

/-- **Every configuration** leaves a new object so. -/
theorem configured (settings : List AviSetting) : Configured (new.configure settings) := by
  have hall : ∀ o, Configured o → Configured (o.configure settings) := by
    induction settings with
    | nil => exact fun o h => h
    | cons setting settings ih => exact fun o h => ih _ (h.set setting)
  exact hall new configured_new

/-- Without a gap in the numbers, all streams were declared. -/
theorem Configured.declared_eq {o : AviObject} (h : Configured o)
    (hgapless : o.declared = Finset.range o.declared.card) :
    o.declared = Finset.range o.w.streams.length := by
  have hle : o.declared.card ≤ o.w.streams.length := by
    by_contra hlt
    have hmem : o.w.streams.length ∈ o.declared := by
      rw [hgapless]
      exact Finset.mem_range.mpr (Nat.lt_of_not_le hlt)
    exact Nat.lt_irrefl _ (h.within _ hmem)
  have hge : o.w.streams.length ≤ o.declared.card := by
    cases hlen : o.w.streams.length with
    | zero => exact Nat.zero_le _
    | succ n =>
      have hmem := h.last n hlen
      rw [hgapless] at hmem
      exact Finset.mem_range.mp hmem
  rw [hgapless, Nat.le_antisymm hle hge]

/-- **Opening** an object that has all its streams is opening the writer. -/
theorem open_eq {o : AviObject} (h : o.declared = Finset.range o.w.streams.length) :
    o.open = (o.w.open.1, { o with w := o.w.open.2 }) := by
  have hcard : o.declared.card = o.w.streams.length := by
    rw [h]
    exact Finset.card_range _
  unfold AviObject.open
  rw [hcard]
  by_cases hnil : o.w.streams = []
  · have hempty : o.declared = ∅ := by
      rw [h, hnil]
      rfl
    have hopen : o.w.open = (false, o.w) := by
      unfold AviWriter.open
      rw [if_pos hnil]
    rw [if_pos hempty, hopen]
  · have hsome : o.declared ≠ ∅ := by
      rw [h, Ne, Finset.range_eq_empty_iff]
      exact fun hlen => hnil (List.length_eq_zero_iff.mp hlen)
    rw [if_neg hsome]
    by_cases hframes : (!o.w.openDML && decide (o.w.reservedFrames = 0)) = true
    · have hopen : o.w.open = (false, o.w) := by
        unfold AviWriter.open
        rw [if_neg hnil, if_pos hframes]
      rw [if_pos hframes, hopen]
    · have hgaps : ¬ o.declared ≠ Finset.range o.w.streams.length := fun hne => hne h
      rw [if_neg hframes, if_neg hgaps]
      dsimp only
      rw [AviWriter.pad_of_le (Nat.le_refl _), List.take_length, List.drop_length]
      simp only [List.append_nil]

/-- **An object that opens** has been given all streams up to the last. -/
theorem Configured.of_open {o : AviObject} (h : Configured o) (hopen : o.open.1 = true) :
    o.declared = Finset.range o.w.streams.length := by
  refine h.declared_eq ?_
  by_contra hgaps
  unfold AviObject.open at hopen
  split at hopen
  · cases hopen
  · split at hopen
    · cases hopen
    · cases hopen

/-- **Writing** to a stream that there is is writing with the writer. -/
theorem writeData_eq {o : AviObject} {stream : UInt8} (hdecl : stream.toNat ∈ o.declared)
    (hlen : stream.toNat < o.w.streams.length) (data : Buffer) :
    o.writeData stream data =
      (o.w.writeData stream.toNat data.val).map fun (ok, w) => (ok, { o with w := w }) := by
  unfold writeData AviWriter.writeData
  rw [AviWriter.pad_of_le hlen, Finset.insert_eq_self.mpr hdecl]
  split <;> rfl

/-- **Closing** it gives the writer's file. -/
theorem close_eq {o : AviObject} (hdecl : o.declared = Finset.range o.w.streams.length)
    (hidx : o.w.openDML = true → o.w.streams.all AviStream.indexed = true) :
    o.close.map Prod.fst = some o.w.close.f.bytes := by
  have hcard : o.declared.card = o.w.streams.length := by
    rw [hdecl]
    exact Finset.card_range _
  unfold close
  dsimp only
  rw [hcard, AviWriter.pad_of_le (Nat.le_refl _), List.take_length, o.w.closeStreams_streams]
  have hdef : ¬ (o.w.openDML && !o.w.streams.all AviStream.indexed) = true := by
    rw [Bool.and_eq_true, Bool.not_eq_true']
    intro ⟨hdml, hall⟩
    rw [hidx hdml] at hall
    cases hall
  rw [if_neg hdef]
  rfl

end AviObject

end Maixii.Avi
