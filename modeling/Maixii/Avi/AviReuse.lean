import Maixii.Avi.AviFollows

/-!
# `Avi/AviReuse.lean`: one object, two files

`reset`, which `close` ends with, puts the main header and the two formats back. Everything else of
an object is what the recording before has left: the streams it declared, its reservation, its
indexes, the number of its section and that section's limit. Some of this the next configuration
and `open` put right. The next file is what a new object makes of it (`reuse_like_new`) if nothing
was recorded before and the settings are settled anew.
-/

set_option autoImplicit false

namespace Maixii.Avi

open Maixii.Lib

/-- A recording as it is planned: the calls before `open`, and the calls of `write_data`. -/
structure AviPlan where
  settings : List AviSetting
  writes : List (UInt8 × Buffer)

namespace AviObject

/-- The answers of the calls before `open`. -/
def answers (o : AviObject) : List AviSetting → List Bool
  | [] => []
  | setting :: rest => (o.set setting).1 :: (o.set setting).2.answers rest

/-- A recording from beginning to end: all answers, the file, and what becomes of the object. -/
def perform (o : AviObject) (plan : AviPlan) : Option (List Bool × Bytes × AviObject) :=
  let (ok, o₁) := (o.configure plan.settings).open
  (o₁.writes plan.writes).bind fun (oks, o₂) =>
    o₂.close.map fun (file, o₃) => (o.answers plan.settings ++ [ok] ++ oks ++ [true], file, o₃)

/-- A new object carries the plan out: all is accepted, on streams that are declared. -/
structure Recorded (plan : AviPlan) (o : AviObject) : Prop where
  performed : ∃ oks file, new.perform plan = some (oks, file, o) ∧ ∀ ok ∈ oks, ok = true
  declared : ∀ write ∈ plan.writes, write.1.toNat ∈ (new.configure plan.settings).declared

/-- **Like new**: the second recording has the answers and the file that a new object gives it. -/
def LikeNew (o : AviObject) (plan : AviPlan) : Prop :=
  (o.perform plan).map (fun r => (r.1, r.2.1)) = (new.perform plan).map fun r => (r.1, r.2.1)

/-- The condition: nothing was recorded before, the streams are all declared anew, and so is the
kind of index, if it has not remained what it is in a new object; and if the reservation has not been
renewed, it means as many standard indexes, and is large enough. -/
structure Clean (a b : AviPlan) (o : AviObject) : Prop where
  unwritten : a.writes = []
  declared : (new.configure a.settings).declared ⊆ (new.configure b.settings).declared
  openDML : (o.configure b.settings).w.openDML = (new.configure b.settings).w.openDML
  slots : (new.configure b.settings).w.openDML = true →
    numStdIndexes (o.configure b.settings).w.reservedFrames =
      numStdIndexes (new.configure b.settings).w.reservedFrames
  room : b.writes.length ≤
    reservation (new.configure b.settings).w.openDML (o.configure b.settings).w.reservedFrames

/-! ## Objects with which nothing was recorded -/

/-- No chunk has been accepted. -/
structure Unwritten (o : AviObject) : Prop where
  opened : o.opened = false
  old : o.w.oldIndexEntries = []
  riffIdx : o.w.riffIdx = 0
  limit : o.w.currMaxRIFFSize = 1000 * 1000 * 1000
  reserved : o.w.reservedFrames < 2 ^ 32
  entries : ∀ s ∈ o.w.streams, s.stdIndexEntries = []

theorem unwritten_new : Unwritten new where
  opened := rfl
  old := rfl
  riffIdx := rfl
  limit := rfl
  reserved := by decide
  entries s hs := by cases hs

end AviObject

namespace AviWriter

variable {w : AviWriter} {i : Nat} {t : StreamType} {header : AVISTREAMHEADER} {s : AviStream}

theorem pad_streams (w : AviWriter) (n : Nat) :
    (w.pad n).streams = w.streams ++ List.replicate (n - w.streams.length) blankStream := rfl

/-- A stream is redeclared without its indexes being touched. -/
theorem forall_redeclare {P : AviStream → Prop}
    (hP : ∀ s, P s → P { s with streamType := t, avisHeader := header }) (hblank : P blankStream)
    (h : ∀ s ∈ w.streams, P s) : ∀ s ∈ w.redeclare i t header, P s := by
  intro s hs
  obtain ⟨j, hj⟩ := List.mem_iff_getElem?.mp hs
  unfold redeclare at hj
  rw [List.getElem?_modify] at hj
  obtain ⟨s₀, hs₀, rfl⟩ := Option.map_eq_some_iff.mp hj
  have hbefore : P s₀ := by
    rcases List.mem_append.mp (List.mem_of_getElem? hs₀) with hmem | hmem
    · exact h s₀ hmem
    · rw [List.eq_of_mem_replicate hmem]
      exact hblank
  split
  · exact hP s₀ hbefore
  · exact hbefore

theorem getElem?_redeclare_self (w : AviWriter) (i : Nat) (t : StreamType)
    (header : AVISTREAMHEADER) :
    ∃ s : AviStream, (w.redeclare i t header)[i]? =
      some { s with streamType := t, avisHeader := header } := by
  have hlt : i < (w.pad (i + 1)).streams.length := by
    rw [pad_streams, List.length_append, List.length_replicate]
    omega
  refine ⟨(w.pad (i + 1)).streams[i], ?_⟩
  unfold redeclare
  rw [List.getElem?_modify, List.getElem?_eq_getElem hlt]
  simp

theorem getElem?_redeclare_ne {j : Nat} (hne : i ≠ j) (hs : w.streams[j]? = some s) :
    (w.redeclare i t header)[j]? = some s := by
  unfold redeclare
  rw [List.getElem?_modify, pad_streams,
    List.getElem?_append_left (List.getElem?_eq_some_iff.mp hs).1, hs]
  simp [hne]

end AviWriter

namespace AviObject

variable {o o' : AviObject}

theorem Unwritten.set (h : Unwritten o) (setting : AviSetting) : Unwritten (o.set setting).2 := by
  have hopened := o.set_opened setting
  unfold AviObject.set at hopened ⊢
  rw [h.opened, if_neg Bool.false_ne_true] at hopened ⊢
  cases setting with
  | openDML yes => exact ⟨hopened, h.old, h.riffIdx, h.limit, h.reserved, h.entries⟩
  | setVideoProperties i p =>
    exact ⟨hopened, h.old, h.riffIdx, h.limit, h.reserved,
      AviWriter.forall_redeclare (fun _ hs => hs) rfl h.entries⟩
  | setAudioProperties i p =>
    exact ⟨hopened, h.old, h.riffIdx, h.limit, h.reserved,
      AviWriter.forall_redeclare (fun _ hs => hs) rfl h.entries⟩
  | setFrameCount i count =>
    exact ⟨hopened, h.old, h.riffIdx, h.limit, Nat.mod_lt _ (by decide), h.entries⟩

theorem Unwritten.configure (h : Unwritten o) (settings : List AviSetting) :
    Unwritten (o.configure settings) := by
  induction settings generalizing o with
  | nil => exact h
  | cons setting settings ih => exact ih (h.set setting)

end AviObject

/-! ### `open` -/

/-- `open` writes a stream's header, and leaves its entries alone. -/
theorem mem_openedStreams {dml : Bool} {num off i : Nat} {ss : List AviStream} {s : AviStream}
    (hs : s ∈ openedStreams dml num off i ss) :
    ∃ s₀ ∈ ss, s.streamType = s₀.streamType ∧ s.avisHeader = s₀.avisHeader ∧
      s.stdIndexEntries = s₀.stdIndexEntries := by
  induction ss generalizing off i with
  | nil => cases hs
  | cons s₀ ss ih =>
    rcases List.mem_cons.mp hs with rfl | hs
    · refine ⟨s₀, List.mem_cons_self, ?_⟩
      unfold openedStream
      dsimp only
      split <;> exact ⟨rfl, rfl, rfl⟩
    · obtain ⟨s₁, hs₁, hsame⟩ := ih hs
      exact ⟨s₁, List.mem_cons_of_mem _ hs₁, hsame⟩

namespace AviWriter

/-- The writer with the streams that `open` counts. -/
def firstStreams (w : AviWriter) (n : Nat) : AviWriter :=
  { w.pad n with streams := (w.pad n).streams.take n }

/-- The writer when `open` has returned `true`. -/
def openedFirst (w : AviWriter) (n : Nat) : AviWriter :=
  { (w.firstStreams n).opened with
    streams := (w.firstStreams n).opened.streams ++ (w.pad n).streams.drop n }

theorem getElem?_firstStreams {w : AviWriter} {n i : Nat} {t : AviStream} (hi : i < n)
    (ht : w.streams[i]? = some t) : (w.firstStreams n).streams[i]? = some t := by
  show ((w.pad n).streams.take n)[i]? = some t
  rw [List.getElem?_take_of_lt hi, pad_streams,
    List.getElem?_append_left (List.getElem?_eq_some_iff.mp ht).1, ht]

theorem length_firstStreams (w : AviWriter) (n : Nat) : (w.firstStreams n).streams.length = n := by
  show ((w.pad n).streams.take n).length = n
  rw [List.length_take, pad_streams, List.length_append, List.length_replicate]
  omega

end AviWriter

namespace AviObject

variable {o o' : AviObject}

/-- When `open` returns `true`. -/
structure Openable (o : AviObject) (n : Nat) : Prop where
  declared : o.declared = Finset.range n
  some : n ≠ 0
  frames : o.w.openDML = true ∨ o.w.reservedFrames ≠ 0

theorem Openable.card {n : Nat} (h : Openable o n) : o.declared.card = n := by
  rw [h.declared]
  exact Finset.card_range n

/-- **What `open` does.** -/
theorem Openable.open {n : Nat} (h : Openable o n) (hr : o.w.reservedFrames < 2 ^ 32) :
    o.open = (true, { o with w := o.w.openedFirst n }) := by
  have hne : o.declared ≠ ∅ := by
    rw [h.declared, Ne, Finset.range_eq_empty_iff]
    exact h.some
  have hframes : ¬ (!o.w.openDML && decide (o.w.reservedFrames = 0)) = true := by
    rw [Bool.and_eq_true, Bool.not_eq_true', decide_eq_true_eq]
    rintro ⟨hdml, hzero⟩
    rcases h.frames with htrue | hpos
    · rw [hdml] at htrue
      cases htrue
    · exact hpos hzero
  have hstreams : (o.w.firstStreams n).streams ≠ [] := by
    intro hnil
    have hlen := o.w.length_firstStreams n
    rw [hnil] at hlen
    exact h.some hlen.symm
  have hopen := AviWriter.open_eq (o.w.firstStreams n) hstreams hr h.frames
  unfold AviObject.open
  rw [if_neg hne, if_neg hframes, h.card, if_neg (fun hneq => hneq h.declared)]
  dsimp only
  unfold AviWriter.firstStreams at hopen
  rw [hopen]
  rfl

/-- Otherwise it does nothing. -/
theorem open_false (h : ∀ n, ¬ Openable o n) : o.open = (false, o) := by
  unfold AviObject.open
  split
  · rfl
  · rename_i hne
    split
    · rfl
    · rename_i hframes
      split
      · rfl
      · rename_i hdecl
        rw [Ne, Decidable.not_not] at hdecl
        refine absurd ⟨hdecl, ?_, ?_⟩ (h o.declared.card)
        · exact fun hzero => hne (Finset.card_eq_zero.mp hzero)
        · by_contra hnot
          obtain ⟨hdml, hzero⟩ := not_or.mp hnot
          rw [Decidable.not_not] at hzero
          rw [hzero, Bool.not_eq_true _ |>.mp hdml] at hframes
          exact hframes rfl

theorem openable_of_true (h : o.open.1 = true) : ∃ n, Openable o n := by
  by_contra hnot
  rw [open_false (not_exists.mp hnot)] at h
  cases h

theorem Unwritten.open (h : Unwritten o) : Unwritten o.open.2 := by
  by_cases hn : ∃ n, Openable o n
  · obtain ⟨n, hn⟩ := hn
    rw [hn.open h.reserved]
    refine ⟨h.opened, h.old, h.riffIdx, h.limit, reservation_lt h.reserved, ?_⟩
    have hpad : ∀ s ∈ (o.w.pad n).streams, s.stdIndexEntries = [] := by
      intro s hs
      rcases List.mem_append.mp hs with hs | hs
      · exact h.entries s hs
      · rw [List.eq_of_mem_replicate hs]
        rfl
    intro s hs
    rcases List.mem_append.mp hs with hs | hs
    · obtain ⟨s₀, hs₀, -, -, hentries⟩ := mem_openedStreams hs
      rw [hentries]
      exact hpad s₀ (List.mem_of_mem_take hs₀)
    · exact hpad s (List.mem_of_mem_drop hs)
  · rw [open_false (not_exists.mp hn)]
    exact h

/-! ### `close` -/

theorem closeStreams_eq (w : AviWriter) (ss : List AviStream) :
    w.closeStreams ss = { w with f := (w.closeStreams ss).f } := by
  unfold AviWriter.closeStreams
  dsimp only
  split <;> rfl

/-- What `close` leaves is as new only in the formats. -/
theorem close_cases {file : Bytes} (h : o.close = some (file, o')) :
    o'.w.streams = closedStreams (o.w.pad o.declared.card) o.declared.card ∧
      o'.w = AviWriter.reset { o.w with f := o'.w.f, streams := o'.w.streams } ∧
      o'.declared = o.declared ∪ Finset.range o.declared.card ∧ o'.opened = o.opened := by
  unfold AviObject.close at h
  dsimp only at h
  split at h
  · cases h
  · obtain ⟨-, rfl⟩ := Prod.mk.inj (Option.some.inj h)
    refine ⟨rfl, ?_, rfl, rfl⟩
    rw [closeStreams_eq]
    rfl

theorem Unwritten.close (h : Unwritten o) {file : Bytes} (hc : o.close = some (file, o')) :
    Unwritten o' := by
  obtain ⟨hstreams, hw, -, hopened⟩ := close_cases hc
  have hpad : ∀ s ∈ (o.w.pad o.declared.card).streams, s.stdIndexEntries = [] := by
    intro s hs
    rcases List.mem_append.mp hs with hs | hs
    · exact h.entries s hs
    · rw [List.eq_of_mem_replicate hs]
      rfl
  refine ⟨hopened.trans h.opened, (congrArg AviWriter.oldIndexEntries hw).trans h.old,
    (congrArg AviWriter.riffIdx hw).trans h.riffIdx,
    (congrArg AviWriter.currMaxRIFFSize hw).trans h.limit,
    (congrArg AviWriter.reservedFrames hw).trans_lt h.reserved, ?_⟩
  · intro s hs
    rw [hstreams] at hs
    rcases List.mem_append.mp hs with hs | hs
    · obtain ⟨s₀, hs₀, rfl⟩ := List.mem_map.mp hs
      exact hpad s₀ (List.mem_of_mem_take hs₀)
    · exact hpad s (List.mem_of_mem_drop hs)

/-! ## The same settings on a used and on a new object -/

/-- **Settings side by side**: `o` was used for the streams `before`, and `o'` is new; both have had
the same calls since. -/
structure Settled (before : Finset Nat) (o o' : AviObject) : Prop where
  declared : o.declared = before ∪ o'.declared
  avimHeader : o.w.avimHeader = o'.w.avimHeader
  bitmapInfo : o.w.bitmapInfo = o'.w.bitmapInfo
  waveFormat : o.w.waveFormat = o'.w.waveFormat
  streams : ∀ i ∈ o'.declared, ∃ s s', o.w.streams[i]? = some s ∧ o'.w.streams[i]? = some s' ∧
    s.streamType = s'.streamType ∧ s.avisHeader = s'.avisHeader ∧ s'.avisHeader.dwLength = 0
  frames : o.w.reservedFrames = o'.w.reservedFrames ∨ o'.w.reservedFrames = 0
  indexes : ∀ s ∈ o'.w.streams, s.stdIndexes = []
  total : o'.w.avimHeader.dwTotalFrames = 0
  video : (o.w.videoStreamIdx = o'.w.videoStreamIdx ∧
      ∀ k, o.w.videoStreamIdx = some k → k ∈ o'.declared) ∨
    ∀ i ∈ o'.declared, ∀ s, o'.w.streams[i]? = some s → s.streamType ≠ .video

theorem settled_close {file : Bytes} (h : o.close = some (file, o')) :
    Settled o'.declared o' new where
  declared := (Finset.union_empty _).symm
  avimHeader := (congrArg AviWriter.avimHeader (close_cases h).2.1).trans rfl
  bitmapInfo := (congrArg AviWriter.bitmapInfo (close_cases h).2.1).trans rfl
  waveFormat := (congrArg AviWriter.waveFormat (close_cases h).2.1).trans rfl
  streams i hi := absurd hi (Finset.notMem_empty i)
  frames := .inr rfl
  indexes s hs := by cases hs
  total := rfl
  video := .inr fun i hi => absurd hi (Finset.notMem_empty i)

variable {before : Finset Nat}

/-- A stream is declared on both. -/
theorem Settled.redeclare (h : Settled before o o') (i : Nat) {t : StreamType}
    {header : AVISTREAMHEADER} (hlen : header.dwLength = 0) :
    ∀ j ∈ insert i o'.declared, ∃ s s', (o.w.redeclare i t header)[j]? = some s ∧
      (o'.w.redeclare i t header)[j]? = some s' ∧ s.streamType = s'.streamType ∧
      s.avisHeader = s'.avisHeader ∧ s'.avisHeader.dwLength = 0 := by
  intro j hj
  by_cases hij : i = j
  · subst hij
    obtain ⟨s, hs⟩ := o.w.getElem?_redeclare_self i t header
    obtain ⟨s', hs'⟩ := o'.w.getElem?_redeclare_self i t header
    exact ⟨_, _, hs, hs', rfl, rfl, hlen⟩
  · obtain ⟨s, s', hs, hs', hsame⟩ :=
      h.streams j (Finset.mem_of_mem_insert_of_ne hj (Ne.symm hij))
    exact ⟨s, s', AviWriter.getElem?_redeclare_ne hij hs, AviWriter.getElem?_redeclare_ne hij hs',
      hsame⟩

theorem Settled.set (h : Settled before o o') (ho : o.opened = false) (ho' : o'.opened = false)
    (setting : AviSetting) : Settled before (o.set setting).2 (o'.set setting).2 := by
  unfold AviObject.set
  rw [ho, ho', if_neg Bool.false_ne_true, if_neg Bool.false_ne_true]
  cases setting with
  | openDML yes =>
    exact ⟨h.declared, h.avimHeader, h.bitmapInfo, h.waveFormat, h.streams, h.frames, h.indexes,
      h.total, h.video⟩
  | setFrameCount i count =>
    exact ⟨h.declared, h.avimHeader, h.bitmapInfo, h.waveFormat, h.streams, .inl rfl, h.indexes,
      h.total, h.video⟩
  | setVideoProperties i p =>
    refine ⟨?_, ?_, ?_, h.waveFormat, h.redeclare i.toNat rfl, h.frames,
      AviWriter.forall_redeclare (fun _ hs => hs) rfl h.indexes, h.total, .inl ⟨rfl, ?_⟩⟩
    · show insert i.toNat o.declared = before ∪ insert i.toNat o'.declared
      rw [h.declared, Finset.union_insert]
    · show (o.w.setVideoProperties i.toNat p).avimHeader =
        (o'.w.setVideoProperties i.toNat p).avimHeader
      unfold AviWriter.setVideoProperties
      rw [h.avimHeader]
    · show (o.w.setVideoProperties i.toNat p).bitmapInfo =
        (o'.w.setVideoProperties i.toNat p).bitmapInfo
      unfold AviWriter.setVideoProperties
      rw [h.bitmapInfo]
    · intro k hk
      obtain rfl := Option.some.inj hk
      exact Finset.mem_insert_self _ _
  | setAudioProperties i p =>
    refine ⟨?_, ?_, h.bitmapInfo, ?_, h.redeclare i.toNat rfl, h.frames,
      AviWriter.forall_redeclare (fun _ hs => hs) rfl h.indexes, h.total, ?_⟩
    · show insert i.toNat o.declared = before ∪ insert i.toNat o'.declared
      rw [h.declared, Finset.union_insert]
    · show (o.w.setAudioProperties i.toNat p).avimHeader =
        (o'.w.setAudioProperties i.toNat p).avimHeader
      unfold AviWriter.setAudioProperties
      rw [h.avimHeader]
    · show (o.w.setAudioProperties i.toNat p).waveFormat =
        (o'.w.setAudioProperties i.toNat p).waveFormat
      unfold AviWriter.setAudioProperties
      rw [h.waveFormat]
    · refine h.video.imp ?_ ?_
      · rintro ⟨hsame, hin⟩
        exact ⟨hsame, fun k hk => Finset.mem_insert_of_mem (hin k hk)⟩
      · intro hnone j hj s hs
        by_cases hij : i.toNat = j
        · subst hij
          obtain ⟨s₀, hs₀⟩ :=
            o'.w.getElem?_redeclare_self i.toNat .audio (AviWriter.audioHeader p)
          obtain rfl := Option.some.inj (hs₀.symm.trans hs)
          exact StreamType.noConfusion
        · have hj' := Finset.mem_of_mem_insert_of_ne hj (Ne.symm hij)
          obtain ⟨-, s₀, -, hs₀, -⟩ := h.streams j hj'
          have hsame : (o'.w.redeclare i.toNat .audio (AviWriter.audioHeader p))[j]? = some s₀ :=
            AviWriter.getElem?_redeclare_ne hij hs₀
          obtain rfl := Option.some.inj (hsame.symm.trans hs)
          exact hnone j hj' s₀ hs₀

theorem Settled.configure (h : Settled before o o') (ho : o.opened = false)
    (ho' : o'.opened = false) (settings : List AviSetting) :
    Settled before (o.configure settings) (o'.configure settings) := by
  induction settings generalizing o o' with
  | nil => exact h
  | cons setting settings ih =>
    exact ih (h.set ho ho' setting) ((o.set_opened setting).trans ho)
      ((o'.set_opened setting).trans ho')

/-- The calls before `open` are all answered alike. -/
theorem answers_true (h : o.opened = false) (settings : List AviSetting) :
    o.answers settings = settings.map fun _ => true := by
  induction settings generalizing o with
  | nil => rfl
  | cons setting settings ih =>
    unfold answers
    rw [set_true h, ih ((o.set_opened setting).trans h)]
    rfl

/-! ## Opening both -/

/-- The streams before `open`: the same settings, and a new object has no indexes yet. -/
structure SameSettings (s s' : AviStream) : Prop where
  streamType : s.streamType = s'.streamType
  avisHeader : s.avisHeader = s'.avisHeader
  entries : s.stdIndexEntries = []
  entries' : s'.stdIndexEntries = []
  indexes : s'.stdIndexes = []

/-- What `open` makes of such streams. -/
theorem SameSettings.opened {s s' : AviStream} (h : SameSettings s s') (dml : Bool)
    (num off i : Nat) : Alike dml (openedStream dml num off i s) (openedStream dml num off i s') := by
  have hentries : ∀ k, s.stdIndexEntries = s'.stdIndexEntries.map (shifted k) := by
    intro k
    rw [h.entries, h.entries']
    rfl
  unfold openedStream
  dsimp only
  cases dml with
  | false =>
    refine ⟨h.streamType, h.avisHeader, rfl, fun hdml => absurd hdml Bool.false_ne_true,
      s.stdIndexes, ?_, hentries _⟩
    show s.stdIndexes = s.stdIndexes ++ s'.stdIndexes
    rw [h.indexes, List.append_nil]
  | true =>
    rw [if_pos rfl, if_pos rfl]
    refine ⟨h.streamType, h.avisHeader, rfl, fun _ => ?_, s.stdIndexes, ?_, hentries _⟩
    · dsimp only
      rw [h.streamType]
      exact ⟨rfl, rfl⟩
    · dsimp only
      rw [h.streamType, h.indexes]
      rfl

theorem openedStreams_alike {ss ss' : List AviStream} (h : List.Forall₂ SameSettings ss ss')
    (dml : Bool) (num off i : Nat) :
    List.Forall₂ (Alike dml) (openedStreams dml num off i ss) (openedStreams dml num off i ss') := by
  induction h generalizing off i with
  | nil => exact .nil
  | @cons s s' ss ss' hs _ ih =>
    have hlen : strlLength dml num s = strlLength dml num s' := by
      unfold strlLength
      rw [hs.streamType]
    unfold openedStreams
    rw [hlen]
    exact .cons (hs.opened dml num off i) (ih _ _)

/-- The headers that are written are the same. -/
theorem openedStrls_same {ss ss' : List AviStream} (h : List.Forall₂ SameSettings ss ss')
    (b : BITMAPINFO) (wf : WAVEFORMATEXTENSIBLE) (dml : Bool) (num : Nat) :
    openedStrls b wf dml num ss = openedStrls b wf dml num ss' := by
  unfold openedStrls
  induction h with
  | nil => rfl
  | @cons s s' ss ss' hs _ ih =>
    rw [List.flatMap_cons, List.flatMap_cons, ih, hs.streamType, hs.avisHeader]

/-- Lists that go together, with anything behind them. -/
theorem allAlike_append {dml : Bool} {n : Nat} {ss ss' : List AviStream}
    (h : List.Forall₂ (Alike dml) ss ss') (hlen : ss.length = n) (rest rest' : List AviStream) :
    AllAlike dml n (ss ++ rest) (ss' ++ rest') := by
  obtain ⟨hsame, hget⟩ := List.forall₂_iff_get.mp h
  intro i hi
  have hi₁ : i < ss.length := by omega
  have hi₂ : i < ss'.length := by omega
  refine ⟨ss[i], ss'[i], ?_, ?_, hget i hi₁ hi₂⟩
  · rw [List.getElem?_append_left hi₁, List.getElem?_eq_getElem hi₁]
  · rw [List.getElem?_append_left hi₂, List.getElem?_eq_getElem hi₂]

/-- The streams that `open` counts. -/
theorem Settled.sameSettings (h : Settled before o o') {n : Nat} (hn : o'.declared = Finset.range n)
    (hentries : ∀ s ∈ o.w.streams, s.stdIndexEntries = [])
    (hentries' : ∀ s ∈ o'.w.streams, s.stdIndexEntries = []) :
    List.Forall₂ SameSettings (o.w.firstStreams n).streams (o'.w.firstStreams n).streams := by
  refine List.forall₂_iff_get.mpr ⟨?_, ?_⟩
  · rw [AviWriter.length_firstStreams, AviWriter.length_firstStreams]
  · intro i hi hi'
    rw [AviWriter.length_firstStreams] at hi
    obtain ⟨s, s', hs, hs', htype, hheader, -⟩ := h.streams i (by
      rw [hn]
      exact Finset.mem_range.mpr hi)
    obtain ⟨_, hget⟩ := List.getElem?_eq_some_iff.mp (AviWriter.getElem?_firstStreams hi hs)
    obtain ⟨_, hget'⟩ := List.getElem?_eq_some_iff.mp (AviWriter.getElem?_firstStreams hi hs')
    rw [List.get_eq_getElem, List.get_eq_getElem, hget, hget']
    exact ⟨htype, hheader, hentries s (List.mem_of_getElem? hs),
      hentries' s' (List.mem_of_getElem? hs'), h.indexes s' (List.mem_of_getElem? hs')⟩

theorem length_openedStreams (dml : Bool) (num off i : Nat) (ss : List AviStream) :
    (openedStreams dml num off i ss).length = ss.length := by
  induction ss generalizing off i with
  | nil => rfl
  | cons s ss ih => exact congrArg Nat.succ (ih _ _)

/-- Without video, nothing is counted. -/
theorem Settled.silent (h : Settled before o o') {n : Nat} (hn : o'.declared = Finset.range n)
    (hnone : ∀ i ∈ o'.declared, ∀ s, o'.w.streams[i]? = some s → s.streamType ≠ .video) :
    AviWriter.Silent n (o'.w.openedFirst n) where
  total := h.total
  streams i hi s hs := by
    have hlen : (o'.w.firstStreams n).opened.streams.length = n :=
      (length_openedStreams _ _ _ _ _).trans (o'.w.length_firstStreams n)
    have hs₁ : (o'.w.firstStreams n).opened.streams[i]? = some s := by
      rw [← hs]
      exact (List.getElem?_append_left (by rw [hlen]; exact hi)).symm
    obtain ⟨s₀, hs₀, htype, hheader, -⟩ := mem_openedStreams (List.mem_of_getElem? hs₁)
    obtain ⟨j, hj⟩ := List.mem_iff_getElem?.mp hs₀
    have hjn : j < n := by
      have := (List.getElem?_eq_some_iff.mp hj).1
      rwa [o'.w.length_firstStreams] at this
    have hmem : j ∈ o'.declared := by
      rw [hn]
      exact Finset.mem_range.mpr hjn
    obtain ⟨-, s', -, hs', -, -, hzero⟩ := h.streams j hmem
    obtain rfl := Option.some.inj ((AviWriter.getElem?_firstStreams hjn hs').symm.trans hj)
    rw [htype, hheader]
    exact ⟨hnone j hmem s' hs', hzero⟩

/-- **Opened side by side**, the used writer follows the new one. -/
theorem Settled.open (h : Settled before o o') (hu : Unwritten o) (hu' : Unwritten o') {n : Nat}
    (hn : o'.declared = Finset.range n) (hdml : o.w.openDML = o'.w.openDML)
    (hnum : numStdIndexes o.w.reservedFrames = numStdIndexes o'.w.reservedFrames) :
    ∃ ss p v r, o.w.openedFirst n = (o'.w.openedFirst n).reused ss p v r ∧
      AviWriter.Follows n (o'.w.openedFirst n) ss p v := by
  have hsame := h.sameSettings hn hu.entries hu'.entries
  have hhead : (o.w.firstStreams n).openedHead = (o'.w.firstStreams n).openedHead := by
    unfold AviWriter.openedHead
    rw [Head.mk.injEq]
    refine ⟨rfl, ?_, ?_, ?_, rfl⟩
    · show o.w.avimHeader.toBytes = o'.w.avimHeader.toBytes
      rw [h.avimHeader]
    · show openedStrls o.w.bitmapInfo o.w.waveFormat o.w.openDML (numStdIndexes o.w.reservedFrames) _ =
        openedStrls o'.w.bitmapInfo o'.w.waveFormat o'.w.openDML
          (numStdIndexes o'.w.reservedFrames) _
      rw [h.bitmapInfo, h.waveFormat, hdml, hnum]
      exact openedStrls_same hsame _ _ _ _
    · show (if o.w.openDML then _ else _) = (if o'.w.openDML then _ else _)
      rw [hdml]
  refine ⟨(o.w.openedFirst n).streams, (o.w.openedFirst n).posOdmlExt, o.w.videoStreamIdx,
    (o.w.openedFirst n).reservedFrames, ?_, ?_, ?_, ?_⟩
  · unfold AviWriter.openedFirst AviWriter.opened AviWriter.reused
    dsimp only
    rw [hhead, AviWriter.mk.injEq]
    exact ⟨rfl, rfl, rfl, rfl, rfl, rfl, rfl, hu.old.trans hu'.old.symm, h.avimHeader, h.bitmapInfo,
      h.waveFormat, hdml, rfl, rfl, hu.riffIdx.trans hu'.riffIdx.symm, rfl, rfl, rfl,
      hu.limit.trans hu'.limit.symm⟩
  · have hopened := openedStreams_alike hsame o'.w.openDML (numStdIndexes o'.w.reservedFrames) 88 0
    have hlen := length_openedStreams o'.w.openDML (numStdIndexes o'.w.reservedFrames) 88 0
      (o.w.firstStreams n).streams
    rw [o.w.length_firstStreams] at hlen
    show AllAlike o'.w.openDML n (openedStreams o.w.openDML (numStdIndexes o.w.reservedFrames) 88 0
      (o.w.firstStreams n).streams ++ _) (openedStreams o'.w.openDML
        (numStdIndexes o'.w.reservedFrames) 88 0 (o'.w.firstStreams n).streams ++ _)
    rw [hdml, hnum]
    exact allAlike_append hopened hlen _ _
  · intro htrue
    show (if o.w.openDML then 108 + (o.w.firstStreams n).openedHead.strls.length else _) =
      (if o'.w.openDML then 108 + (o'.w.firstStreams n).openedHead.strls.length else _)
    have hd : o'.w.openDML = true := htrue
    rw [hdml, hhead, if_pos hd, if_pos hd]
  · refine h.video.imp ?_ (h.silent hn)
    rintro ⟨hv, hin⟩
    refine ⟨hv, fun k hk => ?_⟩
    have hmem := hin k hk
    rw [hn] at hmem
    exact Finset.mem_range.mp hmem

/-! ## Two recordings side by side -/

/-- **Side by side**: the used object follows the new one. -/
structure Beside (n : Nat) (o o' : AviObject) : Prop where
  declared : o.declared = Finset.range n
  declared' : o'.declared = Finset.range n
  follows : ∃ ss p v r, o.w = o'.w.reused ss p v r ∧ AviWriter.Follows n o'.w ss p v

variable {n : Nat}

theorem Beside.writeData (h : Beside n o o') {stream : UInt8} (hi : stream.toNat < n) {data : Buffer}
    {u' : AviObject} (hroom : o.w.totalFrames < o.w.reservedFrames)
    (hw : o'.writeData stream data = some (true, u')) :
    ∃ u, o.writeData stream data = some (true, u) ∧ Beside n u u' ∧
      u.w.totalFrames = o.w.totalFrames + 1 ∧ u.w.reservedFrames = o.w.reservedFrames := by
  obtain ⟨ss, p, v, r, heq, hfollows⟩ := h.follows
  obtain ⟨hlen, hlen'⟩ := hfollows.streams.length_le
  have hmem : stream.toNat ∈ Finset.range n := Finset.mem_range.mpr hi
  have hlen₁ : n ≤ o.w.streams.length := by
    rw [heq]
    exact hlen
  rw [writeData_eq (by rw [h.declared']; exact hmem) (hi.trans_le hlen')] at hw
  rw [writeData_eq (by rw [h.declared]; exact hmem) (hi.trans_le hlen₁)]
  obtain ⟨⟨ok', w'⟩, hw', hpair⟩ := Option.map_eq_some_iff.mp hw
  obtain ⟨rfl, rfl⟩ := Prod.mk.inj hpair
  have hr : o'.w.totalFrames < r := by
    rw [heq] at hroom
    exact hroom
  obtain ⟨ss₂, hused, hfollows₂, htotal⟩ := hfollows.writeData hi hr hw'
  rw [heq, hused]
  exact ⟨_, rfl, ⟨h.declared, h.declared', ss₂, p, v, r, rfl, hfollows₂⟩, htotal, rfl⟩

/-- What the new object accepts, the used one does, as long as its reservation lasts. -/
theorem Beside.writes (rest : List (UInt8 × Buffer)) (h : Beside n o o')
    (hrest : ∀ write ∈ rest, write.1.toNat < n)
    (hroom : o.w.totalFrames + rest.length ≤ o.w.reservedFrames) {oks : List Bool} {u' : AviObject}
    (htrue : ∀ ok ∈ oks, ok = true) (hw : o'.writes rest = some (oks, u')) :
    ∃ u, o.writes rest = some (oks, u) ∧ Beside n u u' := by
  induction rest generalizing o o' oks with
  | nil =>
    obtain ⟨rfl, rfl⟩ := Prod.mk.inj (Option.some.inj hw)
    exact ⟨o, rfl, h⟩
  | cons write rest ih =>
    obtain ⟨stream, data⟩ := write
    rw [List.length_cons] at hroom
    unfold AviObject.writes at hw ⊢
    obtain ⟨⟨ok, u₁'⟩, hfirst, htail⟩ := Option.bind_eq_some_iff.mp hw
    obtain ⟨⟨oks', u₂'⟩, hnext, hpair⟩ := Option.map_eq_some_iff.mp htail
    obtain ⟨rfl, rfl⟩ := Prod.mk.inj hpair
    obtain rfl := htrue ok List.mem_cons_self
    obtain ⟨u₁, hused, hbeside, htotal, hreserved⟩ :=
      h.writeData (hrest _ List.mem_cons_self) (by omega) hfirst
    obtain ⟨u₂, hused₂, hbeside₂⟩ := ih hbeside
      (fun write hmem => hrest write (List.mem_cons_of_mem _ hmem)) (by omega)
      (fun ok hmem => htrue ok (List.mem_cons_of_mem _ hmem)) hnext
    refine ⟨u₂, ?_, hbeside₂⟩
    rw [hused, Option.bind_some]
    dsimp only
    rw [hused₂]
    rfl

/-- **Closing** leaves the same file. -/
theorem Beside.close (h : Beside n o o') {file : Bytes} {u' : AviObject}
    (hc : o'.close = some (file, u')) : ∃ u, o.close = some (file, u) := by
  obtain ⟨ss, p, v, r, heq, hfollows⟩ := h.follows
  obtain ⟨hlen, hlen'⟩ := hfollows.streams.length_le
  have hcard : o.declared.card = n := by
    rw [h.declared]
    exact Finset.card_range n
  have hcard' : o'.declared.card = n := by
    rw [h.declared']
    exact Finset.card_range n
  have hlen₁ : n ≤ o.w.streams.length := by
    rw [heq]
    exact hlen
  unfold AviObject.close at hc ⊢
  dsimp only at hc ⊢
  rw [hcard', AviWriter.pad_of_le hlen'] at hc
  rw [hcard, AviWriter.pad_of_le hlen₁]
  split at hc
  · cases hc
  · rename_i hdef
    have hindexed : o'.w.openDML = true →
        (o'.w.streams.take n).all AviStream.indexed = true := by
      intro hdml
      rw [hdml, Bool.true_and, Bool.not_eq_true', Bool.not_eq_false] at hdef
      exact hdef
    have hused : ¬ (o.w.openDML && !(o.w.streams.take n).all AviStream.indexed) = true := by
      rw [heq]
      show ¬ (o'.w.openDML && !(ss.take n).all AviStream.indexed) = true
      intro htrue
      rw [Bool.and_eq_true, Bool.not_eq_true'] at htrue
      obtain ⟨hdml, hnot⟩ := htrue
      have hall : (ss.take n).all AviStream.indexed = true := by
        refine List.all_eq_true.mpr ?_
        intro s hs
        obtain ⟨hsame, hget⟩ := List.forall₂_iff_get.mp hfollows.streams.forall₂
        obtain ⟨i, rfl⟩ := List.mem_iff_get.mp hs
        have hi : i.val < (o'.w.streams.take n).length := hsame ▸ i.isLt
        exact (hget i.val i.isLt hi).indexed
          (List.all_eq_true.mp (hindexed hdml) _ (List.get_mem _ _))
      rw [hall] at hnot
      cases hnot
    rw [if_neg hused]
    obtain ⟨hfile, -⟩ := Prod.mk.inj (Option.some.inj hc)
    refine ⟨_, congrArg some (Prod.ext ?_ rfl)⟩
    show (o.w.closeStreams (o.w.streams.take n)).f.bytes = file
    rw [← hfile, ← hfollows.closeStreams hindexed, heq]
    rfl

/-! ## Performances -/

/-- The parts of a performance. -/
theorem perform_cases {plan : AviPlan} {oks : List Bool} {file : Bytes}
    (h : o.perform plan = some (oks, file, o')) :
    ∃ oks₂ o₂, (o.configure plan.settings).open.2.writes plan.writes = some (oks₂, o₂) ∧
      o₂.close = some (file, o') ∧
      oks = o.answers plan.settings ++ [(o.configure plan.settings).open.1] ++ oks₂ ++ [true] := by
  unfold perform at h
  obtain ⟨⟨oks₂, o₂⟩, hwrites, hrest⟩ := Option.bind_eq_some_iff.mp h
  obtain ⟨⟨file', o₃⟩, hclose, hpair⟩ := Option.map_eq_some_iff.mp hrest
  obtain ⟨rfl, hpair'⟩ := Prod.mk.inj hpair
  obtain ⟨rfl, rfl⟩ := Prod.mk.inj hpair'
  exact ⟨oks₂, o₂, hwrites, hclose, rfl⟩

/-- `open` returned `true`. -/
theorem Recorded.openable {plan : AviPlan} (h : Recorded plan o) :
    ∃ n, Openable (new.configure plan.settings) n := by
  obtain ⟨oks, file, hperform, htrue⟩ := h.performed
  obtain ⟨oks₂, o₂, -, -, rfl⟩ := perform_cases hperform
  refine openable_of_true (htrue _ ?_)
  simp

/-- **A recording of nothing** leaves an object with the streams it has declared. -/
theorem Recorded.left {plan : AviPlan} (h : Recorded plan o) (hnil : plan.writes = []) :
    Unwritten o ∧ Settled o.declared o new ∧
      o.declared = (new.configure plan.settings).declared := by
  obtain ⟨n, hn⟩ := h.openable
  obtain ⟨oks, file, hperform, -⟩ := h.performed
  obtain ⟨oks₂, o₂, hwrites, hclose, -⟩ := perform_cases hperform
  rw [hnil] at hwrites
  obtain ⟨-, rfl⟩ := Prod.mk.inj (Option.some.inj hwrites)
  have hunwritten := unwritten_new.configure plan.settings
  refine ⟨hunwritten.open.close hclose, settled_close hclose, ?_⟩
  obtain ⟨-, -, hdecl, -⟩ := close_cases hclose
  rw [hdecl, hn.open hunwritten.reserved]
  show _ ∪ Finset.range (new.configure plan.settings).declared.card = _
  rw [hn.card, hn.declared]
  exact Finset.union_idempotent _

/-- **The second file** and its answers are those of a new object. Both recordings are plans that a
new object carries out in full, so that whatever differs comes from what the first one has left
behind; the files are compared byte by byte and the answers call by call. Every member that `reset`
does not renew has its place in the condition. -/
theorem reuse_like_new (a b : AviPlan) (o o' : AviObject) (ha : Recorded a o) (hb : Recorded b o')
    (hclean : Clean a b o) : LikeNew o b := by
  obtain ⟨hunwritten, hsettled, hdecl⟩ := ha.left hclean.unwritten
  obtain ⟨n, hn⟩ := hb.openable
  obtain ⟨oks, file, hperform, htrue⟩ := hb.performed
  obtain ⟨oks₂, o₂, hwrites, hclose, hoks⟩ := perform_cases hperform
  have hnew := unwritten_new.configure b.settings
  have hused := hunwritten.configure b.settings
  have hboth := hsettled.configure hunwritten.opened rfl b.settings
  -- Both have declared the streams of the second recording.
  have hsame : (o.configure b.settings).declared = Finset.range n := by
    rw [hboth.declared, hdecl, Finset.union_eq_right.mpr hclean.declared]
    exact hn.declared
  -- Without extended indexes a new object has a reservation of its own, and so has the used one.
  have hplain : (new.configure b.settings).w.openDML = false →
      (o.configure b.settings).w.reservedFrames = (new.configure b.settings).w.reservedFrames ∧
        (new.configure b.settings).w.reservedFrames ≠ 0 := by
    intro hdml
    have hpos : (new.configure b.settings).w.reservedFrames ≠ 0 := by
      rcases hn.frames with h | h
      · rw [hdml] at h
        cases h
      · exact h
    exact ⟨hboth.frames.resolve_right hpos, hpos⟩
  have hframes : (o.configure b.settings).w.openDML = true ∨
      (o.configure b.settings).w.reservedFrames ≠ 0 := by
    rw [hclean.openDML]
    cases hdml : (new.configure b.settings).w.openDML with
    | true => exact .inl rfl
    | false =>
      obtain ⟨hsame, hpos⟩ := hplain hdml
      rw [hsame]
      exact .inr hpos
  have hnum : numStdIndexes (o.configure b.settings).w.reservedFrames =
      numStdIndexes (new.configure b.settings).w.reservedFrames := by
    cases hdml : (new.configure b.settings).w.openDML with
    | true => exact hclean.slots hdml
    | false => rw [(hplain hdml).1]
  have hopen := hn.open hnew.reserved
  have hopen' := Openable.open ⟨hsame, hn.some, hframes⟩ hused.reserved
  obtain ⟨ss, p, v, r, heq, hfollows⟩ :=
    hboth.open hused hnew hn.declared hclean.openDML hnum
  have hbeside : Beside n (o.configure b.settings).open.2 (new.configure b.settings).open.2 := by
    rw [hopen, hopen']
    exact ⟨hsame, hn.declared, ss, p, v, r, heq, hfollows⟩
  have hin : ∀ write ∈ b.writes, write.1.toNat < n := by
    intro write hmem
    have := hb.declared write hmem
    rw [hn.declared] at this
    exact Finset.mem_range.mp this
  have hroom : (o.configure b.settings).open.2.w.totalFrames + b.writes.length ≤
      (o.configure b.settings).open.2.w.reservedFrames := by
    rw [hopen']
    show 0 + b.writes.length ≤
      reservation (o.configure b.settings).w.openDML (o.configure b.settings).w.reservedFrames
    rw [Nat.zero_add, hclean.openDML]
    exact hclean.room
  have hoks₂ : ∀ ok ∈ oks₂, ok = true := by
    intro ok hmem
    refine htrue ok ?_
    rw [hoks]
    exact List.mem_append_left _ (List.mem_append_right _ hmem)
  obtain ⟨u, hwrites', hbeside'⟩ := hbeside.writes b.writes hin hroom hoks₂ hwrites
  obtain ⟨u', hclose'⟩ := hbeside'.close hclose
  have hperform' : o.perform b = some (oks, file, u') := by
    unfold perform
    dsimp only
    rw [hwrites', Option.bind_some]
    dsimp only
    rw [hclose', hoks, hopen, hopen', answers_true hunwritten.opened,
      answers_true (o := new) rfl]
    rfl
  unfold LikeNew
  rw [hperform, hperform']
  rfl

/-- Nothing is recorded. -/
def noFrames : AviPlan := ⟨shortSettings, []⟩

/-- One frame is. -/
def oneFrame : AviPlan := ⟨shortSettings, [(0, shortFrame)]⟩

/-- A frame after nothing. -/
theorem reuse_like_new_first : ∃ o, Recorded noFrames o ∧ LikeNew o oneFrame := by
  have hfirst : (new.perform noFrames).map (fun r => (r.1.all id,
      (r.2.2.configure shortSettings).w.openDML,
      (r.2.2.configure shortSettings).w.reservedFrames)) = some (true, false, 1) := by
    decide +kernel
  have hsecond : (new.perform oneFrame).map (fun r => r.1.all id) = some true := by
    decide +kernel
  obtain ⟨⟨oks, file, o⟩, ho, hread⟩ := Option.map_eq_some_iff.mp hfirst
  obtain ⟨⟨oks', file', o'⟩, ho', hread'⟩ := Option.map_eq_some_iff.mp hsecond
  obtain ⟨hall, hsettings⟩ := Prod.mk.inj hread
  obtain ⟨hdml, hframes⟩ := Prod.mk.inj hsettings
  have ha : Recorded noFrames o :=
    ⟨⟨oks, file, ho, List.all_eq_true.mp hall⟩, fun write hmem => by cases hmem⟩
  have hb : Recorded oneFrame o' := by
    refine ⟨⟨oks', file', ho', List.all_eq_true.mp hread'⟩, ?_⟩
    intro write hmem
    obtain rfl := List.mem_singleton.mp hmem
    decide +kernel
  have hnew : (new.configure oneFrame.settings).w.openDML = false := by decide +kernel
  refine ⟨o, ha, reuse_like_new noFrames oneFrame o o' ha hb
    ⟨rfl, fun i hi => hi, hdml.trans hnew.symm, fun h => ?_, ?_⟩⟩
  · rw [hnew] at h
    cases h
  · rw [hnew]
    show 1 ≤ (o.configure shortSettings).w.reservedFrames
    rw [hframes]

/-- A frame after a frame: the old index has both. -/
theorem reuse_like_new_second :
    ¬ ∀ a b o o', Recorded a o → Recorded b o' → LikeNew o b := by
  intro hall
  have htwice : (new.perform oneFrame).map (fun r => (r.1.all id, r.2.1.length,
      (r.2.2.perform oneFrame).map fun r => r.2.1.length)) = some (true, 260, some 276) := by
    decide +kernel
  obtain ⟨⟨oks, file, o⟩, ho, hread⟩ := Option.map_eq_some_iff.mp htwice
  obtain ⟨hoks, hlengths⟩ := Prod.mk.inj hread
  obtain ⟨hlen, hlen'⟩ := Prod.mk.inj hlengths
  have hrecorded : Recorded oneFrame o := by
    refine ⟨⟨oks, file, ho, List.all_eq_true.mp hoks⟩, ?_⟩
    intro write hmem
    obtain rfl := List.mem_singleton.mp hmem
    decide +kernel
  have hlike := hall oneFrame oneFrame o o hrecorded hrecorded
  unfold LikeNew at hlike
  rw [ho] at hlike
  obtain ⟨⟨oks', file', o'⟩, ho', hpair⟩ := Option.map_eq_some_iff.mp hlike
  obtain ⟨-, rfl⟩ := Prod.mk.inj hpair
  rw [ho', Option.map_some] at hlen'
  obtain h₂ := Option.some.inj hlen'
  exact absurd (hlen.symm.trans h₂) (by decide)

end AviObject

end Maixii.Avi
