import Maixii.Avi.AviLifecycle

/-!
# `Avi/LifecycleRuns.lean`: any order of calls

Runs of the functions of the C interface on a writer: `create`, the property calls, `open` (which the
system may refuse), writes, `close` and `destroy`, in any order and any number of times. The disk
takes every write to an open file.
-/

set_option autoImplicit false

namespace Maixii.Avi

open Maixii.Lib

/-- A function of the C interface. -/
inductive LifecycleCall
  | create
  | set (setting : AviSetting)
  /-- `granted` is whether the system opens the file. -/
  | «open» (granted : Bool)
  | writeChunk (stream : UInt8) (data : Buffer)
  | writeFrame (stream : UInt8) (mem : Nat → UInt8)
  | close
  | destroy

/-- The writer, if it is alive; whether a file has been opened since the last `close`; and whether
the assertion has ended the program. -/
structure Lifecycle where
  x : AviHandle
  alive : Bool
  openedSince : Bool
  asserted : Bool

namespace Lifecycle

def start : Lifecycle := ⟨.new, false, false, false⟩

/-- `close`, or the destructor, which calls it and then destroys the stream. -/
def closing (s : Lifecycle) (alive : Bool) : Option Lifecycle :=
  match s.x.close with
  | .ok (_, x) =>
      some ⟨{ x with s := { x.s with isOpen := alive && x.s.isOpen } }, alive, false, false⟩
  | .error .asserted => some { s with asserted := true }
  | .error .undefined => none

/-- One call on a writer that is alive. -/
def call (s : Lifecycle) : LifecycleCall → Option Lifecycle
  | .create => none
  | .set setting => some { s with x := { s.x with o := (s.x.o.set setting).2 } }
  | .open granted =>
      let (ok, x) := s.x.open granted
      some { s with
        x := x
        openedSince := ok || s.openedSince }
  | .writeChunk stream data => (s.x.writeData stream data).map fun (_, x) => { s with x := x }
  | .writeFrame stream mem => (s.x.writeFrame stream mem).map fun (_, x) => { s with x := x }
  | .close => s.closing true
  | .destroy => s.closing false

def step (s : Lifecycle) (c : LifecycleCall) : Option Lifecycle :=
  if s.asserted then none
  else if s.alive then s.call c
  else
    match c with
    | .create => some ⟨.new, true, false, false⟩
    | _ => none

def system : System Lifecycle LifecycleCall := System.ofStep (fun s => s = start) step

/-! ## The property and the condition -/

/-- A call that opens no file. -/
def Idle : LifecycleCall → Prop
  | .create | .open _ => False
  | _ => True

/-- The assertion has not failed; and as long as no file has been opened since the last `close`,
nothing is written, and the file that was finished stays what it is. -/
structure Kept (s : Lifecycle) : Prop where
  unasserted : s.asserted = false
  finished : s.openedSince = false → ∀ c s', Idle c → s.step c = some s' →
    s'.x.s.file.bytes = s.x.s.file.bytes

end Lifecycle

/-- When `close` may be called: it returns at once, or the file is open and good, or there is no
standard index to be written. -/
def AviHandle.Closable (x : AviHandle) : Prop :=
  x.s.bad = true ∨ (x.s.isOpen = true ∧ x.s.good = true) ∨ x.o.w.openDML = false ∨
    ∀ st ∈ x.counted, st.stdIndexEntries = []

instance (x : AviHandle) : Decidable x.Closable := inferInstanceAs (Decidable (_ ∨ _))

namespace Lifecycle

/-- The condition: `close` and the destructor are called when they may be. -/
def Settled (s : Lifecycle) : LifecycleCall → Prop
  | .close | .destroy => s.x.Closable
  | _ => True

instance (s : Lifecycle) (c : LifecycleCall) : Decidable (s.Settled c) := by
  cases c <;> unfold Settled <;> infer_instance

end Lifecycle

/-! ## The calls are calm -/

section Calm

open OutStream

variable {w w' : AviWriter} {s s' t : OutStream} {x x' : AviHandle}

theorem calm_finishOldOn (w : AviWriter) (s : OutStream) : Calm s (w.finishOldOn s) := by
  have hsize := ((Calm.refl s).seekEnd.seek w.posMoviListSize).write
    (le 4 (s.seekEnd.tell - w.posMoviListSize - 4))
  have hindex := (hsize.seekEnd.clear.write (fourcc "idx1").bytes).write
    (le 4 (w.oldIndexEntries.length * sizeofOldIndex))
  have hentries := hindex.foldl (fun u (e : AVIOLDINDEX) => (Calm.refl u).write e.toBytes)
    w.oldIndexEntries
  exact (hentries.seekEnd.seek w.posRIFFSize).write _

theorem calm_finishAvixOn (w : AviWriter) (s : OutStream) : Calm s (w.finishAvixOn s) := by
  have hriff := ((Calm.refl s).seekEnd.seek w.posRIFFSize).write
    (le 4 (s.seekEnd.tell - w.posRIFFSize - 4))
  exact (hriff.seek w.posMoviListSize).write _

theorem calm_beginSectionOn (w : AviWriter) (s : OutStream) : Calm s (w.beginSectionOn s).2 := by
  have hriff := (Calm.refl s).seekEnd.write (fourcc "RIFF").bytes
  have hlist := ((hriff.write (le 4 0)).write (fourcc "AVIX").bytes).write (fourcc "LIST").bytes
  exact (hlist.write (le 4 0)).write (fourcc "movi").bytes

theorem calm_newSectionOn (h : w.newSectionOn s = some (w', s')) : Calm s s' := by
  have key : ∀ (v : AviWriter) (t : OutStream), Calm s t →
      (if 32 ≤ v.message.length then none else some (v.beginSectionOn t)) = some (w', s') →
      Calm s s' := by
    intro v t ht hv
    obtain ⟨-, hv⟩ := Option.ite_none_left_eq_some.mp hv
    have hs := congrArg Prod.snd (Option.some.inj hv)
    dsimp only at hs
    rw [← hs]
    exact ht.trans (calm_beginSectionOn v t)
  unfold AviWriter.newSectionOn at h
  by_cases hidx : w.riffIdx = 0
  · rw [if_pos hidx] at h
    exact key _ _ (calm_finishOldOn w s) h
  · rw [if_neg hidx] at h
    exact key _ _ (calm_finishAvixOn w s) h

/-- **`write_data`** neither opens nor closes. -/
theorem calm_writeData {stream : UInt8} {data : Buffer} {ok : Bool}
    (h : x.writeData stream data = some (ok, x')) : Calm x.s x'.s := by
  unfold AviHandle.writeData at h
  split at h
  · obtain ⟨-, rfl⟩ := Prod.mk.inj (Option.some.inj h)
    exact .refl _
  · split at h
    · obtain ⟨-, rfl⟩ := Prod.mk.inj (Option.some.inj h)
      exact .refl _
    · obtain ⟨st, -, h⟩ := Option.bind_eq_some_iff.mp h
      obtain ⟨⟨w, s⟩, hsection, h⟩ := Option.map_eq_some_iff.mp h
      obtain ⟨-, rfl⟩ := Prod.mk.inj h
      have hcalm : Calm x.s s := by
        split at hsection
        · exact calm_newSectionOn hsection
        · obtain ⟨-, rfl⟩ := Prod.mk.inj (Option.some.inj hsection)
          exact .refl _
      exact ((hcalm.write _).write _).write _

theorem calm_writeIndexesOn {idxs : List AVISTDINDEX} {entries : List (Int × List AVISTDINDEX_ENTRY)}
    {supers : List AVISUPERINDEX_ENTRY} (h : writeIndexesOn idxs s entries = .ok (t, supers)) :
    Calm s t := by
  induction entries generalizing s t supers with
  | nil =>
    obtain ⟨rfl, -⟩ := Prod.mk.inj (Except.ok.inj h)
    exact .refl s
  | cons p rest ih =>
    obtain ⟨k, entries⟩ := p
    rw [writeIndexesOn] at h
    split at h
    · cases h
    · dsimp only at h
      split at h
      · cases h
      · cases hrest : writeIndexesOn idxs _ rest with
        | error e =>
          rw [hrest] at h
          cases h
        | ok r =>
          obtain ⟨u, supers'⟩ := r
          rw [hrest] at h
          obtain ⟨rfl, -⟩ := Prod.mk.inj (Except.ok.inj h)
          exact (((Calm.refl s).seekEnd.write _).write _).trans (ih hrest)

theorem calm_closeStreamOn {st : AviStream} (h : closeStreamOn s st = .ok t) : Calm s t := by
  unfold closeStreamOn at h
  cases hidx : writeIndexesOn st.stdIndexes s st.stdIndexEntries with
  | error e =>
    rw [hidx] at h
    cases h
  | ok r =>
    obtain ⟨u, supers⟩ := r
    rw [hidx] at h
    obtain rfl := Except.ok.inj h
    exact (((calm_writeIndexesOn hidx).seek _).write _).foldl (fun u e => (Calm.refl u).write _) _

theorem calm_closeStreamsOn {ss : List AviStream} (h : ss.foldlM closeStreamOn s = .ok t) :
    Calm s t := by
  induction ss generalizing s with
  | nil =>
    obtain rfl := Except.ok.inj h
    exact .refl s
  | cons st ss ih =>
    rw [List.foldlM_cons] at h
    cases hst : closeStreamOn s st with
    | error e =>
      rw [hst] at h
      cases h
    | ok u =>
      rw [hst] at h
      exact (calm_closeStreamOn hst).trans (ih h)

theorem calm_finishOn (w : AviWriter) (ss : List AviStream) (s : OutStream) :
    Calm s (w.finishOn ss s) := by
  have hheaders := (Calm.refl s).foldl (fun u (st : AviStream) =>
    ((Calm.refl u).seek st.posStreamHeader).write (w.closedHeader st).toBytes) ss
  unfold AviWriter.finishOn
  dsimp only
  split
  · exact hheaders.trans (calm_finishOldOn w _)
  · exact ((((hheaders.seekEnd.seek w.posMoviListSize).write _).seekEnd).seek w.posRIFFSize).write _

/-- **`close`** returns at once, or does calm things and closes the file. -/
theorem close_cases {ok : Bool} (h : x.close = .ok (ok, x')) :
    (x.s.bad = true ∧ x' = x) ∨ ∃ t, Calm x.s t ∧ x'.s = t.closeFile := by
  unfold AviHandle.close at h
  split at h
  · rename_i hbad
    obtain ⟨-, rfl⟩ := Prod.mk.inj (Except.ok.inj h)
    exact .inl ⟨hbad, rfl⟩
  · right
    dsimp only at h
    generalize hindexed : (if (x.o.w.pad x.o.declared.card).openDML = true then _ else _) = r at h
    cases r with
    | error e => cases h
    | ok t =>
      obtain ⟨-, rfl⟩ := Prod.mk.inj (Except.ok.inj h)
      refine ⟨_, ?_, rfl⟩
      refine Calm.trans ?_ (calm_finishOn _ _ _)
      have hhead : Calm x.s ((x.s.seek (x.o.w.pad x.o.declared.card).posAviMainHeader).write
          (x.o.w.pad x.o.declared.card).avimHeader.toBytes) :=
        ((Calm.refl _).seek _).write _
      split at hindexed
      · exact ((hhead.seek _).write _).trans (calm_closeStreamsOn hindexed)
      · obtain rfl := Except.ok.inj hindexed
        exact hhead

end Calm

/-! ## The assertion -/

section Assertion

open OutStream

variable {s : OutStream} {x : AviHandle}

/-- On an open stream the assertion holds. -/
theorem writeIndexesOn_good (idxs : List AVISTDINDEX) (f : OutFile)
    (entries : List (Int × List AVISTDINDEX_ENTRY)) :
    (∃ g supers, writeIndexesOn idxs (opened f) entries = .ok (opened g, supers)) ∨
      writeIndexesOn idxs (opened f) entries = .error .undefined := by
  induction entries generalizing f with
  | nil => exact .inl ⟨f, [], rfl⟩
  | cons p rest ih =>
    obtain ⟨k, entries⟩ := p
    rw [writeIndexesOn]
    split
    · exact .inr rfl
    · dsimp only
      rw [opened_seekEnd, opened_good, Bool.not_true, if_neg Bool.false_ne_true, opened_write,
        opened_write]
      rcases ih ((f.seekEnd.write _).write _) with ⟨g, supers, hok⟩ | herror
      · rw [hok]
        exact .inl ⟨g, _, rfl⟩
      · rw [herror]
        exact .inr rfl

theorem closeStreamsOn_good (f : OutFile) (ss : List AviStream) :
    (∃ g, ss.foldlM closeStreamOn (opened f) = .ok (opened g)) ∨
      ss.foldlM closeStreamOn (opened f) = .error .undefined := by
  induction ss generalizing f with
  | nil => exact .inl ⟨f, rfl⟩
  | cons st ss ih =>
    rw [List.foldlM_cons]
    unfold closeStreamOn
    rcases writeIndexesOn_good st.stdIndexes f st.stdIndexEntries with ⟨g, supers, hok⟩ | herror
    · rw [hok]
      simp only [Except.map, opened_seek, opened_write, opened_foldl]
      exact ih _
    · rw [herror]
      exact .inr rfl

/-- Without an index there is no assertion. -/
theorem closeStreamOn_empty (s : OutStream) {st : AviStream} (h : st.stdIndexEntries = []) :
    closeStreamOn s st = .ok ((s.seek st.posOdmlSuperIdx).write st.superIdx.toBytes) := by
  unfold closeStreamOn
  rw [h]
  rfl

theorem closeStreamsOn_empty (s : OutStream) {ss : List AviStream}
    (h : ∀ st ∈ ss, st.stdIndexEntries = []) : ∃ t, ss.foldlM closeStreamOn s = .ok t := by
  induction ss generalizing s with
  | nil => exact ⟨s, rfl⟩
  | cons st ss ih =>
    obtain ⟨hst, hss⟩ := List.forall_mem_cons.mp h
    rw [List.foldlM_cons, closeStreamOn_empty s hst]
    exact ih _ hss

/-- **On a stream that has failed, the first index is where the assertion fails.** -/
theorem closeStreamsOn_failed {ss : List AviStream} (hs : s.fail = true)
    (hidx : ss.all AviStream.indexed = true) (h : ∃ st ∈ ss, st.stdIndexEntries ≠ []) :
    ss.foldlM closeStreamOn s = .error .asserted := by
  induction ss generalizing s with
  | nil =>
    obtain ⟨st, hst, -⟩ := h
    exact absurd hst List.not_mem_nil
  | cons st ss ih =>
    simp only [List.all_cons, Bool.and_eq_true] at hidx
    rw [List.foldlM_cons]
    by_cases hst : st.stdIndexEntries = []
    · rw [closeStreamOn_empty s hst, seek_of_fail hs]
      refine ih (fail_write hs _) hidx.2 ?_
      obtain ⟨st', hst', hne⟩ := h
      rcases List.mem_cons.mp hst' with rfl | hmem
      · exact absurd hst hne
      · exact ⟨st', hmem, hne⟩
    · obtain ⟨⟨k, entries⟩, rest, heq⟩ := List.exists_cons_of_ne_nil hst
      have hkey := hidx.1
      unfold AviStream.indexed at hkey
      rw [heq, List.all_cons, Bool.and_eq_true, decide_eq_true_eq] at hkey
      unfold closeStreamOn
      rw [heq, writeIndexesOn, if_neg (not_not.mpr hkey.1)]
      dsimp only
      rw [seekEnd_of_fail hs]
      unfold good
      rw [hs]
      rfl

/-- **When `close` may be called, the assertion holds.** -/
theorem close_settled (h : x.Closable) : x.close ≠ .error .asserted := by
  unfold AviHandle.close
  split
  · simp
  · rename_i hbad
    have hnot : x.s.bad ≠ true := hbad
    dsimp only
    generalize hindexed : (if (x.o.w.pad x.o.declared.card).openDML = true then _ else _) = r
    have hr : r ≠ .error .asserted := by
      rw [← hindexed]
      rcases h with h | ⟨ho, hg⟩ | hdml | hempty
      · exact absurd h hnot
      · rw [eq_opened ho hg]
        simp only [opened_seek, opened_write]
        split
        · intro herror
          rcases closeStreamsOn_good _ x.counted with ⟨g, hok⟩ | hundef
          · rw [herror] at hok
            cases hok
          · rw [herror] at hundef
            cases hundef
        · simp
      · have hoff : ¬ (x.o.w.pad x.o.declared.card).openDML = true := by
          show ¬ x.o.w.openDML = true
          rw [hdml]
          exact Bool.false_ne_true
        rw [if_neg hoff]
        simp
      · split
        · obtain ⟨t, hok⟩ := closeStreamsOn_empty
            ((((x.s.seek _).write _).seek _).write _) hempty
          rw [hok]
          simp
        · simp
    cases r with
    | ok t => simp [Except.map]
    | error e =>
      intro herror
      obtain rfl := Except.error.inj herror
      exact hr rfl

/-- **The assertion of `close` fails exactly when `close` may not be called.** -/
theorem close_asserted_iff
    (hidx : x.o.w.openDML = true → x.counted.all AviStream.indexed = true) :
    x.close = .error .asserted ↔ ¬ x.Closable := by
  refine ⟨fun h hc => close_settled hc h, fun h => ?_⟩
  unfold AviHandle.Closable at h
  simp only [not_or, Bool.not_eq_false, not_forall] at h
  obtain ⟨hbad, hopen, hdml, st, hst, hne⟩ := h
  have hdml' : (x.o.w.pad x.o.declared.card).openDML = true := hdml
  unfold AviHandle.close
  rw [if_neg hbad]
  dsimp only
  rw [if_pos hdml']
  have hfail := fail_write (fail_seek hopen (x.o.w.pad x.o.declared.card).posAviMainHeader)
    (x.o.w.pad x.o.declared.card).avimHeader.toBytes
  rw [seek_of_fail hfail, closeStreamsOn_failed (fail_write hfail _) (hidx hdml) ⟨st, hst, hne⟩]
  rfl

end Assertion

/-! ## Runs -/

namespace Lifecycle

open OutStream

variable {s s' : Lifecycle} {c : LifecycleCall}

/-- The invariant: an open file was opened since the last `close`, and its stream is not bad. -/
structure Inv (s : Lifecycle) : Prop where
  opened : s.x.s.isOpen = true → s.openedSince = true
  bad : s.x.s.isOpen = true → s.x.s.badbit = false

theorem closeFile_isOpen (t : OutStream) : t.closeFile.isOpen = false := by
  unfold closeFile
  split
  · rfl
  · rename_i h
    simpa using h

/-- A call is taken by a writer that is alive, apart from `create`. -/
theorem step_cases (h : s.step c = some s') :
    s.asserted = false ∧ ((c = .create ∧ s' = ⟨.new, true, false, false⟩) ∨ s.call c = some s') := by
  unfold step at h
  split at h
  · cases h
  · rename_i ha
    rw [Bool.not_eq_true] at ha
    refine ⟨ha, ?_⟩
    split at h
    · exact .inr h
    · cases c with
      | create =>
        obtain rfl := Option.some.inj h
        exact .inl ⟨rfl, rfl⟩
      | _ => cases h

/-- **`close` and the destructor**: nothing is written if the file is not open, and it is not open
any more. -/
theorem closing_cases {alive : Bool} (hinv : s.Inv) (h : s.closing alive = some s') :
    (s.x.close = .error .asserted ∧ s' = { s with asserted := true }) ∨
      (s'.x.s.isOpen = false ∧ s'.asserted = false ∧
        (s.x.s.isOpen = false → s'.x.s.file = s.x.s.file)) := by
  unfold closing at h
  cases hclose : s.x.close with
  | error e =>
    rw [hclose] at h
    cases e with
    | asserted =>
      obtain rfl := Option.some.inj h
      exact .inl ⟨rfl, rfl⟩
    | undefined => cases h
  | ok r =>
    obtain ⟨ok, x⟩ := r
    rw [hclose] at h
    obtain rfl := Option.some.inj h
    right
    rcases close_cases hclose with ⟨hbad, rfl⟩ | ⟨t, hcalm, ht⟩
    · have hopen : s.x.s.isOpen = false := by
        by_contra hopen
        rw [Bool.not_eq_false] at hopen
        have hgood := hinv.bad hopen
        unfold bad at hbad
        rw [hgood] at hbad
        cases hbad
      refine ⟨?_, rfl, fun _ => rfl⟩
      show (alive && s.x.s.isOpen) = false
      rw [hopen, Bool.and_false]
    · refine ⟨?_, rfl, fun hopen => ?_⟩
      · show (alive && x.s.isOpen) = false
        rw [ht, closeFile_isOpen, Bool.and_false]
      · show x.s.file = s.x.s.file
        rw [ht, ← hcalm.file hopen]
        unfold closeFile
        split <;> rfl

/-- **`open`** leaves the stream as it was, or sets `failbit`, or opens a file. -/
theorem open_cases (x : AviHandle) (granted : Bool) :
    x.open granted = (false, x) ∨
      (x.open granted).2.s = { x.s with failbit := true } ∨
      ((x.open granted).1 = true ∧ ∃ f, (x.open granted).2.s = OutStream.opened f) := by
  unfold AviHandle.open
  dsimp only
  split
  · exact .inl rfl
  · right
    unfold openFile
    split
    · left
      rfl
    · right
      exact ⟨rfl, _, rfl⟩

/-- **One call.** -/
theorem inv_step (h : s.Inv) (hstep : s.step c = some s') : s'.Inv := by
  obtain ⟨-, ⟨-, rfl⟩ | hcall⟩ := step_cases hstep
  · exact ⟨fun h => Bool.noConfusion h, fun h => Bool.noConfusion h⟩
  · have hclosing : ∀ {alive : Bool}, s.closing alive = some s' → s'.Inv := by
      intro alive hc
      rcases closing_cases h hc with ⟨-, rfl⟩ | ⟨hopen, -, -⟩
      · exact ⟨h.opened, h.bad⟩
      · refine ⟨fun ho => ?_, fun ho => ?_⟩
        · rw [hopen] at ho
          cases ho
        · rw [hopen] at ho
          cases ho
    have hcalm : ∀ {x : AviHandle}, Calm s.x.s x.s → Inv { s with x := x } := by
      intro x hx
      refine ⟨fun ho => h.opened (hx.isOpen ▸ ho), fun ho => ?_⟩
      have hs : s.x.s.isOpen = true := hx.isOpen ▸ ho
      by_contra hb
      rw [Bool.not_eq_false] at hb
      have hbad := hx.bad hs hb
      rw [h.bad hs] at hbad
      cases hbad
    cases c with
    | create => cases hcall
    | set setting =>
      obtain rfl := Option.some.inj hcall
      exact ⟨h.opened, h.bad⟩
    | «open» granted =>
      have heq : s.call (.open granted) = some { s with
          x := (s.x.open granted).2
          openedSince := (s.x.open granted).1 || s.openedSince } := rfl
      rw [heq] at hcall
      have hopen := open_cases s.x granted
      generalize s.x.open granted = r at hcall hopen
      obtain ⟨ok, x⟩ := r
      obtain rfl := Option.some.inj hcall
      rcases hopen with hsame | hfail | ⟨rfl, f, hf⟩
      · obtain ⟨rfl, rfl⟩ := Prod.mk.inj hsame
        exact ⟨h.opened, h.bad⟩
      · dsimp only at hfail
        have hs : x.s.isOpen = s.x.s.isOpen := by rw [hfail]
        refine ⟨fun ho => ?_, fun ho => ?_⟩
        · show (ok || s.openedSince) = true
          rw [h.opened (hs.symm.trans ho), Bool.or_true]
        · have hb : x.s.badbit = s.x.s.badbit := by rw [hfail]
          exact hb.trans (h.bad (hs.symm.trans ho))
      · exact ⟨fun _ => rfl, fun _ => congrArg OutStream.badbit hf⟩
    | writeChunk stream data =>
      obtain ⟨⟨ok, x⟩, hw, rfl⟩ := Option.map_eq_some_iff.mp hcall
      exact hcalm (calm_writeData hw)
    | writeFrame stream mem =>
      obtain ⟨⟨ok, x⟩, hw, rfl⟩ := Option.map_eq_some_iff.mp hcall
      exact hcalm (calm_writeData hw)
    | close => exact hclosing hcall
    | destroy => exact hclosing hcall

/-- **As long as no file is open**, a call that opens none leaves the finished file alone. -/
theorem file_step (h : s.Inv) (hopened : s.openedSince = false) (hidle : Idle c)
    (hstep : s.step c = some s') : s'.x.s.file = s.x.s.file := by
  have hopen : s.x.s.isOpen = false := by
    by_contra hopen
    rw [Bool.not_eq_false] at hopen
    rw [h.opened hopen] at hopened
    cases hopened
  have hclosing : ∀ {alive : Bool}, s.closing alive = some s' → s'.x.s.file = s.x.s.file := by
    intro alive hc
    rcases closing_cases h hc with ⟨-, rfl⟩ | ⟨-, -, hfile⟩
    · rfl
    · exact hfile hopen
  obtain ⟨-, ⟨rfl, -⟩ | hcall⟩ := step_cases hstep
  · exact hidle.elim
  · cases c with
    | create => exact hidle.elim
    | «open» granted => exact hidle.elim
    | set setting =>
      obtain rfl := Option.some.inj hcall
      rfl
    | writeChunk stream data =>
      obtain ⟨⟨ok, x⟩, hw, rfl⟩ := Option.map_eq_some_iff.mp hcall
      exact (calm_writeData hw).file hopen
    | writeFrame stream mem =>
      obtain ⟨⟨ok, x⟩, hw, rfl⟩ := Option.map_eq_some_iff.mp hcall
      exact (calm_writeData hw).file hopen
    | close => exact hclosing hcall
    | destroy => exact hclosing hcall

/-- A guarded call does not run into the assertion. -/
theorem asserted_step (h : s.Inv) (hg : s.Settled c) (hstep : s.step c = some s') :
    s'.asserted = false := by
  obtain ⟨ha, ⟨-, rfl⟩ | hcall⟩ := step_cases hstep
  · rfl
  · have hclosing : ∀ {alive : Bool}, s.x.Closable → s.closing alive = some s' →
        s'.asserted = false := by
      intro alive hclosable hc
      rcases closing_cases h hc with ⟨hassert, -⟩ | ⟨-, hassert, -⟩
      · exact absurd hassert (close_settled hclosable)
      · exact hassert
    cases c with
    | create => cases hcall
    | set setting =>
      obtain rfl := Option.some.inj hcall
      exact ha
    | «open» granted =>
      obtain rfl := Option.some.inj hcall
      exact ha
    | writeChunk stream data =>
      obtain ⟨⟨ok, x⟩, -, rfl⟩ := Option.map_eq_some_iff.mp hcall
      exact ha
    | writeFrame stream mem =>
      obtain ⟨⟨ok, x⟩, -, rfl⟩ := Option.map_eq_some_iff.mp hcall
      exact ha
    | close => exact hclosing hg hcall
    | destroy => exact hclosing hg hcall

/-- **In every run in which `close` and the destructor are called when they may be**, the assertion
holds, and nothing is written without a file that was opened. The second part is said of the step to
come, for every call but the two that begin something: between a `close` and the next `open` the
bytes of the file that was finished stay what they are, also when the writer is destroyed. -/
theorem lifecycle_kept (s : Lifecycle) (h : Reach system Settled s) : Kept s := by
  have hboth : s.Inv ∧ s.asserted = false := by
    refine h.inv (P := fun s => s.Inv ∧ s.asserted = false) ?_ ?_
    · rintro s rfl
      exact ⟨⟨fun h => Bool.noConfusion h, fun h => Bool.noConfusion h⟩, rfl⟩
    · rintro s c s' ⟨hinv, -⟩ hg hstep
      exact ⟨inv_step hinv hstep, asserted_step hinv hg hstep⟩
  refine ⟨hboth.2, fun hopened c s' hidle hstep => ?_⟩
  rw [file_step hboth.1 hopened hidle hstep]

/-- A video of one frame, with the extended index. -/
def oneFrame : List LifecycleCall :=
  [.create, .set (.setVideoProperties 0 ⟨16, 16, fourcc "MJPG", 4, 40000, 100, 1, 25⟩),
    .set (.setFrameCount 0 1), .open true, .writeChunk 0 shortFrame, .close]

theorem system_start : system.start start := rfl

/-- It is recorded, and closed once. -/
theorem lifecycle_kept_once : ∃ s, s.x.o.w.totalFrames = 1 ∧ Kept s := by
  obtain ⟨s, hs, hg⟩ := reach_of_runFrom step Settled start oneFrame
    (fun s => s.x.o.w.totalFrames) 1 system_start (by decide +kernel)
  exact ⟨s, hg, lifecycle_kept s hs⟩

/-- The destructor calls `close` once more. -/
theorem lifecycle_asserted : ∃ s, Reach system (anyStep _ _) s ∧ s.asserted = true := by
  obtain ⟨s, hs, hg⟩ := reach_of_runFrom step (anyStep _ _) start (oneFrame ++ [.destroy])
    (fun s => s.asserted) true system_start (by decide +kernel)
  exact ⟨s, hs, hg⟩

end Lifecycle

end Maixii.Avi
