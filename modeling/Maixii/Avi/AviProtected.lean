import Maixii.Avi.AviObject
import Maixii.Lib.Run

/-!
# `Avi/AviProtected.lean`: calls that come too late

Every configuration call asks `m_opened` first, and nothing in the source ever sets it: an open file
is configured anew at any time. `write_data` does not ask at all whether its stream was declared.
What protects a recording from such a write is only that its reservation is used up
(`refused_calls`).
-/

set_option autoImplicit false

namespace Maixii.Avi

open Maixii.Lib

/-- A call other than `open` and `close`. -/
inductive AviCall
  | set (setting : AviSetting)
  | writeData (stream : UInt8) (data : Buffer)
  | writeFrame (stream : UInt8) (mem : Nat → UInt8)

namespace AviObject

def call (o : AviObject) : AviCall → Option (Bool × AviObject)
  | .set setting => some (o.set setting)
  | .writeData stream data => o.writeData stream data
  | .writeFrame stream mem => o.writeFrame stream mem

/-- What an open file should refuse: any configuration, and streams that were not declared. -/
def Refusable (o : AviObject) : AviCall → Prop
  | .set _ => True
  | .writeData stream _ => stream.toNat ∉ o.declared
  | .writeFrame stream _ => stream.toNat ∉ o.declared

/-- A call of `write_data` that returns `true`, on a stream that was declared. -/
def accept (o : AviObject) (write : UInt8 × Buffer) : Option AviObject :=
  if write.1.toNat ∈ o.declared then
    match o.writeData write.1 write.2 with
    | some (true, o') => some o'
    | _ => none
  else none

/-- Recordings in progress, from an `open` that returned `true`. -/
def inProgress : System AviObject (UInt8 × Buffer) :=
  System.ofStep (fun o => ∃ settings, (new.configure settings).open = (true, o)) accept

/-- The file that the remaining writes and `close` make. -/
def fileAfter (o : AviObject) (rest : List (UInt8 × Buffer)) : Option Bytes :=
  (o.writes rest).bind fun r => r.2.close.map Prod.fst

/-- **Protected**: the call returns `false`, and the file becomes what it would have become. -/
def Protected (o : AviObject) (c : AviCall) : Prop :=
  ∃ o', o.call c = some (false, o') ∧
    ∀ rest, (∀ write ∈ rest, write.1.toNat ∈ o.declared) → o'.fileAfter rest = o.fileAfter rest

/-- The condition: the call is a write, and no frame is left in the reservation. -/
def UsedUp (o : AviObject) : AviCall → Prop
  | .set _ => False
  | .writeData _ _ => o.w.reservedFrames ≤ o.w.totalFrames
  | .writeFrame _ _ => o.w.reservedFrames ≤ o.w.totalFrames

variable {o o' : AviObject}

/-! ## What the calls answer -/

theorem accept_cases {write : UInt8 × Buffer} (h : o.accept write = some o') :
    write.1.toNat ∈ o.declared ∧ o.writeData write.1 write.2 = some (true, o') := by
  unfold accept at h
  split at h
  · rename_i hdecl
    split at h
    · rename_i heq
      obtain rfl := Option.some.inj h
      exact ⟨hdecl, heq⟩
    · cases h
  · cases h

theorem opened_inProgress {G : AviObject → UInt8 × Buffer → Prop} (hr : Reach inProgress G o) :
    o.opened = false := by
  refine hr.inv (P := fun o => o.opened = false) ?_ ?_
  · rintro o ⟨settings, hopen⟩
    have hsame := (new.configure settings).open_opened
    rw [hopen] at hsame
    exact hsame.trans (new.configure_opened settings)
  · intro o write o' h _ hs
    exact (writeData_opened (accept_cases hs).2).trans h

theorem writeData_usedUp (h : o.w.reservedFrames ≤ o.w.totalFrames) (stream : UInt8)
    (data : Buffer) : o.writeData stream data = some (false, o) := if_pos h

/-- A write that has a frame left is carried out, whatever stream it is on. -/
theorem writeData_true {stream : UInt8} {data : Buffer} {ok : Bool}
    (hroom : ¬ o.w.reservedFrames ≤ o.w.totalFrames)
    (h : o.writeData stream data = some (ok, o')) : ok = true := by
  unfold writeData AviWriter.writeData at h
  rw [if_neg hroom] at h
  obtain ⟨r, hr, heq⟩ := Option.map_eq_some_iff.mp h
  have hok : r.1 = true := by
    split at hr
    · rename_i hfull
      exact absurd hfull hroom
    · obtain ⟨s, -, hs⟩ := Option.bind_eq_some_iff.mp hr
      obtain ⟨w, -, rfl⟩ := Option.map_eq_some_iff.mp hs
      rfl
  obtain ⟨rfl, -⟩ := Prod.mk.inj heq
  exact hok

/-- A call that changes nothing is harmless. -/
theorem Protected.of_unchanged {c : AviCall} (h : o.call c = some (false, o)) : Protected o c :=
  ⟨o, h, fun _ _ => rfl⟩

/-- **Calls on an open file** that should be refused are, if they are writes and nothing is left of
the reservation; all others are carried out. That a call was refused is not only its answer: the
file must become what the remaining calls would have made of it, whatever these are, so a call that
changes a member for later counts as carried out. -/
theorem refused_calls (o : AviObject) (hr : Reach inProgress (anyStep _ _) o) (c : AviCall)
    (hc : o.Refusable c) : Protected o c ↔ UsedUp o c := by
  have hopened := opened_inProgress hr
  constructor
  · rintro ⟨o', hcall, -⟩
    cases c with
    | set setting =>
      have hok := set_true hopened setting
      rw [Option.some.inj hcall] at hok
      cases hok
    | writeData stream data =>
      by_contra hroom
      cases writeData_true hroom hcall
    | writeFrame stream mem =>
      by_contra hroom
      cases writeData_true hroom hcall
  · intro hused
    cases c with
    | set setting => exact hused.elim
    | writeData stream data => exact .of_unchanged (writeData_usedUp hused stream data)
    | writeFrame stream mem => exact .of_unchanged (writeData_usedUp hused stream _)

def shortObject : AviObject := (new.configure shortSettings).open.2

theorem inProgress_start : inProgress.start shortObject := ⟨shortSettings, by decide +kernel⟩

/-- When the one frame is written, stream 1 is refused. -/
theorem refused_calls_full : ∃ o, o.w.totalFrames = 1 ∧ Protected o (.writeData 1 shortFrame) := by
  have hwritten : (runFrom accept (anyStep _ _) shortObject [(0, shortFrame)]).map
      (fun o => (o.w.totalFrames, o.w.reservedFrames, decide (1 ∈ o.declared))) =
        some (1, 1, false) := by
    decide +kernel
  obtain ⟨o, hr, ho⟩ := reach_of_runFrom accept (anyStep _ _) shortObject [(0, shortFrame)]
    (fun o => (o.w.totalFrames, o.w.reservedFrames, decide (1 ∈ o.declared))) (1, 1, false)
    inProgress_start hwritten
  obtain ⟨htotal, hrest⟩ := Prod.mk.inj ho
  obtain ⟨hreserved, hdecl⟩ := Prod.mk.inj hrest
  exact ⟨o, htotal, (refused_calls o hr (.writeData 1 shortFrame) (of_decide_eq_false hdecl)).mpr
    (hreserved.trans htotal.symm).le⟩

/-- Before, it is not. -/
theorem refused_calls_early :
    ¬ ∀ o c, Reach inProgress (anyStep _ _) o → o.Refusable c → Protected o c := by
  intro hall
  have hnot : shortObject.Refusable (.writeData 1 shortFrame) := by
    show ¬ 1 ∈ shortObject.declared
    decide +kernel
  obtain ⟨o', hcall, -⟩ := hall shortObject _ (.start inProgress_start) hnot
  have htrue : (shortObject.writeData 1 shortFrame).map Prod.fst = some true := by decide +kernel
  rw [show shortObject.writeData 1 shortFrame = some (false, o') from hcall] at htrue
  cases htrue

end AviObject

end Maixii.Avi
