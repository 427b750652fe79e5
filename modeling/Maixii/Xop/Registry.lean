import Maixii.Lib.Bytes
import Maixii.Lib.Run
import Maixii.Lib.Table

/-!
# `Xop/Registry.lean`: sessions by suffix and by id

The two maps of `xop/RtspServer.cpp`. `rtsp_suffix_map_` leads from a suffix to an id and
`media_sessions_` from an id to the session, and the session itself keeps its id and its suffix once
more. `AddSession` and `RemoveSession` keep the maps inverse to each other by asking the session for
its suffix; so they do **as long as no session is renamed while it is registered** and no id is
given out twice (`registry_kept`). `SetRtspUrlSuffix` changes the session and neither map
(`registry_renamed`), and what `RemoveSession` then leaves behind makes a lookup add an entry
(`lookup_adds`).
-/

set_option autoImplicit false

namespace Maixii.Xop

open Maixii.Lib

/-! ## The model -/

/-- What the registry asks a `MediaSession` for. -/
structure SessionObject where
  sessionId : UInt32
  suffix : Bytes
  deriving DecidableEq

/-- The sessions there are, which pointers name by number, those that have been handed to
`AddSession` and taken, and the two maps of the server. A pointer in `media_sessions_` may be
null. -/
structure Registry where
  lastSessionId : UInt32
  objects : List SessionObject
  taken : List Nat
  suffixMap : Bytes → Option UInt32
  mediaSessions : UInt32 → Option (Option Nat)

namespace Registry

/-- `last_session_id_` begins with 1. -/
def new : Registry := ⟨1, [], [], fun _ => none, fun _ => none⟩

/-- `MediaSession::CreateNew(url_suffix)`. -/
def createNew (r : Registry) (suffix : Bytes) : Registry :=
  { r with
    lastSessionId := r.lastSessionId + 1
    objects := r.objects ++ [⟨r.lastSessionId + 1, suffix⟩] }

/-- Whether an object is registered. -/
def registered (r : Registry) (o : Nat) : Bool :=
  match r.objects[o]? with
  | none => false
  | some session => r.mediaSessions session.sessionId = some (some o)

/-- `AddSession(session)`. A session that it has taken and let go is gone: the map owned it. One
that it has taken would get a second owner, and that is undefined, unless its suffix is found. -/
def addSession (r : Registry) (o : Nat) : Option (UInt32 × Registry) :=
  (r.objects[o]?).bind fun session =>
    if o ∈ r.taken ∧ r.registered o = false then none
    else if (r.suffixMap session.suffix).isSome then some (0, r)
    else if o ∈ r.taken then none
    else
      some (session.sessionId,
        { r with
          taken := o :: r.taken
          suffixMap := emplaceAt r.suffixMap session.suffix session.sessionId
          mediaSessions := emplaceAt r.mediaSessions session.sessionId (some o) })

/-- `RemoveSession(sessionId)`. A null pointer is not asked for its suffix: that is undefined. -/
def removeSession (r : Registry) (sessionId : UInt32) : Option Registry :=
  match r.mediaSessions sessionId with
  | none => some r
  | some p =>
      (p.bind fun o => r.objects[o]?).map fun session =>
        { r with
          suffixMap := setAt r.suffixMap session.suffix none
          mediaSessions := setAt r.mediaSessions sessionId none }

/-- `LookMediaSession(suffix)`, with the entry that `media_sessions_[id]` makes. -/
def lookSuffix (r : Registry) (suffix : Bytes) : Option Nat × Registry :=
  match r.suffixMap suffix with
  | none => (none, r)
  | some id =>
      ((r.mediaSessions id).join,
        { r with mediaSessions := emplaceAt r.mediaSessions id none })

/-- `LookMediaSession(session_Id)`. -/
def lookId (r : Registry) (id : UInt32) : Option Nat := (r.mediaSessions id).join

/-- `PushFrame(session_id, ..)`: the session that is handed the frame if it has clients. -/
def pushFrame (r : Registry) (id : UInt32) : Option Nat := (r.mediaSessions id).join

/-- `SetRtspUrlSuffix(suffix)`. -/
def setRtspUrlSuffix (r : Registry) (o : Nat) (suffix : Bytes) : Registry :=
  { r with objects := r.objects.modify o fun s => { s with suffix := suffix } }

end Registry

/-- A call. -/
inductive RegistryCall
  | createNew (suffix : Bytes)
  | addSession (o : Nat)
  | removeSession (id : UInt32)
  | lookSuffix (suffix : Bytes)
  | lookId (id : UInt32)
  | pushFrame (id : UInt32)
  | setRtspUrlSuffix (o : Nat) (suffix : Bytes)

namespace Registry

def step (r : Registry) : RegistryCall → Option Registry
  | .createNew suffix => some (r.createNew suffix)
  | .addSession o => (r.addSession o).map Prod.snd
  | .removeSession id => r.removeSession id
  | .lookSuffix suffix => some (r.lookSuffix suffix).2
  | .lookId _ => some r
  | .pushFrame _ => some r
  | .setRtspUrlSuffix o suffix => some (r.setRtspUrlSuffix o suffix)

def system : System Registry RegistryCall := System.ofStep (· = new) step

theorem system_start : system.start new := rfl

/-! ## The property -/

/-- This session is registered. -/
def Live (r : Registry) (o : Nat) (session : SessionObject) : Prop :=
  r.objects[o]? = some session ∧ r.mediaSessions session.sessionId = some (some o)

/-- What is promised of every state. -/
structure Kept (r : Registry) : Prop where
  /-- A suffix leads to a live session, of that suffix. -/
  entry : ∀ suffix id, r.suffixMap suffix = some id →
    ∃ o session, Live r o session ∧ session.sessionId = id ∧ session.suffix = suffix
  /-- An id leads to a live session, which is found under its suffix and no other. -/
  session : ∀ id p, r.mediaSessions id = some p →
    ∃ o session, p = some o ∧ Live r o session ∧ session.sessionId = id ∧
      ∀ suffix, r.suffixMap suffix = some id ↔ suffix = session.suffix
  /-- No two live sessions share a suffix. -/
  apart : ∀ o o' session session', Live r o session → Live r o' session' →
    session.suffix = session'.suffix → o = o'
  /-- A lookup adds nothing. -/
  lookup : ∀ suffix, (r.lookSuffix suffix).2 = r
  /-- What is removed is found neither by its id nor by its suffix. -/
  removed : ∀ o session, Live r o session → ∃ r', r.removeSession session.sessionId = some r' ∧
    r'.lookId session.sessionId = none ∧ (r'.lookSuffix session.suffix).1 = none

/-- The condition: a registered session keeps its name, and an id that comes round again is free. -/
def Steady (r : Registry) : RegistryCall → Prop
  | .addSession o => ∀ session, r.objects[o]? = some session →
      r.suffixMap session.suffix = none → r.mediaSessions session.sessionId = none
  | .setRtspUrlSuffix o suffix => r.registered o = true →
      (r.objects[o]?).map SessionObject.suffix = some suffix
  | _ => True

instance (r : Registry) (c : RegistryCall) : Decidable (Steady r c) := by
  cases c with
  | addSession o =>
    exact decidable_of_iff
      (∀ session ∈ r.objects[o]?.toList, r.suffixMap session.suffix = none →
        r.mediaSessions session.sessionId = none)
      ⟨fun h s hs => h s (Option.mem_toList.mpr hs), fun h s hs => h s (Option.mem_toList.mp hs)⟩
  | setRtspUrlSuffix o suffix => unfold Steady; infer_instance
  | _ => unfold Steady; infer_instance

/-! ## What the operations keep -/

/-- **The two maps are inverse to each other**, through the suffixes of the sessions. -/
structure Inverse (r : Registry) : Prop where
  entry : ∀ suffix id, r.suffixMap suffix = some id →
    ∃ o session, Live r o session ∧ session.sessionId = id ∧ session.suffix = suffix
  session : ∀ id p, r.mediaSessions id = some p →
    ∃ o session, p = some o ∧ Live r o session ∧ session.sessionId = id ∧
      r.suffixMap session.suffix = some id

variable {r r' : Registry}

theorem inverse_new : Inverse new where
  entry suffix id h := by simp [new] at h
  session id p h := by simp [new] at h

/-- A pointer names one object. -/
theorem Live.same {o : Nat} {s s' : SessionObject} (h : Live r o s) (h' : Live r o s') : s = s' :=
  Option.some.inj (h.1.symm.trans h'.1)

/-- An id names one object. -/
theorem Live.same_id {o o' : Nat} {s s' : SessionObject} (h : Live r o s) (h' : Live r o' s')
    (hid : s.sessionId = s'.sessionId) : o = o' := by
  have heq := h'.2
  rw [← hid, h.2] at heq
  exact Option.some.inj (Option.some.inj heq)

/-- **A live session is found under its suffix**, and only there. -/
theorem Inverse.found (h : Inverse r) {o : Nat} {s : SessionObject} (hs : Live r o s)
    (suffix : Bytes) : r.suffixMap suffix = some s.sessionId ↔ suffix = s.suffix := by
  obtain ⟨o', s', hp, hs', hid, hfound⟩ := h.session _ _ hs.2
  obtain rfl : o = o' := Option.some.inj hp
  obtain rfl := hs.same hs'
  constructor
  · intro heq
    obtain ⟨o', s', hs', hid', rfl⟩ := h.entry _ _ heq
    obtain rfl := hs.same_id hs' hid'.symm
    rw [hs.same hs']
  · rintro rfl
    exact hfound

/-- What the maps say is what is promised. -/
theorem Inverse.kept (h : Inverse r) : Kept r where
  entry := h.entry
  session id p hp := by
    obtain ⟨o, s, hpo, hs, rfl, -⟩ := h.session id p hp
    exact ⟨o, s, hpo, hs, rfl, h.found hs⟩
  apart o o' s s' hs hs' heq := by
    have hfound := (h.found hs s.suffix).mpr rfl
    rw [heq, (h.found hs' s'.suffix).mpr rfl] at hfound
    exact hs.same_id hs' (Option.some.inj hfound).symm
  lookup suffix := by
    unfold lookSuffix
    split
    · rfl
    · rename_i id hid
      obtain ⟨o, s, hs, rfl, -⟩ := h.entry suffix id hid
      rw [emplaceAt_old hs.2]
  removed o s hs := by
    have hremove : r.removeSession s.sessionId = some { r with
        suffixMap := setAt r.suffixMap s.suffix none
        mediaSessions := setAt r.mediaSessions s.sessionId none } := by
      simp only [removeSession, hs.2, Option.bind_some, hs.1, Option.map_some]
    refine ⟨_, hremove, ?_, ?_⟩
    · show (setAt r.mediaSessions s.sessionId none s.sessionId).join = none
      rw [setAt_self]
      rfl
    · have hgone : setAt r.suffixMap s.suffix none s.suffix = none := setAt_self none
      simp only [lookSuffix, hgone]

/-! ### The calls -/

theorem Inverse.createNew (h : Inverse r) (suffix : Bytes) : Inverse (r.createNew suffix) := by
  have hlive : ∀ {o s}, Live r o s → Live (r.createNew suffix) o s := by
    intro o s hs
    refine ⟨?_, hs.2⟩
    show (r.objects ++ [_])[o]? = some s
    rw [List.getElem?_append_left (List.getElem?_eq_some_iff.mp hs.1).1]
    exact hs.1
  refine ⟨?_, ?_⟩
  · intro name id hname
    obtain ⟨o, s, hs, hid, hsuffix⟩ := h.entry name id hname
    exact ⟨o, s, hlive hs, hid, hsuffix⟩
  · intro id p hp
    obtain ⟨o, s, hpo, hs, hid, hfound⟩ := h.session id p hp
    exact ⟨o, s, hpo, hlive hs, hid, hfound⟩

theorem Inverse.addSession (h : Inverse r) {o : Nat} {s : SessionObject}
    (hobj : r.objects[o]? = some s) (hid : r.mediaSessions s.sessionId = none)
    (hsuffix : r.suffixMap s.suffix = none) :
    Inverse { r with
      taken := o :: r.taken
      suffixMap := emplaceAt r.suffixMap s.suffix s.sessionId
      mediaSessions := emplaceAt r.mediaSessions s.sessionId (some o) } := by
  rw [emplaceAt_new hid, emplaceAt_new hsuffix]
  have hnew : Live { r with
      taken := o :: r.taken
      suffixMap := setAt r.suffixMap s.suffix (some s.sessionId)
      mediaSessions := setAt r.mediaSessions s.sessionId (some (some o)) } o s :=
    ⟨hobj, setAt_self _⟩
  -- The others have other ids.
  have hold : ∀ {o' t}, Live r o' t → t.sessionId ≠ s.sessionId := by
    intro o' t ht heq
    have := ht.2
    rw [heq, hid] at this
    simp at this
  refine ⟨?_, ?_⟩
  · intro name id hname
    by_cases heq : name = s.suffix
    · subst heq
      have hname : some s.sessionId = some id := (setAt_self _).symm.trans hname
      exact ⟨o, s, hnew, Option.some.inj hname, rfl⟩
    · have hname : r.suffixMap name = some id := (setAt_ne heq).symm.trans hname
      obtain ⟨o', t, ht, hid', hsuf⟩ := h.entry name id hname
      exact ⟨o', t, ⟨ht.1, (setAt_ne (hold ht)).trans ht.2⟩, hid', hsuf⟩
  · intro id p hp
    by_cases heq : id = s.sessionId
    · subst heq
      have hp : some (some o) = some p := (setAt_self _).symm.trans hp
      exact ⟨o, s, (Option.some.inj hp).symm, hnew, rfl, setAt_self _⟩
    · have hp : r.mediaSessions id = some p := (setAt_ne heq).symm.trans hp
      obtain ⟨o', t, hpo, ht, hid', hfound⟩ := h.session id p hp
      refine ⟨o', t, hpo, ⟨ht.1, (setAt_ne (hold ht)).trans ht.2⟩, hid', ?_⟩
      refine (setAt_ne ?_).trans hfound
      intro hname
      rw [hname, hsuffix] at hfound
      simp at hfound

theorem Inverse.removeSession (h : Inverse r) {id : UInt32} (hr : r.removeSession id = some r') :
    Inverse r' := by
  unfold Registry.removeSession at hr
  split at hr
  · obtain rfl := Option.some.inj hr
    exact h
  · rename_i p hp
    obtain ⟨o, s, rfl, hs, rfl, hfound⟩ := h.session id p hp
    rw [Option.bind_some, hs.1] at hr
    obtain rfl := Option.some.inj hr
    refine ⟨?_, ?_⟩
    · intro name id hname
      have hne : name ≠ s.suffix := by
        rintro rfl
        have hnone : none = some id := (setAt_self _).symm.trans hname
        simp at hnone
      have hname : r.suffixMap name = some id := (setAt_ne hne).symm.trans hname
      obtain ⟨o', t, ht, hid, hsuf⟩ := h.entry name id hname
      have hother : t.sessionId ≠ s.sessionId := by
        intro heq
        rw [← hid, heq] at hname
        exact hne ((h.found hs name).mp hname)
      exact ⟨o', t, ⟨ht.1, (setAt_ne hother).trans ht.2⟩, hid, hsuf⟩
    · intro id p hp
      have hne : id ≠ s.sessionId := by
        rintro rfl
        have hnone : none = some p := (setAt_self _).symm.trans hp
        simp at hnone
      have hp : r.mediaSessions id = some p := (setAt_ne hne).symm.trans hp
      obtain ⟨o', t, hpo, ht, hid, hfound'⟩ := h.session id p hp
      refine ⟨o', t, hpo, ⟨ht.1, (setAt_ne (hid ▸ hne)).trans ht.2⟩, hid, ?_⟩
      refine (setAt_ne ?_).trans hfound'
      intro hname
      rw [hname, hfound] at hfound'
      exact hne (Option.some.inj hfound').symm

/-- A session that is not registered may have any name. -/
theorem Inverse.setRtspUrlSuffix (h : Inverse r) {o : Nat} {suffix : Bytes}
    (hsteady : r.registered o = true → (r.objects[o]?).map SessionObject.suffix = some suffix) :
    Inverse (r.setRtspUrlSuffix o suffix) := by
  have hlive : ∀ {o' s}, Live r o' s → Live (r.setRtspUrlSuffix o suffix) o' s := by
    intro o' s hs
    refine ⟨?_, hs.2⟩
    show (r.objects.modify o _)[o']? = some s
    rw [List.getElem?_modify]
    by_cases heq : o = o'
    · subst heq
      have hregistered : r.registered o = true := by
        unfold registered
        rw [hs.1]
        simpa using hs.2
      have hsame := hsteady hregistered
      rw [hs.1] at hsame ⊢
      have hsuffix : s.suffix = suffix := Option.some.inj hsame
      simp [← hsuffix]
    · simp [heq, hs.1]
  refine ⟨?_, ?_⟩
  · intro name id hname
    obtain ⟨o', s, hs, hid, hsuffix⟩ := h.entry name id hname
    exact ⟨o', s, hlive hs, hid, hsuffix⟩
  · intro id p hp
    obtain ⟨o', s, hpo, hs, hid, hfound⟩ := h.session id p hp
    exact ⟨o', s, hpo, hlive hs, hid, hfound⟩

/-- **One call.** -/
theorem Inverse.step (h : Inverse r) {c : RegistryCall} (hsteady : Steady r c)
    (hstep : r.step c = some r') : Inverse r' := by
  cases c with
  | createNew suffix =>
    obtain rfl := Option.some.inj hstep
    exact h.createNew suffix
  | addSession o =>
    obtain ⟨⟨id, t⟩, hadd, rfl⟩ := Option.map_eq_some_iff.mp hstep
    unfold Registry.addSession at hadd
    obtain ⟨s, hobj, heq⟩ := Option.bind_eq_some_iff.mp hadd
    split at heq
    · simp at heq
    · split at heq
      · obtain ⟨-, rfl⟩ := Prod.mk.inj (Option.some.inj heq)
        exact h
      · rename_i hfound
        have hfree : r.suffixMap s.suffix = none := by simpa using hfound
        split at heq
        · simp at heq
        · obtain ⟨-, rfl⟩ := Prod.mk.inj (Option.some.inj heq)
          exact h.addSession hobj (hsteady s hobj hfree) hfree
  | removeSession id => exact h.removeSession hstep
  | lookSuffix suffix =>
    obtain rfl := Option.some.inj hstep
    rw [h.kept.lookup suffix]
    exact h
  | lookId id =>
    obtain rfl := Option.some.inj hstep
    exact h
  | pushFrame id =>
    obtain rfl := Option.some.inj hstep
    exact h
  | setRtspUrlSuffix o suffix =>
    obtain rfl := Option.some.inj hstep
    exact h.setRtspUrlSuffix hsteady

/-- **The registry is kept** in every state of every run in which no registered session is renamed
and no id is given out while it is taken. The two maps are linked through a third place, the
session's own suffix, and a lookup by suffix is not a pure question: it makes an entry where it
finds an id without a session, so that it adds nothing is part of what is promised. -/
theorem registry_kept (r : Registry) (hr : Reach system Steady r) : Kept r := by
  have hinverse : Inverse r := by
    refine hr.inv (P := Inverse) ?_ ?_
    · rintro r rfl
      exact inverse_new
    · intro r c r' h hsteady hstep
      exact h.step hsteady hstep
  exact hinverse.kept

/-- A session is renamed, then registered, and handed in once more. -/
theorem registry_kept_live : ∃ r, Reach system Steady r ∧ Kept r ∧
    (r.lookSuffix (ascii "b")).1 = some 0 := by
  obtain ⟨r, hr, hg⟩ := reach_of_runFrom step Steady new
    [.createNew (ascii "a"), .setRtspUrlSuffix 0 (ascii "b"), .addSession 0, .addSession 0,
      .lookSuffix (ascii "a")]
    (fun r => (r.lookSuffix (ascii "b")).1) (some 0) system_start (by decide)
  exact ⟨r, hr, registry_kept r hr, hg⟩

/-- **A registered session is renamed**: it is still found under its old suffix. -/
theorem registry_renamed : ¬ ∀ r, Reach system (anyStep _ _) r → Kept r := by
  intro hall
  obtain ⟨r, hr, hg⟩ := reach_of_runFrom step (anyStep _ _) new
    [.createNew (ascii "a"), .addSession 0, .setRtspUrlSuffix 0 (ascii "b")]
    (fun r => (r.objects, r.suffixMap (ascii "a"))) ([⟨2, ascii "b"⟩], some 2) system_start
    (by decide)
  obtain ⟨hobjects, hmap⟩ := Prod.mk.inj hg
  obtain ⟨o, s, ⟨hobj, -⟩, -, hsuffix⟩ := (hall r hr).entry (ascii "a") 2 hmap
  rw [hobjects] at hobj
  obtain rfl := List.mem_singleton.mp (List.mem_of_getElem? hobj)
  exact absurd hsuffix (by decide)

/-- When that session is removed, its old entry stays, and a lookup makes a null pointer of it. -/
theorem lookup_adds : ∃ r, Reach system (anyStep _ _) r ∧ r.mediaSessions 2 = none ∧
    (r.lookSuffix (ascii "a")).2.mediaSessions 2 = some none := by
  obtain ⟨r, hr, hg⟩ := reach_of_runFrom step (anyStep _ _) new
    [.createNew (ascii "a"), .addSession 0, .setRtspUrlSuffix 0 (ascii "b"), .removeSession 2]
    (fun r => (r.mediaSessions 2, (r.lookSuffix (ascii "a")).2.mediaSessions 2)) (none, some none)
    system_start (by decide)
  obtain ⟨hnone, hnull⟩ := Prod.mk.inj hg
  exact ⟨r, hr, hnone, hnull⟩

end Registry

end Maixii.Xop
