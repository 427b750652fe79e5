import Mathlib.Data.List.Basic
import Maixii.Lib.Run

/-!
# `Xop/Lifetime.lean`: who still holds a connection

`SendRtpPacket` queues a closure that captures a bare `this`. Whether the `RtpConnection` is still
there when the closure runs is a matter of three owners on two threads: the `RtspConnection` that
made it, which the server's map and whoever has locked it keep alive; the callbacks of the sources,
which hold the clients of a packet until they return; and the scheduler, which works off one queue
in which the closures of frames and the removals of connections stand in line.

The model takes the threads apart step by step: the callback of `AddSource` with `SendRtpPacket`
(`Pushing`), any number of them at a time, and the scheduler with its loop, with `Close` and with
the callback that queues `RemoveConnection`. The counts of the shared pointers are read off the
state (`rtspRefs`, `rtpRefs`).

All is well as long as no closure is queued **behind** the removal of its connection (`InTime`).
-/

set_option autoImplicit false

namespace Maixii.Xop.Lifetime

open Maixii.Lib

/-! ## The model -/

/-- A connection: an `RtspConnection`, and the `RtpConnection` it has made. -/
structure Client where
  /-- `is_closed_` of the `TcpConnection`. -/
  isClosed : Bool
  /-- The server's map holds it. -/
  connected : Bool
  /-- `rtp_conn_` has been made. -/
  hasRtp : Bool
  /-- `is_closed_` of the `RtpConnection`. -/
  tornDown : Bool

def Client.none : Client := ⟨false, false, false, false⟩

/-- How far a callback is: with the map of the clients, or with the first client it holds. -/
inductive Stage
  /-- Under the map's mutex, with these entries to go. -/
  | collecting (rest : List Nat)
  /-- At the head of the loop. -/
  | next
  /-- `GetId` has answered. -/
  | identified
  /-- `is_closed_` was false. -/
  | checked
  /-- `rtsp_connection_.lock()` has answered. -/
  | locked
  /-- `AddTriggerEvent` has returned this. -/
  | queued (ok : Bool)
  deriving DecidableEq

/-- The send-frame callback of a session. It holds the clients it has still to serve and those it
has served, until it returns. -/
structure Pushing where
  isMulticast : Bool
  stage : Stage
  clients : List Nat
  served : List Nat

/-- What stands in the trigger queue. -/
inductive Task
  /-- The closure of `SendRtpPacket`, with its `this`. -/
  | frame (i : Nat)
  /-- `RemoveConnection`. -/
  | remove (i : Nat)
  deriving DecidableEq

/-- The three parts of the scheduler's loop. -/
inductive Phase
  | triggers
  | timers
  | events
  deriving DecidableEq

/-- What the scheduler is in the middle of. -/
inductive Work
  /-- The closure of `SendRtpPacket` of this connection. -/
  | sending (i : Nat)
  /-- `Close` before `OnClose`. -/
  | unregister (i : Nat)
  /-- `Close` before the disconnect callback. -/
  | disconnect (i : Nat)
  deriving DecidableEq

structure World where
  clients : List Client
  /-- `clients_` of the session, and whether its mutex is taken. -/
  map : List Nat
  mapLocked : Bool
  pushes : List Pushing
  queue : List Task
  /-- The removals that found no room in the queue. -/
  timers : List Nat
  phase : Phase
  work : List Work

inductive Step
  /-- A new connection. -/
  | accept
  /-- A DESCRIBE: `rtp_conn_` is made, and put into the map where its socket number belongs. -/
  | describe (i pos : Nat)
  | teardown (i : Nat)
  /-- `Close`, from an event or from within a closure that sends. -/
  | close (i : Nat)
  | unregister
  /-- The disconnect callback, and whether the queue has room. -/
  | disconnect (room : Bool)
  /-- The scheduler takes the next closure, or is done with the one it runs. -/
  | run
  | finish
  /-- The timer of a removal fires. -/
  | fire (i : Nat)
  /-- The loop goes on. -/
  | turn
  /-- A source emits a packet. -/
  | frame (isMulticast : Bool)
  /-- A callback takes its next step; `room` is for `AddTriggerEvent`. -/
  | advance (k : Nat) (room : Bool)

/-- The callback has locked the `RtspConnection`. -/
def Pushing.locks (p : Pushing) (i : Nat) : Bool :=
  match p.stage, p.clients with
  | .locked, j :: _ => decide (j = i)
  | .queued _, j :: _ => decide (j = i)
  | _, _ => false

/-- On to the next client. -/
def Pushing.skip (p : Pushing) : Pushing :=
  { p with stage := .next, clients := p.clients.tail, served := p.clients.take 1 ++ p.served }

/-- `break`. -/
def Pushing.stop (p : Pushing) : Pushing :=
  { p with stage := .next, clients := [], served := p.clients ++ p.served }

namespace World

def new : World := ⟨[], [], false, [], [], [], .triggers, []⟩

def client (w : World) (i : Nat) : Client := w.clients.getD i Client.none

/-- The strong references to an `RtspConnection`: the server's map, and the locks. -/
def rtspRefs (w : World) (i : Nat) : Nat :=
  (if (w.client i).connected then 1 else 0) + w.pushes.countP fun p => p.locks i

/-- The strong references to an `RtpConnection`: `rtp_conn_`, as long as its owner lives, and the
clients that the callbacks hold. -/
def rtpRefs (w : World) (i : Nat) : Nat :=
  (if (w.client i).hasRtp ∧ 0 < w.rtspRefs i then 1 else 0) +
    (w.pushes.map fun p => (p.clients ++ p.served).count i).sum

def setClient (w : World) (i : Nat) (f : Client → Client) : World :=
  { w with clients := w.clients.modify i f }

/-- The scheduler is at its loop. -/
def idle (w : World) (phase : Phase) : Prop := w.phase = phase ∧ w.work = []

instance (w : World) (phase : Phase) : Decidable (w.idle phase) :=
  inferInstanceAs (Decidable (_ = _ ∧ w.work = []))

/-- The next step of a callback. -/
def push (w : World) (k : Nat) (p : Pushing) (room : Bool) : Option World :=
  match p.stage, p.clients with
  | .collecting [], _ =>
      some { w with mapLocked := false, pushes := w.pushes.set k { p with stage := .next } }
  | .collecting (i :: rest), clients =>
      -- An expired entry is erased; a client whose `GetId` fails is let go again.
      if 0 < w.rtpRefs i then
        some { w with pushes := w.pushes.set k { p with
          stage := .collecting rest
          clients := if 0 < w.rtspRefs i then i :: clients else clients } }
      else
        some { w with
          map := w.map.erase i
          pushes := w.pushes.set k { p with stage := .collecting rest } }
  | .next, [] => some { w with pushes := w.pushes.eraseIdx k }
  | .next, i :: _ =>
      some { w with pushes :=
        w.pushes.set k (if 0 < w.rtspRefs i then { p with stage := .identified } else p.skip) }
  | .identified, i :: _ =>
      some { w with pushes :=
        w.pushes.set k (if (w.client i).tornDown then p.skip else { p with stage := .checked }) }
  | .checked, i :: _ =>
      some { w with pushes :=
        w.pushes.set k (if 0 < w.rtspRefs i then { p with stage := .locked } else p.skip) }
  | .locked, i :: _ =>
      some { w with
        queue := if room then w.queue ++ [.frame i] else w.queue
        pushes := w.pushes.set k { p with stage := .queued room } }
  | .queued ok, _ :: _ =>
      some { w with pushes := w.pushes.set k (if p.isMulticast && ok then p.stop else p.skip) }
  | _, [] => none

def step (w : World) : Step → Option World
  | .accept => some { w with clients := w.clients ++ [⟨false, true, false, false⟩] }
  | .describe i pos =>
      if w.idle .events ∧ i < w.clients.length ∧ (w.client i).isClosed = false ∧
          w.mapLocked = false then
        some { w.setClient i fun c => { c with hasRtp := true } with
          map := if i ∈ w.map then w.map else w.map.take pos ++ i :: w.map.drop pos }
      else none
  | .teardown i =>
      if w.idle .events ∧ (w.client i).isClosed = false then
        some (w.setClient i fun c => { c with tornDown := c.hasRtp })
      else none
  | .close i =>
      if i < w.clients.length ∧ (w.client i).isClosed = false ∧
          (w.idle .events ∨ w.work.head? = some (.sending i)) then
        some { w.setClient i fun c => { c with isClosed := true } with
          work := .unregister i :: w.work }
      else none
  | .unregister =>
      match w.work with
      | .unregister i :: rest =>
          if w.mapLocked then none
          else some { w with map := w.map.erase i, work := .disconnect i :: rest }
      | _ => none
  | .disconnect room =>
      match w.work with
      | .disconnect i :: rest =>
          some { w with
            queue := if room then w.queue ++ [.remove i] else w.queue
            timers := if room then w.timers else w.timers ++ [i]
            work := rest }
      | _ => none
  | .run =>
      if w.idle .triggers then
        match w.queue with
        | .frame i :: rest => some { w with queue := rest, work := [.sending i] }
        | .remove i :: rest =>
            some { w.setClient i fun c => { c with connected := false } with queue := rest }
        | [] => none
      else none
  | .finish =>
      match w.work with
      | .sending _ :: rest => some { w with work := rest }
      | _ => none
  | .fire i =>
      if w.idle .timers ∧ i ∈ w.timers then
        some { w.setClient i fun c => { c with connected := false } with
          timers := w.timers.erase i }
      else none
  | .turn =>
      if w.work ≠ [] then none
      else match w.phase with
        -- `HandleTriggerEvent` returns when it finds the queue empty.
        | .triggers => if w.queue = [] then some { w with phase := .timers } else none
        | .timers => some { w with phase := .events }
        | .events => some { w with phase := .triggers }
  | .frame isMulticast =>
      if w.mapLocked then none
      else some { w with
        mapLocked := true
        pushes := w.pushes ++ [⟨isMulticast, .collecting w.map, [], []⟩] }
  | .advance k room => (w.pushes[k]?).bind fun p => w.push k p room

end World

/-- The two threads. -/
def lifetimes : System World Step := System.ofStep (· = World.new) World.step

/-- **The guard.** A closure is not queued behind the removal of its connection: that has not been
carried out, does not stand in the queue, and is not about to be carried out by a timer. -/
def InTime (w : World) : Step → Prop
  | .advance k true => ∀ p ∈ w.pushes[k]?, p.stage = .locked → ∀ i ∈ p.clients.head?,
      (w.client i).connected = true ∧ .remove i ∉ w.queue ∧ (w.phase = .timers → i ∉ w.timers)
  | _ => True

instance (w : World) (s : Step) : Decidable (InTime w s) :=
  match s with
  | .advance _ true => inferInstanceAs (Decidable (∀ p ∈ w.pushes[_]?, _))
  | .advance _ false | .accept | .describe _ _ | .teardown _ | .close _ | .unregister
  | .disconnect _ | .run | .finish | .fire _ | .turn | .frame _ =>
      inferInstanceAs (Decidable True)

/-! ## The invariant -/

/-- What has been queued in time finds its connection. -/
structure Kept (w : World) : Prop where
  frames : ∀ i, .frame i ∈ w.queue → (w.client i).connected = true ∧ (w.client i).hasRtp = true
  sending : ∀ i, .sending i ∈ w.work → (w.client i).connected = true ∧ (w.client i).hasRtp = true
  order : ∀ pre i post, w.queue = pre ++ .remove i :: post → .frame i ∉ post
  timers : w.phase = .timers → ∀ i ∈ w.timers, .frame i ∉ w.queue
  registered : ∀ i ∈ w.map, (w.client i).hasRtp = true
  entries : ∀ p ∈ w.pushes, ∀ rest, p.stage = .collecting rest →
    ∀ i ∈ rest, (w.client i).hasRtp = true
  held : ∀ p ∈ w.pushes, ∀ i ∈ p.clients, (w.client i).hasRtp = true
  resting : w.phase = .timers → w.work = []

theorem client_setClient (w : World) (i j : Nat) (f : Client → Client) :
    (w.setClient i f).client j = w.client j ∨
      j = i ∧ (w.setClient i f).client j = f (w.client j) := by
  have hget : (w.setClient i f).clients[j]? =
      (w.clients[j]?).map fun c => if i = j then f c else c := List.getElem?_modify ..
  unfold World.client
  rw [List.getD_eq_getElem?_getD, List.getD_eq_getElem?_getD, hget]
  cases hw : w.clients[j]? with
  | none => exact Or.inl rfl
  | some c =>
    by_cases hij : i = j
    · exact Or.inr ⟨hij.symm, by simp [hij]⟩
    · exact Or.inl (by simp [hij])

section

variable {w w' : World}

/-- The clients may move on, as long as nobody leaves the server. -/
theorem Kept.clients {cs : List Client} (h : Kept w)
    (hmono : ∀ i, let c := w.client i; let c' := ({ w with clients := cs } : World).client i
      (c.connected = true → c'.connected = true) ∧ (c.hasRtp = true → c'.hasRtp = true)) :
    Kept { w with clients := cs } := by
  refine ⟨?_, ?_, h.order, h.timers, ?_, ?_, ?_, h.resting⟩
  · intro i hi
    exact ⟨(hmono i).1 (h.frames i hi).1, (hmono i).2 (h.frames i hi).2⟩
  · intro i hi
    exact ⟨(hmono i).1 (h.sending i hi).1, (hmono i).2 (h.sending i hi).2⟩
  · intro i hi
    exact (hmono i).2 (h.registered i hi)
  · intro p hp rest hs i hi
    exact (hmono i).2 (h.entries p hp rest hs i hi)
  · intro p hp i hi
    exact (hmono i).2 (h.held p hp i hi)

theorem Kept.setClient (h : Kept w) (i : Nat) {f : Client → Client}
    (hf : ∀ c, ((c.connected = true) → (f c).connected = true) ∧
      (c.hasRtp = true → (f c).hasRtp = true)) : Kept (w.setClient i f) := by
  refine h.clients ?_
  intro j
  rcases client_setClient w i j f with he | ⟨-, he⟩
  · exact ⟨fun hc => (congrArg Client.connected he).trans hc,
      fun hc => (congrArg Client.hasRtp he).trans hc⟩
  · exact ⟨fun hc => (congrArg Client.connected he).trans ((hf _).1 hc),
      fun hc => (congrArg Client.hasRtp he).trans ((hf _).2 hc)⟩

/-- `RemoveConnection`, when no closure of the connection is left. -/
theorem Kept.removed {i : Nat} (h : Kept w) (hq : .frame i ∉ w.queue) (hw : .sending i ∉ w.work) :
    Kept (w.setClient i fun c => { c with connected := false }) := by
  have hrtp : ∀ j, (w.client j).hasRtp = true →
      ((w.setClient i fun c => { c with connected := false }).client j).hasRtp = true := by
    intro j hj
    rcases client_setClient w i j fun c => { c with connected := false } with he | ⟨-, he⟩
    · rw [he]
      exact hj
    · rw [he]
      exact hj
  have hother : ∀ j, j ≠ i →
      (w.setClient i fun c => { c with connected := false }).client j = w.client j := by
    intro j hj
    exact (client_setClient w i j _).resolve_right fun he => hj he.1
  refine ⟨?_, ?_, h.order, h.timers, ?_, ?_, ?_, h.resting⟩
  · intro j hj
    rw [hother j fun heq => hq (heq ▸ hj)]
    exact h.frames j hj
  · intro j hj
    rw [hother j fun heq => hw (heq ▸ hj)]
    exact h.sending j hj
  · intro j hj
    exact hrtp j (h.registered j hj)
  · intro p hp rest hs j hj
    exact hrtp j (h.entries p hp rest hs j hj)
  · intro p hp j hj
    exact hrtp j (h.held p hp j hj)

/-- One callback has moved on. -/
theorem Kept.pushed {k : Nat} {p p' : Pushing} (h : Kept w) (hp : w.pushes[k]? = some p)
    (hentries : ∀ rest, p'.stage = .collecting rest → ∀ i ∈ rest, (w.client i).hasRtp = true)
    (hheld : ∀ i ∈ p'.clients, i ∈ p.clients ∨ (w.client i).hasRtp = true) :
    Kept { w with pushes := w.pushes.set k p' } := by
  have hmem : p ∈ w.pushes := List.mem_of_getElem? hp
  refine ⟨h.frames, h.sending, h.order, h.timers, h.registered, ?_, ?_, h.resting⟩
  · intro q hq
    rcases List.mem_or_eq_of_mem_set hq with hq | rfl
    · exact h.entries q hq
    · exact hentries
  · intro q hq i hi
    rcases List.mem_or_eq_of_mem_set hq with hq | rfl
    · exact h.held q hq i hi
    · exact (hheld i hi).elim (h.held p hmem i) id

/-- A closure that is queued in time. -/
theorem Kept.queued {i : Nat} (h : Kept w) (hc : (w.client i).connected = true)
    (hr : (w.client i).hasRtp = true) (hq : .remove i ∉ w.queue)
    (ht : w.phase = .timers → i ∉ w.timers) : Kept { w with queue := w.queue ++ [.frame i] } := by
  have hmem : ∀ j, .frame j ∈ w.queue ++ [Task.frame i] → .frame j ∈ w.queue ∨ j = i := by
    intro j hj
    simpa using hj
  refine ⟨?_, h.sending, ?_, ?_, h.registered, h.entries, h.held, h.resting⟩
  · intro j hj
    rcases hmem j hj with hj | rfl
    · exact h.frames j hj
    · exact ⟨hc, hr⟩
  · intro pre j post heq
    rcases List.eq_nil_or_concat post with rfl | ⟨rest, t, rfl⟩
    · exact List.not_mem_nil
    · -- The removal stands in the old queue, so it is another connection's.
      have heq' : w.queue ++ [.frame i] = (pre ++ .remove j :: rest) ++ [t] :=
        Eq.trans heq (by simp)
      obtain ⟨hold, hlast⟩ := List.append_inj' heq' rfl
      obtain rfl : Task.frame i = t := by simpa using hlast
      have hij : i ≠ j := by
        rintro rfl
        exact hq (by rw [hold]; simp)
      have hrest := h.order pre j rest hold
      simp only [List.concat_eq_append, List.mem_append, List.mem_singleton, Task.frame.injEq,
        not_or]
      exact ⟨hrest, fun hji => hij hji.symm⟩
  · intro hp j hj hf
    rcases hmem j hf with hf | rfl
    · exact h.timers hp j hj hf
    · exact ht hp hj

/-- **A step of a callback.** -/
theorem Kept.push {k : Nat} {p : Pushing} {room : Bool} (h : Kept w)
    (hg : InTime w (.advance k room)) (hp : w.pushes[k]? = some p)
    (hs : w.push k p room = some w') : Kept w' := by
  have hmem : p ∈ w.pushes := List.mem_of_getElem? hp
  have hskip : Kept { w with pushes := w.pushes.set k p.skip } := by
    refine h.pushed hp (fun _ hst => Stage.noConfusion hst) ?_
    intro i hi
    exact Or.inl (List.mem_of_mem_tail hi)
  have hsame : ∀ st : Stage, (∀ rest, st ≠ .collecting rest) →
      Kept { w with pushes := w.pushes.set k { p with stage := st } } := by
    intro st hst
    exact h.pushed hp (fun rest heq => absurd heq (hst rest)) (fun i hi => Or.inl hi)
  unfold World.push at hs
  split at hs
  · -- The mutex is released.
    obtain rfl := Option.some.inj hs
    have hn := hsame .next (fun _ => Stage.noConfusion)
    exact ⟨hn.frames, hn.sending, hn.order, hn.timers, hn.registered, hn.entries, hn.held, hn.resting⟩
  · rename_i i rest hst
    have hent := h.entries p hmem (i :: rest) hst
    have hrest : ∀ j ∈ rest, (w.client j).hasRtp = true :=
      fun j hj => hent j (List.mem_cons_of_mem _ hj)
    split at hs
    · obtain rfl := Option.some.inj hs
      refine h.pushed hp ?_ ?_
      · intro rest' heq j hj
        obtain rfl := Stage.collecting.inj heq
        exact hrest j hj
      · intro j hj
        dsimp only at hj
        split at hj
        · rcases List.mem_cons.mp hj with rfl | hj
          · exact Or.inr (hent j List.mem_cons_self)
          · exact Or.inl hj
        · exact Or.inl hj
    · obtain rfl := Option.some.inj hs
      have hn : Kept { w with pushes := w.pushes.set k { p with stage := .collecting rest } } := by
        refine h.pushed hp ?_ (fun j hj => Or.inl hj)
        intro rest' heq j hj
        obtain rfl := Stage.collecting.inj heq
        exact hrest j hj
      exact ⟨hn.frames, hn.sending, hn.order, hn.timers,
        fun j hj => hn.registered j (List.mem_of_mem_erase hj), hn.entries, hn.held, hn.resting⟩
  · -- The callback returns.
    obtain rfl := Option.some.inj hs
    have hsub : ∀ q ∈ w.pushes.eraseIdx k, q ∈ w.pushes := fun q hq => List.mem_of_mem_eraseIdx hq
    exact ⟨h.frames, h.sending, h.order, h.timers, h.registered,
      fun q hq => h.entries q (hsub q hq), fun q hq => h.held q (hsub q hq), h.resting⟩
  · obtain rfl := Option.some.inj hs
    split
    · exact hsame .identified (fun _ => Stage.noConfusion)
    · exact hskip
  · obtain rfl := Option.some.inj hs
    split
    · exact hskip
    · exact hsame .checked (fun _ => Stage.noConfusion)
  · obtain rfl := Option.some.inj hs
    split
    · exact hsame .locked (fun _ => Stage.noConfusion)
    · exact hskip
  · rename_i i rest hst hcl
    obtain rfl := Option.some.inj hs
    have hn := hsame (.queued room) (fun _ => Stage.noConfusion)
    cases room with
    | false =>
      exact ⟨hn.frames, hn.sending, hn.order, hn.timers, hn.registered, hn.entries, hn.held,
        hn.resting⟩
    | true =>
      have hi : i ∈ p.clients := by
        rw [hcl]
        exact List.mem_cons_self
      obtain ⟨hc, hq, ht⟩ := hg p hp hst i (by rw [hcl]; rfl)
      exact hn.queued hc (h.held p hmem i hi) hq ht
  · rename_i ok i rest hst hcl
    obtain rfl := Option.some.inj hs
    split
    · refine h.pushed hp (fun _ heq => Stage.noConfusion heq) ?_
      intro j hj
      exact absurd hj List.not_mem_nil
    · exact hskip
  · simp at hs

/-- The next closure is taken from the queue. -/
theorem Kept.order_tail {t : Task} {rest : List Task} (h : Kept w) (hq : w.queue = t :: rest) :
    ∀ pre i post, rest = pre ++ .remove i :: post → .frame i ∉ post := by
  intro pre i post heq
  exact h.order (t :: pre) i post (by rw [hq, heq, List.cons_append])

theorem Kept.step {i : Step} (h : Kept w) (hg : InTime w i) (hs : w.step i = some w') :
    Kept w' := by
  cases i with
  | accept =>
    obtain rfl := Option.some.inj hs
    refine h.clients ?_
    intro i
    -- A new number was nobody's.
    unfold World.client
    rw [List.getD_eq_getElem?_getD, List.getD_eq_getElem?_getD]
    by_cases hi : i < w.clients.length
    · rw [List.getElem?_append_left hi]
      exact ⟨id, id⟩
    · rw [List.getElem?_eq_none (Nat.le_of_not_lt hi)]
      exact ⟨fun hc => Bool.noConfusion hc, fun hc => Bool.noConfusion hc⟩
  | describe i pos =>
    simp only [World.step] at hs
    split at hs
    · rename_i hok
      obtain rfl := Option.some.inj hs
      have hn : Kept (w.setClient i fun c => { c with hasRtp := true }) :=
        h.setClient i fun c => ⟨id, fun _ => rfl⟩
      have hself : ((w.setClient i fun c => { c with hasRtp := true }).client i).hasRtp = true := by
        unfold World.client
        rw [List.getD_eq_getElem?_getD]
        have hget : (w.setClient i fun c => { c with hasRtp := true }).clients[i]? =
            (w.clients[i]?).map fun c => if i = i then { c with hasRtp := true } else c :=
          List.getElem?_modify ..
        rw [hget, List.getElem?_eq_getElem hok.2.1]
        simp
      refine ⟨hn.frames, hn.sending, hn.order, hn.timers, ?_, hn.entries, hn.held, hn.resting⟩
      intro j hj
      have hor : j = i ∨ j ∈ w.map := by
        dsimp only at hj
        split at hj
        · exact Or.inr hj
        · rcases List.mem_append.mp hj with hj | hj
          · exact Or.inr (List.mem_of_mem_take hj)
          · exact (List.mem_cons.mp hj).imp id List.mem_of_mem_drop
      rcases hor with rfl | hj
      · exact hself
      · exact hn.registered j hj
    · simp at hs
  | teardown i =>
    simp only [World.step] at hs
    split at hs
    · obtain rfl := Option.some.inj hs
      exact h.setClient i fun c => ⟨id, id⟩
    · simp at hs
  | close i =>
    simp only [World.step] at hs
    split at hs
    · rename_i hok
      obtain rfl := Option.some.inj hs
      have hn : Kept (w.setClient i fun c => { c with isClosed := true }) :=
        h.setClient i fun c => ⟨id, id⟩
      refine ⟨hn.frames, ?_, hn.order, hn.timers, hn.registered, hn.entries, hn.held, ?_⟩
      · intro j hj
        exact hn.sending j ((List.mem_cons.mp hj).resolve_left Work.noConfusion)
      · -- Nothing is closed while the timers are handled.
        intro ht
        have ht' : w.phase = .timers := ht
        rcases hok.2.2 with hidle | hsend
        · exact absurd (ht'.symm.trans hidle.1) (by decide)
        · rw [h.resting ht'] at hsend
          simp at hsend
    · simp at hs
  | unregister =>
    simp only [World.step] at hs
    split at hs
    · rename_i i rest hw
      split at hs
      · simp at hs
      · obtain rfl := Option.some.inj hs
        refine ⟨h.frames, ?_, h.order, h.timers,
          fun j hj => h.registered j (List.mem_of_mem_erase hj), h.entries, h.held, ?_⟩
        · intro j hj
          refine h.sending j ?_
          rw [hw]
          exact List.mem_cons_of_mem _ ((List.mem_cons.mp hj).resolve_left Work.noConfusion)
        · intro ht
          exact absurd (h.resting ht) (by rw [hw]; exact List.cons_ne_nil _ _)
    · simp at hs
  | disconnect room =>
    simp only [World.step] at hs
    split at hs
    · rename_i i rest hw
      obtain rfl := Option.some.inj hs
      have hbusy : w.phase ≠ .timers := by
        intro ht
        exact absurd (h.resting ht) (by rw [hw]; exact List.cons_ne_nil _ _)
      have hsend : ∀ j, .sending j ∈ rest →
          (w.client j).connected = true ∧ (w.client j).hasRtp = true := by
        intro j hj
        refine h.sending j ?_
        rw [hw]
        exact List.mem_cons_of_mem _ hj
      cases room with
      | false =>
        exact ⟨h.frames, hsend, h.order, fun ht => absurd ht hbusy, h.registered, h.entries, h.held,
          fun ht => absurd ht hbusy⟩
      | true =>
        refine ⟨?_, hsend, ?_, fun ht => absurd ht hbusy, h.registered, h.entries, h.held,
          fun ht => absurd ht hbusy⟩
        · intro j hj
          exact h.frames j (by simpa using hj)
        · intro pre j post heq
          rcases List.eq_nil_or_concat post with rfl | ⟨rest', t, rfl⟩
          · exact List.not_mem_nil
          · have heq' : w.queue ++ [.remove i] = (pre ++ .remove j :: rest') ++ [t] :=
              Eq.trans heq (by simp)
            obtain ⟨hold, hlast⟩ := List.append_inj' heq' rfl
            obtain rfl : Task.remove i = t := by simpa using hlast
            have hrest := h.order pre j rest' hold
            simpa using hrest
    · simp at hs
  | run =>
    simp only [World.step] at hs
    split at hs
    · rename_i hidle
      have hbusy : w.phase ≠ .timers := by
        rw [hidle.1]
        decide
      split at hs
      · rename_i i rest hq
        obtain rfl := Option.some.inj hs
        have hmem : ∀ t ∈ rest, t ∈ w.queue := by
          intro t ht
          rw [hq]
          exact List.mem_cons_of_mem _ ht
        refine ⟨fun j hj => h.frames j (hmem _ hj), ?_, h.order_tail hq,
          fun ht => absurd ht hbusy, h.registered, h.entries, h.held, fun ht => absurd ht hbusy⟩
        intro j hj
        obtain rfl : j = i := by simpa using hj
        exact h.frames j (by rw [hq]; exact List.mem_cons_self)
      · rename_i i rest hq
        obtain rfl := Option.some.inj hs
        have hmem : ∀ t ∈ rest, t ∈ w.queue := by
          intro t ht
          rw [hq]
          exact List.mem_cons_of_mem _ ht
        have hn : Kept { w with queue := rest } :=
          ⟨fun j hj => h.frames j (hmem _ hj), h.sending, h.order_tail hq,
            fun ht => absurd ht hbusy, h.registered, h.entries, h.held, h.resting⟩
        refine hn.removed (h.order [] i rest hq) ?_
        intro hsend
        rw [show ({ w with queue := rest } : World).work = [] from hidle.2] at hsend
        exact absurd hsend List.not_mem_nil
      · simp at hs
    · simp at hs
  | finish =>
    simp only [World.step] at hs
    split at hs
    · rename_i i rest hw
      obtain rfl := Option.some.inj hs
      refine ⟨h.frames, ?_, h.order, h.timers, h.registered, h.entries, h.held, ?_⟩
      · intro j hj
        refine h.sending j ?_
        rw [hw]
        exact List.mem_cons_of_mem _ hj
      · intro ht
        exact absurd (h.resting ht) (by rw [hw]; exact List.cons_ne_nil _ _)
    · simp at hs
  | fire i =>
    simp only [World.step] at hs
    split at hs
    · rename_i hok
      obtain rfl := Option.some.inj hs
      have hn : Kept { w with timers := w.timers.erase i } :=
        ⟨h.frames, h.sending, h.order, fun ht j hj => h.timers ht j (List.mem_of_mem_erase hj),
          h.registered, h.entries, h.held, h.resting⟩
      refine hn.removed (h.timers hok.1.1 i hok.2) ?_
      intro hsend
      rw [show ({ w with timers := w.timers.erase i } : World).work = [] from hok.1.2] at hsend
      exact absurd hsend List.not_mem_nil
    · simp at hs
  | turn =>
    simp only [World.step] at hs
    split at hs
    · simp at hs
    · rename_i hw
      have hidle : w.work = [] := Decidable.not_not.mp hw
      split at hs
      · split at hs
        · -- The queue has been worked off, before the timers get their turn.
          rename_i hq
          obtain rfl := Option.some.inj hs
          refine ⟨h.frames, h.sending, h.order, ?_, h.registered, h.entries, h.held,
            fun _ => hidle⟩
          intro _ j _ hf
          rw [show ({ w with phase := .timers } : World).queue = [] from hq] at hf
          exact absurd hf List.not_mem_nil
        · simp at hs
      · obtain rfl := Option.some.inj hs
        exact ⟨h.frames, h.sending, h.order, fun ht => Phase.noConfusion ht, h.registered,
          h.entries, h.held, fun ht => Phase.noConfusion ht⟩
      · obtain rfl := Option.some.inj hs
        exact ⟨h.frames, h.sending, h.order, fun ht => Phase.noConfusion ht, h.registered,
          h.entries, h.held, fun ht => Phase.noConfusion ht⟩
  | frame isMulticast =>
    simp only [World.step] at hs
    split at hs
    · simp at hs
    · obtain rfl := Option.some.inj hs
      refine ⟨h.frames, h.sending, h.order, h.timers, h.registered, ?_, ?_, h.resting⟩
      · intro p hp rest hst
        rcases List.mem_append.mp hp with hp | hp
        · exact h.entries p hp rest hst
        · obtain rfl := List.mem_singleton.mp hp
          obtain rfl := Stage.collecting.inj hst
          exact h.registered
      · intro p hp i hi
        rcases List.mem_append.mp hp with hp | hp
        · exact h.held p hp i hi
        · obtain rfl := List.mem_singleton.mp hp
          exact absurd hi List.not_mem_nil
  | advance k room =>
    obtain ⟨p, hp, hpush⟩ := Option.bind_eq_some_iff.mp hs
    exact h.push hg hp hpush

end

/-- **A closure outlives nothing.** In every run in which no closure is queued behind the removal of
its connection: a closure runs only while the connection it captured is referenced, and once a
connection has been removed no closure of it runs or waits. -/
theorem closures_outlive_nothing {w : World} (h : Reach lifetimes InTime w) :
    (∀ i, .sending i ∈ w.work → 0 < w.rtpRefs i) ∧
      ∀ i, (w.client i).connected = false → .frame i ∉ w.queue ∧ .sending i ∉ w.work := by
  have hkept : Kept w := by
    refine h.inv ?_ ?_
    · rintro _ rfl
      refine ⟨?_, ?_, ?_, ?_, ?_, ?_, ?_, fun _ => rfl⟩
      all_goals simp [World.new]
    · intro s i t hs hg hst
      exact hs.step hg hst
  refine ⟨?_, ?_⟩
  · intro i hi
    obtain ⟨hc, hr⟩ := hkept.sending i hi
    have howner : 0 < w.rtspRefs i := by
      rw [World.rtspRefs, if_pos hc]
      omega
    rw [World.rtpRefs, if_pos ⟨hr, howner⟩]
    omega
  · intro i hi
    refine ⟨?_, ?_⟩
    · intro hf
      exact absurd ((hkept.frames i hf).1.symm.trans hi) (by decide)
    · intro hf
      exact absurd ((hkept.sending i hf).1.symm.trans hi) (by decide)

/-- A client that has described the session, and a packet for it, up to the lock in
`SendRtpPacket`. -/
def pushing : List Step :=
  [.accept, .turn, .turn, .describe 0 0, .frame false, .advance 0 true, .advance 0 true,
    .advance 0 true, .advance 0 true, .advance 0 true]

theorem lifetimes_start : lifetimes.start World.new := rfl

theorem closures_outlive_nothing_one :
    ∃ w : World, w.work = [.sending 0] ∧ w.rtpRefs 0 = 1 ∧
      (∀ i, .sending i ∈ w.work → 0 < w.rtpRefs i) ∧
        ∀ i, (w.client i).connected = false → .frame i ∉ w.queue ∧ .sending i ∉ w.work := by
  obtain ⟨w, hr, hw⟩ := reach_of_runFrom World.step InTime World.new
    (pushing ++ [.advance 0 true, .advance 0 true, .advance 0 true, .turn, .run])
    (fun w => (w.work, w.rtpRefs 0)) ([.sending 0], 1) lifetimes_start (by decide +kernel)
  obtain ⟨hwork, hrefs⟩ := Prod.mk.inj hw
  have h := closures_outlive_nothing hr
  exact ⟨w, hwork, hrefs, h⟩

/-- **The client closes between the lock and the queue**: its removal comes first, and the closure
runs on an object nobody holds. -/
theorem closures_outlive_nothing_late :
    ¬ ∀ w : World, Reach lifetimes (anyStep _ _) w →
      (∀ i, .sending i ∈ w.work → 0 < w.rtpRefs i) ∧
        ∀ i, (w.client i).connected = false → .frame i ∉ w.queue ∧ .sending i ∉ w.work := by
  intro h
  obtain ⟨w, hr, hw⟩ := reach_of_runFrom World.step (anyStep _ _) World.new
    (pushing ++ [.close 0, .unregister, .disconnect true, .advance 0 true, .advance 0 true,
      .advance 0 true, .turn, .run, .run])
    (fun w => (w.work, w.rtpRefs 0)) ([.sending 0], 0) lifetimes_start (by decide +kernel)
  obtain ⟨hwork, hrefs⟩ := Prod.mk.inj hw
  have hpos := (h w hr).1 0 (by rw [hwork]; exact List.mem_singleton.mpr rfl)
  rw [hrefs] at hpos
  exact absurd hpos (by decide)

end Maixii.Xop.Lifetime
