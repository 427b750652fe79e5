import Mathlib.Data.List.Nodup
import Maixii.Lib.Mutex
import Maixii.Lib.Run
import Maixii.Net.RingBuffer

/-!
# `Net/TaskScheduler.lean`: the trigger events

The half of `net/TaskScheduler.cpp` that uses the ring. Any thread calls
`AddTriggerEvent`: it looks at the size, takes the mutex, pushes, writes a byte into the wake-up
pipe and returns `true`. The scheduler's thread takes no mutex: it pops and runs what it has
popped, and goes to sleep when the ring is empty. Every access of the shared members is a step of
its own, so the steps of a push and of a pop may come in any order.

The size is looked at before the mutex is taken, and the answer of `Push` is thrown away. A callback
is lost exactly when the ring is full by the time it is pushed; in runs where it never is (`Roomy`),
`events_run` says that what was accepted is run, once and in order.
-/

set_option autoImplicit false

namespace Maixii.Net

open Maixii.Lib

/-! ## The scheduler -/

/-- `kMaxTriggetEvents`. -/
def kMaxTriggetEvents : Nat := 50000

/-- How far a call of `AddTriggerEvent` is. -/
inductive Adding
  | entered
  /-- `Size()` was small enough. -/
  | checked
  | locked
  /-- The callback is in the ring, and not yet counted. -/
  | stored
  /-- `Push` has returned. -/
  | pushed
  /-- The byte is in the pipe. -/
  | written
  | returned (ok : Bool)
  deriving DecidableEq, Repr

/-- How far the scheduler's thread is with `HandleTriggerEvent`, or whether it sleeps in
`HandleEvent`. A callback is known by the number of the call that brought it. -/
inductive Handling
  | popping
  /-- `num_datas_ > 0`. -/
  | found
  /-- The callback has been moved out, and is still counted. -/
  | taken (callback : Nat)
  | running (callback : Nat)
  | testing
  | sleeping
  deriving DecidableEq, Repr

/-- All threads: every call of `AddTriggerEvent` so far, of whatever thread, and the scheduler's
own. `pushed` are the callbacks put into the ring and `ran` those that have run. -/
structure TaskScheduler where
  triggerEvents : RingBuffer Nat
  /-- Who holds `mutex_`. -/
  mutex : Option Nat
  /-- Whether there is a byte in the wake-up pipe. -/
  wakeup : Bool
  calls : List Adding
  thread : Handling
  pushed : List Nat
  ran : List Nat

/-- Who goes on. -/
inductive Turn
  /-- Another call begins, on any thread or in a callback. -/
  | call
  | caller (i : Nat)
  | scheduler
  /-- `HandleEvent` returns without a byte in the pipe: a timer, or another channel. -/
  | timeout
  deriving DecidableEq, Repr

namespace TaskScheduler

def new : TaskScheduler where
  triggerEvents := RingBuffer.new kMaxTriggetEvents
  mutex := none
  wakeup := false
  calls := []
  thread := .popping
  pushed := []
  ran := []

/-- The call goes on to this. -/
def goOn (s : TaskScheduler) (i : Nat) (a : Adding) : TaskScheduler :=
  { s with calls := s.calls.set i a }

/-- The next step of a call of `AddTriggerEvent`. -/
def addTriggerEvent (s : TaskScheduler) (i : Nat) : Adding → Option TaskScheduler
  | .entered =>
      some (s.goOn i
        (if s.triggerEvents.numDatas < kMaxTriggetEvents then .checked else .returned false))
  | .checked => if s.mutex = none then some { s.goOn i .locked with mutex := some i } else none
  | .locked =>
      if s.triggerEvents.numDatas < s.triggerEvents.capacity then
        some { s.goOn i .stored with
          triggerEvents := s.triggerEvents.store i
          pushed := s.pushed ++ [i] }
      else some (s.goOn i .pushed)
  | .stored => some { s.goOn i .pushed with triggerEvents := s.triggerEvents.countUp }
  | .pushed => some { s.goOn i .written with wakeup := true }
  | .written => some { s.goOn i (.returned true) with mutex := none }
  | .returned _ => none

/-- The next step of `HandleTriggerEvent`, or of `Wake`. -/
def handleTriggerEvent (s : TaskScheduler) : Option TaskScheduler :=
  match s.thread with
  | .popping =>
      some { s with thread := if 0 < s.triggerEvents.numDatas then .found else .testing }
  | .found =>
      (s.triggerEvents.buffer s.triggerEvents.getPos).map fun callback =>
        { s with triggerEvents := s.triggerEvents.take, thread := .taken callback }
  | .taken callback =>
      some { s with triggerEvents := s.triggerEvents.countDown, thread := .running callback }
  | .running callback => some { s with thread := .testing, ran := s.ran ++ [callback] }
  | .testing =>
      some { s with thread := if 0 < s.triggerEvents.numDatas then .popping else .sleeping }
  | .sleeping => if s.wakeup then some { s with wakeup := false, thread := .popping } else none

def step (s : TaskScheduler) : Turn → Option TaskScheduler
  | .call => some { s with calls := s.calls ++ [.entered] }
  | .caller i => s.calls[i]?.bind fun a => s.addTriggerEvent i a
  | .scheduler => s.handleTriggerEvent
  | .timeout => if s.thread = .sleeping then some { s with thread := .popping } else none

def system : System TaskScheduler Turn := System.ofStep (fun s => s = new) step

/-- Nobody is in the middle of a call, and the scheduler sleeps. -/
def AtRest (s : TaskScheduler) : Prop :=
  s.thread = .sleeping ∧ s.wakeup = false ∧ ∀ a ∈ s.calls, ∃ ok, a = .returned ok

/-- **Every accepted callback runs once**, in the order of the pushes: what has run is the first
part of what was pushed, all of it once everything is at rest, and the scheduler gets there. -/
structure Exact (s : TaskScheduler) : Prop where
  order : s.ran <+: s.pushed
  once : s.pushed.Nodup
  accepted : ∀ i, s.calls[i]? = some (.returned true) → i ∈ s.pushed
  refused : ∀ i, s.calls[i]? = some (.returned false) → i ∉ s.pushed
  all : s.AtRest → s.ran = s.pushed
  /-- With no call under way, the scheduler alone comes to rest, and nothing is pushed till then. -/
  rests : (∀ a ∈ s.calls, ∃ ok, a = .returned ok) → ∃ turns s',
    Run system (fun _ t => t = .scheduler) s turns s' ∧ s'.AtRest ∧ s'.pushed = s.pushed ∧
      s'.ran = s'.pushed
  bounded : s.triggerEvents.numDatas ≤ kMaxTriggetEvents
  /-- `Pop` finds a callback in the slot it moves from. -/
  found : s.thread = .found → s.step .scheduler ≠ none

/-- The condition: there is room when a callback is pushed. -/
def Roomy (s : TaskScheduler) : Turn → Prop
  | .caller i => s.calls[i]? = some .locked → s.triggerEvents.numDatas < s.triggerEvents.capacity
  | _ => True

instance (s : TaskScheduler) (t : Turn) : Decidable (Roomy s t) := by
  cases t <;> unfold Roomy <;> infer_instance

end TaskScheduler

/-! ## The invariant -/

/-- Whether the call holds the mutex. -/
def Adding.critical : Adding → Bool
  | .locked | .stored | .pushed | .written => true
  | _ => false

/-- Whether the call has got past its push. -/
def Adding.past : Adding → Bool
  | .stored | .pushed | .written | .returned true => true
  | _ => false

/-- The callback the scheduler has in hand. -/
def Handling.held : Handling → List Nat
  | .taken c | .running c => [c]
  | _ => []

/-- Whether the scheduler has seen a callback that it has not counted off yet. -/
def Handling.seen : Handling → Bool
  | .found | .taken _ => true
  | _ => false

/-- Whether the scheduler has taken a callback that is still counted. -/
def Handling.uncounted : Handling → Nat
  | .taken _ => 1
  | _ => 0

namespace TaskScheduler

/-- Whether a callback is in the ring that is not counted yet. -/
def storing (s : TaskScheduler) : Nat :=
  match s.mutex with
  | none => 0
  | some i => if s.calls[i]? = some .stored then 1 else 0

/-- **What holds between any two steps**: the ring holds `queue`, which is what has been pushed and
not taken, and its count is off by what the two ends have under way. -/
structure Sound (s : TaskScheduler) (queue : List Nat) : Prop where
  capacity : s.triggerEvents.capacity = kMaxTriggetEvents
  holds : s.triggerEvents.Holds queue
  pushed : s.pushed = s.ran ++ s.thread.held ++ queue
  balance : queue.length + s.thread.uncounted = s.triggerEvents.numDatas + s.storing
  bounded : queue.length + s.thread.uncounted ≤ kMaxTriggetEvents
  locked : Locked Adding.critical s.calls s.mutex
  once : s.pushed.Nodup
  status : ∀ i, i ∈ s.pushed ↔ ∃ a, s.calls[i]? = some a ∧ a.past = true
  found : s.thread.seen = true → 0 < s.triggerEvents.numDatas
  sleeps : s.thread = .sleeping → s.wakeup = false →
    s.triggerEvents.numDatas = 0 ∨ ∃ i : Nat, s.calls[i]? = some Adding.pushed

theorem sound_new : Sound new [] where
  capacity := rfl
  holds := RingBuffer.holds_new (by decide)
  pushed := rfl
  balance := rfl
  bounded := Nat.zero_le _
  locked := locked_nil
  once := List.nodup_nil
  status i := by simp [new]
  found h := by simp [new, Handling.seen] at h
  sleeps h := by simp [new] at h

variable {s s' : TaskScheduler} {queue : List Nat} {i : Nat}

theorem storing_of_holder {a : Adding} (hm : s.mutex = some i) (ha : s.calls[i]? = some a) :
    s.storing = if a = .stored then 1 else 0 := by
  rw [storing, hm]
  simp [ha]

theorem storing_of_none (hm : s.mutex = none) : s.storing = 0 := by
  rw [storing, hm]

/-- A step of a call that does not hold the mutex is not seen by the others. -/
theorem storing_goOn {a b : Adding} (ha : s.calls[i]? = some a) (hm : s.mutex ≠ some i) :
    (s.goOn i b).storing = s.storing := by
  unfold storing
  show (match s.mutex with | none => _ | some j => _) = _
  cases hmx : s.mutex with
  | none => rfl
  | some j =>
    have hj : j ≠ i := fun hj => hm (hj ▸ hmx)
    simp only [goOn, getElem?_set_call ha, if_neg hj]

theorem self_goOn {a b : Adding} (ha : s.calls[i]? = some a) : (s.goOn i b).calls[i]? = some b :=
  getElem?_set_self_call ha

/-- The status of the calls once one has gone on, without a push. -/
theorem Sound.status_goOn (h : Sound s queue) {a b : Adding} (ha : s.calls[i]? = some a)
    (hab : b.past = a.past) (j : Nat) :
    j ∈ s.pushed ↔ ∃ x, (s.goOn i b).calls[j]? = some x ∧ x.past = true := by
  rw [h.status, goOn, getElem?_set_call ha]
  by_cases hj : j = i
  · subst hj
    rw [if_pos rfl, ha]
    simp [hab]
  · rw [if_neg hj]

/-- A sleeper is still woken, if the call that would wake it is not the one that went on. -/
theorem Sound.sleeps_goOn (h : Sound s queue) {a b : Adding} (ha : s.calls[i]? = some a)
    (hne : a ≠ .pushed) (hs : s.thread = .sleeping) (hw : s.wakeup = false) :
    s.triggerEvents.numDatas = 0 ∨ ∃ j : Nat, (s.goOn i b).calls[j]? = some Adding.pushed := by
  refine (h.sleeps hs hw).imp_right ?_
  rintro ⟨j, hj⟩
  have hji : j ≠ i := by
    rintro rfl
    rw [ha] at hj
    exact hne (Option.some.inj hj)
  exact ⟨j, by rw [goOn, getElem?_set_call ha, if_neg hji]; exact hj⟩

/-! ### The steps of a call -/

/-- `Size()` is looked at. -/
theorem Sound.looks (h : Sound s queue) (ha : s.calls[i]? = some .entered) {b : Adding}
    (hcrit : b.critical = false) (hpast : b.past = false) : Sound (s.goOn i b) queue := by
  have hm : s.mutex ≠ some i := fun hm => Bool.false_ne_true ((h.locked.lock i _ ha).mpr hm)
  have hst := storing_goOn (b := b) ha hm
  exact ⟨h.capacity, h.holds, h.pushed, hst ▸ h.balance, h.bounded, h.locked.goOn ha hcrit, h.once,
    h.status_goOn ha hpast, h.found, h.sleeps_goOn ha (by decide)⟩

/-- The mutex is taken. -/
theorem Sound.locks (h : Sound s queue) (ha : s.calls[i]? = some .checked)
    (hfree : s.mutex = none) : Sound { s.goOn i .locked with mutex := some i } queue := by
  have hlocked := h.locked
  rw [hfree] at hlocked
  have hst : storing { s.goOn i .locked with mutex := some i } = 0 :=
    storing_of_holder (i := i) (a := .locked) rfl (self_goOn ha)
  refine ⟨h.capacity, h.holds, h.pushed, ?_, h.bounded, hlocked.acquire ha rfl, h.once,
    h.status_goOn ha rfl, h.found, h.sleeps_goOn ha (by decide)⟩
  rw [hst, ← storing_of_none hfree]
  exact h.balance

/-- The callback is put into the ring. -/
theorem Sound.stores (h : Sound s queue) (ha : s.calls[i]? = some .locked)
    (hfull : s.triggerEvents.numDatas < s.triggerEvents.capacity) :
    Sound { s.goOn i .stored with
      triggerEvents := s.triggerEvents.store i
      pushed := s.pushed ++ [i] } (queue ++ [i]) := by
  have hm : s.mutex = some i := (h.locked.lock i _ ha).mp rfl
  have hbal := h.balance
  rw [storing_of_holder hm ha, if_neg (by decide)] at hbal
  have hlt : queue.length + s.thread.uncounted < kMaxTriggetEvents := by
    rw [hbal, ← h.capacity]
    exact hfull
  have hnew : i ∉ s.pushed := by
    intro hin
    obtain ⟨x, hx, hp⟩ := (h.status i).mp hin
    rw [ha] at hx
    rw [← Option.some.inj hx] at hp
    exact Bool.false_ne_true hp
  have hself := self_goOn (b := .stored) ha
  refine ⟨h.capacity, h.holds.store i ?_, ?_, ?_, ?_, h.locked.goOn ha rfl, ?_, ?_, h.found,
    h.sleeps_goOn ha (by decide)⟩
  · rw [h.capacity]
    exact Nat.lt_of_le_of_lt (Nat.le_add_right _ _) hlt
  · show s.pushed ++ [i] = s.ran ++ s.thread.held ++ (queue ++ [i])
    rw [h.pushed, List.append_assoc]
  · have hst : storing { s.goOn i .stored with
        triggerEvents := s.triggerEvents.store i
        pushed := s.pushed ++ [i] } = 1 := storing_of_holder (i := i) (a := .stored) hm hself
    rw [hst, List.length_append]
    show queue.length + 1 + s.thread.uncounted = s.triggerEvents.numDatas + 1
    omega
  · rw [List.length_append]
    show queue.length + 1 + s.thread.uncounted ≤ _
    omega
  · refine List.nodup_append.mpr ⟨h.once, by simp, ?_⟩
    rintro x hx y hy rfl
    rw [List.mem_singleton.mp hy] at hx
    exact hnew hx
  · intro j
    show j ∈ s.pushed ++ [i] ↔ ∃ x, (s.goOn i .stored).calls[j]? = some x ∧ x.past = true
    rw [List.mem_append, List.mem_singleton, goOn, getElem?_set_call ha, h.status]
    by_cases hj : j = i
    · subst hj
      rw [if_pos rfl]
      exact ⟨fun _ => ⟨_, rfl, rfl⟩, fun _ => .inr rfl⟩
    · rw [if_neg hj]
      exact ⟨fun hor => hor.resolve_right hj, .inl⟩

/-- It is counted. -/
theorem Sound.counts (h : Sound s queue) (ha : s.calls[i]? = some .stored) :
    Sound { s.goOn i .pushed with triggerEvents := s.triggerEvents.countUp } queue := by
  have hm : s.mutex = some i := (h.locked.lock i _ ha).mp rfl
  have hbal := h.balance
  rw [storing_of_holder hm ha, if_pos rfl] at hbal
  have hself := self_goOn (b := .pushed) ha
  have hst : storing { s.goOn i .pushed with triggerEvents := s.triggerEvents.countUp } = 0 :=
    storing_of_holder (i := i) (a := .pushed) hm hself
  refine ⟨h.capacity, ⟨h.holds.window, h.holds.back⟩, h.pushed, ?_,
    h.bounded, h.locked.goOn ha rfl, h.once, h.status_goOn ha rfl, ?_, ?_⟩
  · rw [hst]
    exact hbal
  · intro _
    exact Nat.succ_pos _
  · intro _ _
    exact .inr ⟨i, hself⟩

/-- The byte is written. -/
theorem Sound.wakes (h : Sound s queue) (ha : s.calls[i]? = some .pushed) :
    Sound { s.goOn i .written with wakeup := true } queue := by
  have hm : s.mutex = some i := (h.locked.lock i _ ha).mp rfl
  have hbal := h.balance
  rw [storing_of_holder hm ha, if_neg (by decide)] at hbal
  have hst : storing { s.goOn i .written with wakeup := true } = 0 :=
    storing_of_holder (i := i) (a := .written) hm (self_goOn ha)
  refine ⟨h.capacity, h.holds, h.pushed, ?_, h.bounded, h.locked.goOn ha rfl, h.once,
    h.status_goOn ha rfl, h.found, ?_⟩
  · rw [hst]
    exact hbal
  · intro _ hw
    simp at hw

/-- The mutex is released. -/
theorem Sound.unlocks (h : Sound s queue) (ha : s.calls[i]? = some .written) :
    Sound { s.goOn i (.returned true) with mutex := none } queue := by
  have hm : s.mutex = some i := (h.locked.lock i _ ha).mp rfl
  have hbal := h.balance
  rw [storing_of_holder hm ha, if_neg (by decide)] at hbal
  have hst : storing { s.goOn i (.returned true) with mutex := none } = 0 := rfl
  refine ⟨h.capacity, h.holds, h.pushed, ?_, h.bounded, h.locked.release ha rfl rfl, h.once,
    h.status_goOn ha rfl, h.found, h.sleeps_goOn ha (by decide)⟩
  rw [hst]
  exact hbal

/-- **One step of a call**, where there is room. -/
theorem Sound.caller (h : Sound s queue) {a : Adding} (ha : s.calls[i]? = some a)
    (hroom : a = .locked → s.triggerEvents.numDatas < s.triggerEvents.capacity)
    (hs : s.addTriggerEvent i a = some s') : ∃ queue', Sound s' queue' := by
  cases a with
  | entered =>
    obtain rfl := Option.some.inj hs
    refine ⟨queue, h.looks ha ?_ ?_⟩
    · split <;> rfl
    · split <;> rfl
  | checked =>
    simp only [addTriggerEvent] at hs
    split at hs
    · rename_i hfree
      obtain rfl := Option.some.inj hs
      exact ⟨queue, h.locks ha hfree⟩
    · simp at hs
  | locked =>
    simp only [addTriggerEvent, if_pos (hroom rfl)] at hs
    obtain rfl := Option.some.inj hs
    exact ⟨queue ++ [i], h.stores ha (hroom rfl)⟩
  | stored =>
    obtain rfl := Option.some.inj hs
    exact ⟨queue, h.counts ha⟩
  | pushed =>
    obtain rfl := Option.some.inj hs
    exact ⟨queue, h.wakes ha⟩
  | written =>
    obtain rfl := Option.some.inj hs
    exact ⟨queue, h.unlocks ha⟩
  | returned ok => simp [addTriggerEvent] at hs

/-! ### The steps of the scheduler, and of the others -/

/-- Another call begins. -/
theorem Sound.call (h : Sound s queue) : Sound { s with calls := s.calls ++ [.entered] } queue := by
  have hst : storing { s with calls := s.calls ++ [.entered] } = s.storing := by
    obtain hm | ⟨j, hm⟩ := Option.eq_none_or_eq_some s.mutex
    · simp [storing, hm]
    · obtain ⟨a, ha⟩ := h.locked.holder j hm
      rw [storing_of_holder hm ha]
      exact storing_of_holder (i := j) hm (getElem?_begin.mpr (.inl ha))
  refine ⟨h.capacity, h.holds, h.pushed, hst ▸ h.balance, h.bounded, h.locked.begin rfl, h.once, ?_,
    h.found, ?_⟩
  · intro j
    rw [h.status]
    constructor
    · rintro ⟨x, hx, hp⟩
      exact ⟨x, getElem?_begin.mpr (.inl hx), hp⟩
    · rintro ⟨x, hx, hp⟩
      rcases getElem?_begin.mp hx with hx | ⟨-, rfl⟩
      · exact ⟨x, hx, hp⟩
      · exact absurd hp Bool.false_ne_true
  · intro hs hw
    refine (h.sleeps hs hw).imp_right ?_
    rintro ⟨j, hj⟩
    exact ⟨j, getElem?_begin.mpr (.inl hj)⟩

/-- The scheduler goes on without touching the ring. -/
theorem Sound.moves (h : Sound s queue) {t : Handling} {w : Bool} (hheld : t.held = s.thread.held)
    (hcount : t.uncounted = s.thread.uncounted)
    (hseen : t.seen = true → 0 < s.triggerEvents.numDatas)
    (hsleep : t = .sleeping → s.triggerEvents.numDatas = 0) :
    Sound { s with thread := t, wakeup := w } queue := by
  refine ⟨h.capacity, h.holds, ?_, ?_, ?_, h.locked, h.once, h.status, hseen, ?_⟩
  · show s.pushed = s.ran ++ t.held ++ queue
    rw [hheld]
    exact h.pushed
  · show queue.length + t.uncounted = _
    rw [hcount]
    exact h.balance
  · show queue.length + t.uncounted ≤ _
    rw [hcount]
    exact h.bounded
  · intro ht _
    exact .inl (hsleep ht)

/-- What has been seen is there to be taken. -/
theorem Sound.front (h : Sound s queue) (ht : s.thread = .found) :
    ∃ c rest, queue = c :: rest ∧ s.triggerEvents.buffer s.triggerEvents.getPos = some c := by
  have hpos := h.found (by rw [ht]; rfl)
  have hbal := h.balance
  cases queue with
  | nil =>
    rw [ht] at hbal
    simp [Handling.uncounted] at hbal
    omega
  | cons c rest => exact ⟨c, rest, rfl, h.holds.head⟩

/-- The callback is moved out of the ring. -/
theorem Sound.takes {c : Nat} (h : Sound s (c :: queue)) (ht : s.thread = .found) :
    Sound { s with triggerEvents := s.triggerEvents.take, thread := .taken c } queue := by
  have hpos := h.found (by rw [ht]; rfl)
  have hpushed := h.pushed
  have hbal := h.balance
  have hle := h.bounded
  rw [ht] at hpushed hbal hle
  refine ⟨h.capacity, h.holds.take, ?_, hbal, hle, h.locked, h.once, h.status,
    fun _ => hpos, ?_⟩
  · show s.pushed = s.ran ++ [c] ++ queue
    rw [hpushed]
    simp [Handling.held]
  · intro hs
    simp at hs

/-- It is counted off. -/
theorem Sound.countsOff (h : Sound s queue) {c : Nat} (ht : s.thread = .taken c) :
    Sound { s with triggerEvents := s.triggerEvents.countDown, thread := .running c } queue := by
  have hpos := h.found (by rw [ht]; rfl)
  have hpushed := h.pushed
  have hbal := h.balance
  have hle := h.bounded
  rw [ht] at hpushed hbal hle
  refine ⟨h.capacity, ⟨h.holds.window, h.holds.back⟩, hpushed, ?_,
    Nat.le_of_succ_le hle, h.locked, h.once, h.status, ?_, ?_⟩
  · show queue.length = s.triggerEvents.numDatas - 1 + s.storing
    change queue.length + 1 = s.triggerEvents.numDatas + s.storing at hbal
    omega
  · intro hs
    simp [Handling.seen] at hs
  · intro hs
    simp at hs

/-- It has run. -/
theorem Sound.runs (h : Sound s queue) {c : Nat} (ht : s.thread = .running c) :
    Sound { s with thread := .testing, ran := s.ran ++ [c] } queue := by
  have hpushed := h.pushed
  have hbal := h.balance
  have hle := h.bounded
  rw [ht] at hpushed hbal hle
  refine ⟨h.capacity, h.holds, ?_, hbal, hle, h.locked, h.once, h.status, ?_, ?_⟩
  · show s.pushed = s.ran ++ [c] ++ [] ++ queue
    rw [hpushed, List.append_nil]
    rfl
  · intro hs
    simp [Handling.seen] at hs
  · intro hs
    simp at hs

/-- **One step of the scheduler.** -/
theorem Sound.scheduler (h : Sound s queue) (hs : s.handleTriggerEvent = some s') :
    ∃ queue', Sound s' queue' := by
  unfold handleTriggerEvent at hs
  cases ht : s.thread with
  | popping =>
    rw [ht] at hs
    obtain rfl := Option.some.inj hs
    refine ⟨queue, h.moves ?_ ?_ ?_ ?_⟩
    · rw [ht]
      split <;> rfl
    · rw [ht]
      split <;> rfl
    · split
      · rename_i hpos
        exact fun _ => hpos
      · intro hseen
        exact absurd hseen Bool.false_ne_true
    · split <;> intro heq <;> simp at heq
  | found =>
    rw [ht] at hs
    obtain ⟨c, rest, rfl, hc⟩ := h.front ht
    rw [hc] at hs
    obtain rfl := Option.some.inj hs
    exact ⟨rest, h.takes ht⟩
  | taken c =>
    rw [ht] at hs
    obtain rfl := Option.some.inj hs
    exact ⟨queue, h.countsOff ht⟩
  | running c =>
    rw [ht] at hs
    obtain rfl := Option.some.inj hs
    exact ⟨queue, h.runs ht⟩
  | testing =>
    rw [ht] at hs
    obtain rfl := Option.some.inj hs
    refine ⟨queue, h.moves ?_ ?_ ?_ ?_⟩
    · rw [ht]
      split <;> rfl
    · rw [ht]
      split <;> rfl
    · split <;> intro hseen <;> exact absurd hseen Bool.false_ne_true
    · split
      · intro heq
        simp at heq
      · rename_i hpos
        exact fun _ => Nat.eq_zero_of_not_pos hpos
  | sleeping =>
    rw [ht] at hs
    simp only at hs
    split at hs
    · obtain rfl := Option.some.inj hs
      exact ⟨queue, h.moves (by rw [ht]; rfl) (by rw [ht]; rfl) (by simp [Handling.seen]) (by simp)⟩
    · simp at hs

/-- **One step**, where there is room. -/
theorem Sound.step (h : Sound s queue) {t : Turn} (hroom : Roomy s t)
    (hs : s.step t = some s') : ∃ queue', Sound s' queue' := by
  cases t with
  | call =>
    obtain rfl := Option.some.inj hs
    exact ⟨queue, h.call⟩
  | caller i =>
    obtain ⟨a, ha, hs⟩ := Option.bind_eq_some_iff.mp hs
    refine h.caller ha ?_ hs
    rintro rfl
    exact hroom ha
  | scheduler => exact h.scheduler hs
  | timeout =>
    simp only [TaskScheduler.step] at hs
    split at hs
    · rename_i ht
      obtain rfl := Option.some.inj hs
      exact ⟨queue, h.moves (by rw [ht]; rfl) (by rw [ht]; rfl) (by simp [Handling.seen]) (by simp)⟩
    · simp at hs

/-! ## What holds of every run -/

theorem sound_of_reach (hr : Reach system Roomy s) : ∃ queue, Sound s queue := by
  refine hr.inv (P := fun s => ∃ queue, Sound s queue) ?_ ?_
  · rintro s rfl
    exact ⟨[], sound_new⟩
  · rintro s t s' ⟨queue, h⟩ hroom hs
    exact h.step hroom hs

/-- With no call under way, there is nothing uncounted. -/
theorem Sound.settled (h : Sound s queue) (hcalls : ∀ a ∈ s.calls, ∃ ok, a = .returned ok) :
    queue.length + s.thread.uncounted = s.triggerEvents.numDatas := by
  have hfree : s.mutex = none := by
    refine h.locked.free ?_
    intro a ha
    obtain ⟨ok, rfl⟩ := hcalls a ha
    rfl
  have hbal := h.balance
  rwa [storing_of_none hfree] at hbal

/-- **At rest, everything has run.** -/
theorem Sound.all (h : Sound s queue) (hrest : s.AtRest) : s.ran = s.pushed := by
  obtain ⟨ht, hw, hcalls⟩ := hrest
  have hzero : s.triggerEvents.numDatas = 0 := by
    refine (h.sleeps ht hw).resolve_right ?_
    rintro ⟨j, hj⟩
    obtain ⟨ok, hok⟩ := hcalls _ (List.mem_of_getElem? hj)
    simp at hok
  have hlen := h.settled hcalls
  rw [hzero] at hlen
  have hnil : queue = [] := List.length_eq_zero_iff.mp (Nat.eq_zero_of_add_eq_zero_right hlen)
  rw [h.pushed, ht, hnil]
  simp [Handling.held]

/-- How much the scheduler still has to do before it sleeps. -/
def effort (s : TaskScheduler) : Nat :=
  6 * s.triggerEvents.numDatas + (if s.wakeup then 6 else 0) +
    match s.thread with
    | .running _ => 5
    | .testing => if 0 < s.triggerEvents.numDatas then 4 else 1
    | .popping => if 0 < s.triggerEvents.numDatas then 3 else 2
    | .found => 2
    | .taken _ => 1
    | .sleeping => 0

/-- The scheduler goes on until it rests. -/
theorem Sound.works (h : Sound s queue) (hrest : ¬ (s.thread = .sleeping ∧ s.wakeup = false)) :
    ∃ s', s.handleTriggerEvent = some s' ∧ s'.effort < s.effort ∧ s'.calls = s.calls ∧
      s'.pushed = s.pushed := by
  unfold handleTriggerEvent
  cases ht : s.thread with
  | popping =>
    refine ⟨_, rfl, ?_, rfl, rfl⟩
    by_cases hpos : 0 < s.triggerEvents.numDatas
    · simp [effort, ht, hpos]
    · simp [effort, ht, hpos]
  | found =>
    obtain ⟨c, rest, rfl, hc⟩ := h.front ht
    refine ⟨{ s with triggerEvents := s.triggerEvents.take, thread := .taken c }, ?_, ?_, rfl, rfl⟩
    · simp only [hc, Option.map_some]
    · simp [effort, ht, RingBuffer.take]
  | taken c =>
    have hpos := h.found (by rw [ht]; rfl)
    refine ⟨_, rfl, ?_, rfl, rfl⟩
    simp only [effort, ht, RingBuffer.countDown]
    omega
  | running c =>
    refine ⟨_, rfl, ?_, rfl, rfl⟩
    by_cases hpos : 0 < s.triggerEvents.numDatas
    · simp [effort, ht, hpos]
    · simp [effort, ht, hpos]
  | testing =>
    refine ⟨_, rfl, ?_, rfl, rfl⟩
    by_cases hpos : 0 < s.triggerEvents.numDatas
    · simp [effort, ht, hpos]
    · simp [effort, ht, hpos]
  | sleeping =>
    have hw : s.wakeup = true := by
      cases hw : s.wakeup with
      | true => rfl
      | false => exact absurd ⟨ht, hw⟩ hrest
    refine ⟨{ s with wakeup := false, thread := .popping }, by simp only [hw, if_true], ?_, rfl, rfl⟩
    by_cases hpos : 0 < s.triggerEvents.numDatas
    · simp [effort, ht, hw, hpos]
    · simp [effort, ht, hw, hpos]

/-- **The scheduler comes to rest**, by induction on what it has to do. -/
theorem Sound.rests {n : Nat} : ∀ {s : TaskScheduler} {queue : List Nat}, Sound s queue →
    s.effort = n → (∀ a ∈ s.calls, ∃ ok, a = .returned ok) → ∃ turns s',
      Run system (fun _ t => t = .scheduler) s turns s' ∧ s'.AtRest ∧ s'.pushed = s.pushed ∧
        s'.ran = s'.pushed := by
  induction n using Nat.strong_induction_on with
  | h n ih =>
    intro s queue h hn hcalls
    by_cases hrest : s.thread = .sleeping ∧ s.wakeup = false
    · have hr : s.AtRest := ⟨hrest.1, hrest.2, hcalls⟩
      exact ⟨[], s, Run.nil s, hr, rfl, h.all hr⟩
    · obtain ⟨t, ht, hlt, hsame, hpushed⟩ := h.works hrest
      obtain ⟨queue', h'⟩ := h.scheduler ht
      obtain ⟨turns, s', hrun, hr, hp, hall⟩ := ih t.effort (hn ▸ hlt) h' rfl (hsame ▸ hcalls)
      have hone : Run system (fun _ t => t = .scheduler) s [.scheduler] t :=
        Run.snoc (Run.nil s) rfl ht
      exact ⟨[.scheduler] ++ turns, s', hone.append hrun, hr, hp.trans hpushed, hall⟩

theorem Sound.exact (h : Sound s queue) : Exact s where
  order := by
    rw [h.pushed, List.append_assoc]
    exact List.prefix_append _ _
  once := h.once
  accepted i hi := (h.status i).mpr ⟨_, hi, rfl⟩
  refused i hi hin := by
    obtain ⟨a, ha, hp⟩ := (h.status i).mp hin
    rw [hi] at ha
    rw [← Option.some.inj ha] at hp
    exact Bool.false_ne_true hp
  all := h.all
  rests := h.rests rfl
  bounded := by
    refine Nat.le_trans ?_ h.bounded
    rw [h.balance]
    exact Nat.le_add_right _ _
  found ht := by
    obtain ⟨c, rest, rfl, hc⟩ := h.front ht
    simp [TaskScheduler.step, handleTriggerEvent, ht, hc]

/-- **No accepted event is lost**, where there is room for every push: what has been pushed is what
was accepted, and it runs once and in the order of the pushes. The room is asked for at the step
that pushes and not when the call begins, since callers that wait for the mutex hold no place in the
ring; what ran is compared with the pushes, which is the one order that all threads agree on. -/
theorem events_run (s : TaskScheduler) (hr : Reach system Roomy s) : Exact s := by
  obtain ⟨queue, h⟩ := sound_of_reach hr
  exact h.exact

theorem system_start : system.start new := rfl

/-- One callback, brought and run. -/
theorem events_run_one : ∃ s, (s.calls = [.returned true] ∧ s.ran = [0]) ∧ Exact s := by
  obtain ⟨s, hr, hs⟩ := reach_of_runFrom step Roomy new
    [.call, .caller 0, .caller 0, .caller 0, .caller 0, .scheduler, .scheduler, .scheduler,
      .caller 0, .caller 0, .scheduler]
    (fun s => (s.calls, s.ran)) ([.returned true], [0]) system_start (by decide +kernel)
  exact ⟨s, ⟨congrArg Prod.fst hs, congrArg Prod.snd hs⟩, events_run s hr⟩

/-! ## A push into a full ring

Two calls look at the size when one slot is left. The second is told that its callback was taken. -/

theorem reach_caller {a : Adding} (hr : Reach system (anyStep _ _) s) (ha : s.calls[i]? = some a)
    (hs : s.addTriggerEvent i a = some s') : Reach system (anyStep _ _) s' := by
  refine hr.next (i := .caller i) trivial ?_
  show s.calls[i]?.bind _ = _
  rw [ha]
  exact hs

/-- A call that has seen room goes on alone till it returns `true`, whether there is room or not. -/
theorem reach_returned (hr : Reach system (anyStep _ _) s) (ha : s.calls[i]? = some .checked)
    (hm : s.mutex = none) : ∃ s', Reach system (anyStep _ _) s' ∧ s'.mutex = none ∧
      s'.calls = s.calls.set i (.returned true) ∧
      s'.triggerEvents.capacity = s.triggerEvents.capacity ∧
      if s.triggerEvents.numDatas < s.triggerEvents.capacity then
        s'.triggerEvents.numDatas = s.triggerEvents.numDatas + 1 ∧ s'.pushed = s.pushed ++ [i]
      else s'.triggerEvents.numDatas = s.triggerEvents.numDatas ∧ s'.pushed = s.pushed := by
  have h₁ : Reach system (anyStep _ _) { s.goOn i .locked with mutex := some i } :=
    reach_caller hr ha (if_pos hm)
  have ha₁ := self_goOn (b := .locked) ha
  -- With the push behind it, the call writes its byte and unlocks.
  have hrest : ∀ t : TaskScheduler, Reach system (anyStep _ _) t →
      t.calls = s.calls.set i .pushed →
      Reach system (anyStep _ _)
        { t with calls := s.calls.set i (.returned true), wakeup := true, mutex := none } := by
    intro t ht hcalls
    have hp : t.calls[i]? = some .pushed := by
      rw [hcalls]
      exact self_goOn ha
    have hw : Reach system (anyStep _ _) { t.goOn i .written with wakeup := true } :=
      reach_caller ht hp rfl
    have hlast := reach_caller hw (self_goOn hp) rfl
    simpa only [goOn, hcalls, List.set_set] using hlast
  by_cases hroom : s.triggerEvents.numDatas < s.triggerEvents.capacity
  · have h₂ : Reach system (anyStep _ _) { s.goOn i .stored with
        mutex := some i
        triggerEvents := s.triggerEvents.store i
        pushed := s.pushed ++ [i] } := by
      refine reach_caller h₁ ha₁ ?_
      simp only [addTriggerEvent, goOn, List.set_set, if_pos hroom]
    have h₃ : Reach system (anyStep _ _) { s.goOn i .pushed with
        mutex := some i
        triggerEvents := (s.triggerEvents.store i).countUp
        pushed := s.pushed ++ [i] } := by
      refine reach_caller h₂ (self_goOn ha) ?_
      simp only [addTriggerEvent, goOn, List.set_set]
    refine ⟨_, hrest _ h₃ rfl, rfl, rfl, rfl, ?_⟩
    rw [if_pos hroom]
    exact ⟨rfl, rfl⟩
  · have h₂ : Reach system (anyStep _ _) { s.goOn i .pushed with mutex := some i } := by
      refine reach_caller h₁ ha₁ ?_
      simp only [addTriggerEvent, goOn, List.set_set, if_neg hroom]
    refine ⟨_, hrest _ h₂ rfl, rfl, rfl, rfl, ?_⟩
    rw [if_neg hroom]
    exact ⟨rfl, rfl⟩

/-- Another call begins and sees room. -/
theorem reach_checked (hr : Reach system (anyStep _ _) s)
    (hroom : s.triggerEvents.numDatas < kMaxTriggetEvents) :
    Reach system (anyStep _ _) { s with calls := s.calls ++ [.checked] } := by
  have h₁ : Reach system (anyStep _ _) { s with calls := s.calls ++ [.entered] } :=
    hr.next (i := .call) trivial rfl
  have hlast : (s.calls ++ [Adding.entered])[s.calls.length]? = some .entered := by simp
  refine reach_caller h₁ hlast ?_
  simp [addTriggerEvent, goOn, hroom]

/-- The ring fills up while the scheduler does nothing. -/
theorem reach_filled (n : Nat) (hn : n < kMaxTriggetEvents) :
    ∃ s, Reach system (anyStep _ _) s ∧ s.mutex = none ∧ s.calls.length = n ∧
      s.triggerEvents.capacity = kMaxTriggetEvents ∧ s.triggerEvents.numDatas = n ∧
      ∀ j ∈ s.pushed, j < n := by
  induction n with
  | zero => exact ⟨new, Reach.start system_start, rfl, rfl, rfl, rfl, fun j hj => by simp [new] at hj⟩
  | succ n ih =>
    have hlt := Nat.lt_of_succ_lt hn
    obtain ⟨s, hr, hm, hlen, hcap, hnum, hpushed⟩ := ih hlt
    have hc := reach_checked hr (hnum ▸ hlt)
    obtain ⟨s', hr', hm', hcalls', hcap', hres⟩ := reach_returned (i := n) hc (by simp [← hlen]) hm
    rw [if_pos (by rw [hcap, hnum]; exact hlt)] at hres
    refine ⟨s', hr', hm', ?_, hcap'.trans hcap, hres.1.trans (congrArg (· + 1) hnum), ?_⟩
    · simp [hcalls', hlen]
    · intro j hj
      rw [hres.2, List.mem_append, List.mem_singleton] at hj
      rcases hj with hj | rfl
      · exact Nat.lt_succ_of_lt (hpushed j hj)
      · exact Nat.lt_succ_self _

/-- Two calls race for the last slot: both return `true`, and one callback is in the ring. -/
theorem events_run_crowded : ¬ ∀ s, Reach system (anyStep _ _) s → Exact s := by
  intro hall
  have hmax : 49999 < kMaxTriggetEvents := by decide
  obtain ⟨s, hr, hm, hlen, hcap, hnum, hpushed⟩ := reach_filled 49999 hmax
  have hc := reach_checked (reach_checked hr (hnum ▸ hmax)) (hnum ▸ hmax)
  have h₁ : ((s.calls ++ [Adding.checked]) ++ [Adding.checked])[49999]? = some .checked := by
    simp [← hlen]
  obtain ⟨t, ht, hmt, hct, hcapt, hrest⟩ := reach_returned hc h₁ hm
  rw [if_pos (by rw [hcap, hnum]; exact hmax)] at hrest
  have h₂ : t.calls[50000]? = some .checked := by
    rw [hct, List.getElem?_set_ne (by decide), List.getElem?_append_right (by simp [hlen])]
    simp [hlen]
  obtain ⟨u, hu, -, hcu, -, hresu⟩ := reach_returned ht h₂ hmt
  have hfull : ¬ t.triggerEvents.numDatas < t.triggerEvents.capacity := by
    rw [hrest.1, hcapt, hcap, hnum]
    decide
  rw [if_neg hfull] at hresu
  have hin : 50000 ∈ u.pushed := by
    refine (hall u hu).accepted 50000 ?_
    rw [hcu, List.getElem?_set_self (List.getElem?_eq_some_iff.mp h₂).1]
  rw [hresu.2, hrest.2, List.mem_append, List.mem_singleton] at hin
  rcases hin with hin | hin
  · exact absurd (hpushed _ hin) (by decide)
  · exact absurd hin (by decide)

end TaskScheduler

end Maixii.Net
