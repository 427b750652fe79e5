import Mathlib.Data.List.Nodup
import Maixii.Lib.Run

/-!
# `Net/Timer.lean`: the timer queue

`net/Timer.{h,cpp}`. A timer stands in two maps: in `timers_` under its id, and in `events_` under
its deadline and its id, so that the first event is the next one due. Both hold the same `Timer`
object, which keeps its deadline once more (`next_timeout_`), and `RemoveTimer` finds the event
by that copy.

The two agree as long as the key `AddTimer` computes is the deadline the object has got
(`Steady`): an interval of 0 becomes 1 in the object but not in the key. `Consistent` is what the
three operations then keep, and `timers_kept` is what it means for the callbacks.

Times are milliseconds of the steady clock, and taken to stay far from the ends of `int64_t`.
-/

set_option autoImplicit false

namespace Maixii.Net

open Maixii.Lib

/-! ## The model -/

/-- A `Timer`; its callback is known by its number. -/
structure Timer where
  interval : Nat
  nextTimeout : Int
  deriving DecidableEq, Repr

namespace Timer

/-- The constructor. -/
def new (msec : Nat) : Timer := ⟨if msec = 0 then 1 else msec, 0⟩

/-- `SetNextTimeout`. -/
def setNextTimeout (t : Timer) (timePoint : Int) : Timer :=
  { t with nextTimeout := timePoint + t.interval }

end Timer

/-- A key of `events_`: a time and a `TimerId`. -/
abbrev Deadline := Int × Nat

/-- `std::pair`'s `<`. -/
def before (a b : Deadline) : Bool := a.1 < b.1 || (a.1 = b.1 && a.2 < b.2)

/-- The timers that have been made, in order, and the two maps, which hold them by number. -/
structure TimerQueue where
  objects : List Timer
  timers : List (Nat × Nat)
  /-- In the order of the map. -/
  events : List (Deadline × Nat)
  lastNat : Nat
  deriving DecidableEq

/-- `emplace` of a map ordered by `before`: a key that is there stays as it is. -/
def emplace (k : Deadline) (o : Nat) : List (Deadline × Nat) → List (Deadline × Nat)
  | [] => [(k, o)]
  | e :: es =>
      if before k e.1 then (k, o) :: e :: es
      else if e.1 = k then e :: es
      else e :: emplace k o es

namespace TimerQueue

def new : TimerQueue := ⟨[], [], [], 0⟩

/-- The id `AddTimer` gives next. -/
def nextId (q : TimerQueue) : Nat := (q.lastNat + 1) % 2 ^ 32

/-- Whether an id is in `timers_`. -/
def live (q : TimerQueue) (id : Nat) : Bool := (q.timers.lookup id).isSome

/-- `AddTimer`, when `GetTimeNow` says `timeout`. -/
def addTimer (q : TimerQueue) (timeout : Int) (ms : Nat) : Nat × TimerQueue :=
  let timerId := q.nextId
  let timer := (Timer.new ms).setNextTimeout timeout
  (timerId,
    { objects := q.objects ++ [timer]
      timers := if q.live timerId then q.timers else q.timers ++ [(timerId, q.objects.length)]
      events := emplace (timeout + ms, timerId) q.objects.length q.events
      lastNat := timerId })

/-- `getNextTimeout` of a timer by number. -/
def nextTimeout (q : TimerQueue) (o : Nat) : Int := (q.objects[o]?.map Timer.nextTimeout).getD 0

/-- `RemoveTimer`. -/
def removeTimer (q : TimerQueue) (timerId : Nat) : TimerQueue :=
  match q.timers.lookup timerId with
  | none => q
  | some o =>
      { q with
        events := q.events.filter fun e => e.1 ≠ (q.nextTimeout o, timerId)
        timers := q.timers.filter fun t => t.1 ≠ timerId }

/-- One round of the loop of `HandleTimerEvent`, for the first event, whose callback has returned
`flag`. -/
def fire (q : TimerQueue) (timePoint : Int) (flag : Bool) (e : Deadline × Nat)
    (rest : List (Deadline × Nat)) : TimerQueue :=
  if flag then
    let objects := q.objects.modify e.2 fun t => t.setNextTimeout timePoint
    let q := { q with objects := objects }
    { q with events := emplace (q.nextTimeout e.2, e.1.2) e.2 rest }
  else { q with events := rest, timers := q.timers.filter fun t => t.1 ≠ e.1.2 }

/-- A callback that has run: the id of its timer, its number, and what it has returned. -/
structure Ran where
  id : Nat
  timer : Nat
  flag : Bool
  deriving DecidableEq, Repr

/-- The loop of `HandleTimerEvent`, in which the callbacks return `flags`, with the callbacks it
has run. `none` is a dereference of `events_.end()`, or a loop that goes on for ever. -/
def handleLoop : Nat → TimerQueue → Int → (Nat → Bool) → Option (TimerQueue × List Ran)
  | 0, _, _, _ => none
  | fuel + 1, q, timePoint, flags =>
      if q.timers = [] then some (q, [])
      else
        match q.events with
        | [] => none
        | e :: rest =>
            if e.1.1 ≤ timePoint then
              (handleLoop fuel (q.fire timePoint (flags 0) e rest) timePoint
                fun k => flags (k + 1)).map fun (q, ran) => (q, ⟨e.1.2, e.2, flags 0⟩ :: ran)
            else some (q, [])

/-- `HandleTimerEvent`. -/
def handleTimerEvent (q : TimerQueue) (timePoint : Int) (flags : Nat → Bool) :
    Option (TimerQueue × List Ran) :=
  handleLoop (q.events.length + 1) q timePoint flags

end TimerQueue

/-! ## Runs -/

/-- A call, with the time it reads and what the callbacks return. -/
inductive TimerCall
  | addTimer (now : Int) (ms : Nat)
  | removeTimer (timerId : Nat)
  | handleTimerEvent (now : Int) (flags : Nat → Bool)

/-- What has happened to the timers. -/
inductive TimerStory
  | added (id : Nat) (timer : Nat)
  | removed (id : Nat)
  | ran (r : TimerQueue.Ran)
  deriving DecidableEq

/-- A queue, the time of the last call, and its past. -/
structure TimerRun where
  q : TimerQueue
  clock : Int
  past : List TimerStory

namespace TimerRun

def start : TimerRun := ⟨TimerQueue.new, 0, []⟩

/-- One call. The clock does not go back. -/
def step (r : TimerRun) : TimerCall → Option TimerRun
  | .addTimer now ms =>
      if r.clock ≤ now then
        let (id, q) := r.q.addTimer now ms
        some ⟨q, now, r.past ++ [.added id r.q.objects.length]⟩
      else none
  | .removeTimer id => some { r with q := r.q.removeTimer id, past := r.past ++ [.removed id] }
  | .handleTimerEvent now flags =>
      if r.clock ≤ now then
        (r.q.handleTimerEvent now flags).map fun (q, ran) =>
          ⟨q, now, r.past ++ ran.map .ran⟩
      else none

def system : System TimerRun TimerCall := System.ofStep (fun r => r = start) step

/-! ## The property -/

/-- `timers_` and `events_` hold the same ids, each once, and the key of an event is the deadline
of its timer. -/
structure SameTimers (q : TimerQueue) : Prop where
  timers : (q.timers.map Prod.fst).Nodup
  events : (q.events.map fun e => e.1.2).Nodup
  same : ∀ id, id ∈ q.events.map (fun e => e.1.2) ↔ id ∈ q.timers.map Prod.fst
  keys : ∀ id o, (id, o) ∈ q.timers → ∃ t, q.objects[o]? = some t ∧
    ((t.nextTimeout, id), o) ∈ q.events

/-- No callback runs once its timer has been removed. -/
def RemovedForGood (past : List TimerStory) : Prop :=
  ∀ pre id post o, past = pre ++ .removed id :: post → .added id o ∈ pre →
    ∀ r : TimerQueue.Ran, .ran r ∈ post → r.timer ≠ o

/-- A timer is in the queue as long as its callback returns `true` and it is not removed. -/
def NeverDropped (r : TimerRun) : Prop :=
  ∀ pre id o post, r.past = pre ++ .added id o :: post → .removed id ∉ post →
    (∀ x : TimerQueue.Ran, .ran x ∈ post → x.timer = o → x.flag = true) →
    (id, o) ∈ r.q.timers

/-- What is promised of every state: the maps agree, every later `HandleTimerEvent` returns, what
is removed stays removed, and nothing else is lost. -/
structure Kept (r : TimerRun) : Prop where
  same : SameTimers r.q
  returns : ∀ now flags, r.clock ≤ now → (r.q.handleTimerEvent now flags).isSome = true
  gone : RemovedForGood r.past
  stays : r.NeverDropped

/-- The condition: no interval is 0, and an id comes round again only once it is free. -/
def Steady (r : TimerRun) : TimerCall → Prop
  | .addTimer _ ms => ms ≠ 0 ∧ r.q.live r.q.nextId = false
  | _ => True

instance (r : TimerRun) (c : TimerCall) : Decidable (Steady r c) := by
  cases c <;> unfold Steady <;> infer_instance

end TimerRun

/-! ## The order of the events -/

theorem before_irrefl (k : Deadline) : before k k = false := by
  simp [before]

theorem before_trans {a b c : Deadline} (h₁ : before a b = true) (h₂ : before b c = true) :
    before a c = true := by
  simp only [before, Bool.or_eq_true, Bool.and_eq_true, decide_eq_true_eq] at h₁ h₂ ⊢
  omega

theorem before_total {a b : Deadline} (h₁ : before a b = false) (h₂ : a ≠ b) :
    before b a = true := by
  have hne : a.1 ≠ b.1 ∨ a.2 ≠ b.2 := by
    by_contra h
    push Not at h
    exact h₂ (Prod.ext h.1 h.2)
  simp only [before, Bool.or_eq_false_iff, Bool.or_eq_true, Bool.and_eq_true, decide_eq_true_eq,
    decide_eq_false_iff_not, Bool.and_eq_false_iff] at h₁ ⊢
  omega

/-- The events in the order of the map. -/
def Ordered (es : List (Deadline × Nat)) : Prop := es.Pairwise fun a b => before a.1 b.1 = true

theorem mem_emplace {k : Deadline} {o : Nat} {es : List (Deadline × Nat)}
    (h : ∀ e ∈ es, e.1 ≠ k) (x : Deadline × Nat) :
    x ∈ emplace k o es ↔ x = (k, o) ∨ x ∈ es := by
  induction es with
  | nil => simp [emplace]
  | cons e es ih =>
    unfold emplace
    split
    · simp
    · rw [if_neg (h e List.mem_cons_self), List.mem_cons,
        ih (fun e' he' => h e' (List.mem_cons_of_mem _ he')), List.mem_cons]
      tauto

theorem ordered_emplace {k : Deadline} {o : Nat} {es : List (Deadline × Nat)}
    (hes : Ordered es) (h : ∀ e ∈ es, e.1 ≠ k) : Ordered (emplace k o es) := by
  induction es with
  | nil => exact List.pairwise_singleton _ _
  | cons e es ih =>
    obtain ⟨he, hes⟩ := List.pairwise_cons.mp hes
    have htail : ∀ e' ∈ es, e'.1 ≠ k := fun e' he' => h e' (List.mem_cons_of_mem _ he')
    unfold emplace
    split
    · rename_i hb
      refine List.pairwise_cons.mpr ⟨?_, List.pairwise_cons.mpr ⟨he, hes⟩⟩
      intro e' he'
      rcases List.mem_cons.mp he' with rfl | he'
      · exact hb
      · exact before_trans hb (he e' he')
    · rename_i hb
      rw [if_neg (h e List.mem_cons_self)]
      refine List.pairwise_cons.mpr ⟨?_, ih hes htail⟩
      intro e' he'
      rcases (mem_emplace htail e').mp he' with rfl | he'
      · exact before_total (by simpa using hb) (h e List.mem_cons_self).symm
      · exact he e' he'

/-- How many events are due. -/
def due (now : Int) (es : List (Deadline × Nat)) : Nat := es.countP fun e => e.1.1 ≤ now

/-- An event that is not due makes no difference. -/
theorem due_emplace {k : Deadline} {o : Nat} {es : List (Deadline × Nat)} {now : Int}
    (hk : now < k.1) : due now (emplace k o es) = due now es := by
  have hlate : decide (k.1 ≤ now) = false := by simpa using hk
  induction es with
  | nil => simp [emplace, due, hk]
  | cons e es ih =>
    unfold emplace
    split
    · simp [due, List.countP_cons, hk]
    · split
      · rfl
      · rw [due, List.countP_cons, due, List.countP_cons]
        exact congrArg (· + _) ih

/-! ## The two maps -/

namespace TimerQueue

/-- **What the operations keep**: the events are those of the timers, under their deadlines. -/
structure Consistent (q : TimerQueue) : Prop where
  ordered : Ordered q.events
  ids : (q.timers.map Prod.fst).Nodup
  numbers : (q.timers.map Prod.snd).Nodup
  keys : ∀ k o, (k, o) ∈ q.events ↔
    (k.2, o) ∈ q.timers ∧ ∃ t, q.objects[o]? = some t ∧ t.nextTimeout = k.1
  made : ∀ id o, (id, o) ∈ q.timers → o < q.objects.length
  intervals : ∀ t ∈ q.objects, 1 ≤ t.interval

theorem consistent_new : Consistent new where
  ordered := List.Pairwise.nil
  ids := List.nodup_nil
  numbers := List.nodup_nil
  keys k o := by simp [new]
  made id o h := by simp [new] at h
  intervals t h := by simp [new] at h

variable {q : TimerQueue}

theorem Consistent.same_number (h : Consistent q) {id o o' : Nat} (h₁ : (id, o) ∈ q.timers)
    (h₂ : (id, o') ∈ q.timers) : o = o' :=
  congrArg Prod.snd (List.inj_on_of_nodup_map h.ids h₁ h₂ rfl)

theorem Consistent.same_id (h : Consistent q) {id id' o : Nat} (h₁ : (id, o) ∈ q.timers)
    (h₂ : (id', o) ∈ q.timers) : id = id' :=
  congrArg Prod.fst (List.inj_on_of_nodup_map h.numbers h₁ h₂ rfl)

/-- The events of two timers differ, and each timer has one. -/
theorem Consistent.event_unique (h : Consistent q) {e e' : Deadline × Nat} (he : e ∈ q.events)
    (he' : e' ∈ q.events) (hid : e.1.2 = e'.1.2) : e = e' := by
  obtain ⟨⟨t, id⟩, o⟩ := e
  obtain ⟨⟨t', id'⟩, o'⟩ := e'
  dsimp only at hid
  subst hid
  obtain ⟨ht, x, hx, hn⟩ := (h.keys _ _).mp he
  obtain ⟨ht', x', hx', hn'⟩ := (h.keys _ _).mp he'
  obtain rfl := h.same_number ht ht'
  rw [hx] at hx'
  obtain rfl := Option.some.inj hx'
  dsimp only at hn hn'
  rw [← hn, ← hn']

theorem nodup_of_ordered {es : List (Deadline × Nat)} (h : Ordered es) : es.Nodup := by
  refine h.imp ?_
  intro a b hab heq
  rw [heq, before_irrefl] at hab
  exact Bool.false_ne_true hab

theorem mem_of_lookup {id o : Nat} {ts : List (Nat × Nat)} (h : ts.lookup id = some o) :
    (id, o) ∈ ts := by
  obtain ⟨l₁, l₂, rfl, -⟩ := List.lookup_eq_some_iff.mp h
  simp

theorem not_mem_of_lookup {id : Nat} {ts : List (Nat × Nat)} (h : ts.lookup id = none) (o : Nat) :
    (id, o) ∉ ts := by
  intro hm
  have := List.lookup_eq_none_iff.mp h _ hm
  simp at this

/-- **The maps hold the same timers.** -/
theorem Consistent.sameTimers (h : Consistent q) : TimerRun.SameTimers q where
  timers := h.ids
  events := by
    refine List.Nodup.map_on ?_ (nodup_of_ordered h.ordered)
    intro a ha b hb hab
    exact h.event_unique ha hb hab
  same id := by
    constructor
    · intro hid
      obtain ⟨⟨k, o⟩, he, rfl⟩ := List.mem_map.mp hid
      exact List.mem_map.mpr ⟨_, ((h.keys k o).mp he).1, rfl⟩
    · intro hid
      obtain ⟨⟨id, o⟩, ht, rfl⟩ := List.mem_map.mp hid
      have hlt := h.made id o ht
      have he : ((q.objects[o].nextTimeout, id), o) ∈ q.events :=
        (h.keys _ _).mpr ⟨ht, q.objects[o], List.getElem?_eq_getElem hlt, rfl⟩
      exact List.mem_map.mpr ⟨_, he, rfl⟩
  keys id o ht := by
    have hlt := h.made id o ht
    exact ⟨q.objects[o], List.getElem?_eq_getElem hlt,
      (h.keys _ _).mpr ⟨ht, q.objects[o], List.getElem?_eq_getElem hlt, rfl⟩⟩

/-! ### `AddTimer` -/

/-- **`AddTimer`**, with a free id and an interval of its own. -/
theorem Consistent.addTimer (h : Consistent q) (now : Int) {ms : Nat} (hms : ms ≠ 0)
    (hfree : q.live q.nextId = false) :
    Consistent (q.addTimer now ms).2 ∧
      (q.addTimer now ms).2.timers = q.timers ++ [(q.nextId, q.objects.length)] := by
  have hlookup : q.timers.lookup q.nextId = none := by simpa [live] using hfree
  have hid := not_mem_of_lookup hlookup
  have hts : (q.addTimer now ms).2.timers = q.timers ++ [(q.nextId, q.objects.length)] := by
    show (if q.live q.nextId then _ else _) = _
    rw [hfree]
    rfl
  -- No event has the new key: its id is free.
  have hnew : ∀ e ∈ q.events, e.1 ≠ (now + ms, q.nextId) := by
    rintro ⟨k, o⟩ he rfl
    exact hid o ((h.keys _ _).mp he).1
  have hnumber : ∀ id o, (id, o) ∈ q.timers → o ≠ q.objects.length :=
    fun id o ht => Nat.ne_of_lt (h.made id o ht)
  have htimer : (Timer.new ms).setNextTimeout now = ⟨ms, now + ms⟩ := by
    simp [Timer.new, Timer.setNextTimeout, hms]
  have hobj : (q.addTimer now ms).2.objects = q.objects ++ [⟨ms, now + ms⟩] := by
    rw [← htimer]
    rfl
  refine ⟨⟨?_, ?_, ?_, ?_, ?_, ?_⟩, hts⟩
  · exact ordered_emplace h.ordered hnew
  · rw [hts, List.map_append]
    refine List.nodup_append.mpr ⟨h.ids, by simp, ?_⟩
    rintro a ha b hb rfl
    obtain ⟨⟨id, o⟩, ht, rfl⟩ := List.mem_map.mp ha
    have hb' : id = q.nextId := by simpa using hb
    exact hid o (hb' ▸ ht)
  · rw [hts, List.map_append]
    refine List.nodup_append.mpr ⟨h.numbers, by simp, ?_⟩
    rintro a ha b hb rfl
    obtain ⟨⟨id, o⟩, ht, rfl⟩ := List.mem_map.mp ha
    exact hnumber id o ht (by simpa using hb)
  · intro k o
    rw [hts, hobj]
    show (k, o) ∈ emplace (now + ms, q.nextId) q.objects.length q.events ↔ _
    rw [mem_emplace hnew, List.mem_append, List.mem_singleton, h.keys]
    constructor
    · rintro (heq | ⟨ht, t, hobj, hn⟩)
      · obtain ⟨rfl, rfl⟩ := Prod.mk.inj heq
        exact ⟨.inr rfl, ⟨ms, now + ms⟩, by simp, rfl⟩
      · refine ⟨.inl ht, t, ?_, hn⟩
        rw [List.getElem?_append_left (h.made _ _ ht)]
        exact hobj
    · rintro ⟨ht | heq, t, hobj, hn⟩
      · rw [List.getElem?_append_left (h.made _ _ ht)] at hobj
        exact .inr ⟨ht, t, hobj, hn⟩
      · obtain ⟨hk, rfl⟩ := Prod.mk.inj heq
        have ht : t = ⟨ms, now + ms⟩ := by simpa using hobj.symm
        subst ht
        refine .inl ?_
        rw [← hk]
        exact Prod.ext (Prod.ext hn.symm rfl) rfl
  · intro id o ht
    rw [hts] at ht
    rw [hobj, List.length_append]
    rcases List.mem_append.mp ht with ht | ht
    · exact Nat.lt_succ_of_lt (h.made id o ht)
    · obtain ⟨-, rfl⟩ := Prod.mk.inj (List.mem_singleton.mp ht)
      exact Nat.lt_succ_self _
  · intro t ht
    rw [hobj] at ht
    rcases List.mem_append.mp ht with ht | ht
    · exact h.intervals t ht
    · obtain rfl := List.mem_singleton.mp ht
      exact Nat.one_le_iff_ne_zero.mpr hms

/-! ### `RemoveTimer` -/

/-- The maps without one id. -/
theorem Consistent.without (h : Consistent q) (id : Nat) {es : List (Deadline × Nat)}
    (hes : ∀ e, e ∈ es ↔ e ∈ q.events ∧ e.1.2 ≠ id) (hord : Ordered es) :
    Consistent { q with events := es, timers := q.timers.filter fun t => t.1 ≠ id } where
  ordered := hord
  ids := h.ids.sublist (List.filter_sublist.map _)
  numbers := h.numbers.sublist (List.filter_sublist.map _)
  keys k o := by
    show (k, o) ∈ es ↔ (k.2, o) ∈ q.timers.filter (fun t => t.1 ≠ id) ∧ _
    rw [hes, h.keys, List.mem_filter]
    simp only [decide_eq_true_eq]
    tauto
  made i o ht := h.made i o (List.mem_filter.mp ht).1
  intervals := h.intervals

/-- **`RemoveTimer`** finds the event by the deadline of the timer. -/
theorem Consistent.removeTimer (h : Consistent q) (id : Nat) :
    Consistent (q.removeTimer id) ∧
      (q.removeTimer id).timers = q.timers.filter fun t => t.1 ≠ id := by
  unfold TimerQueue.removeTimer
  split
  · rename_i hnone
    refine ⟨h, (List.filter_eq_self.mpr ?_).symm⟩
    rintro ⟨id', o⟩ ht
    simp only [decide_eq_true_eq]
    rintro rfl
    exact not_mem_of_lookup hnone o ht
  · rename_i o ho
    have ht := mem_of_lookup ho
    obtain ⟨x, hobj⟩ : ∃ x, q.objects[o]? = some x :=
      ⟨_, List.getElem?_eq_getElem (h.made id o ht)⟩
    have hnext : q.nextTimeout o = x.nextTimeout := by simp [nextTimeout, hobj]
    refine ⟨h.without id ?_ (h.ordered.filter _), rfl⟩
    rintro ⟨⟨t, id'⟩, o'⟩
    rw [List.mem_filter]
    simp only [decide_eq_true_eq, ne_eq]
    refine and_congr_right fun he => not_congr ?_
    constructor
    · intro heq
      exact (Prod.mk.inj heq).2
    · rintro rfl
      have heq := h.event_unique he ((h.keys (q.nextTimeout o, id') o).mpr
        ⟨ht, _, hobj, hnext.symm⟩) rfl
      exact (Prod.mk.inj heq).1

/-! ### `HandleTimerEvent` -/

/-- **One round**: the first event moves behind the present, or its timer is gone. -/
theorem Consistent.fire (h : Consistent q) (now : Int) (flag : Bool) {e : Deadline × Nat}
    {rest : List (Deadline × Nat)} (he : q.events = e :: rest) :
    Consistent (q.fire now flag e rest) ∧
      (q.fire now flag e rest).timers =
        (if flag then q.timers else q.timers.filter fun t => t.1 ≠ e.1.2) ∧
      due now (q.fire now flag e rest).events = due now rest ∧
      (e.1.2, e.2) ∈ q.timers := by
  have hord := h.ordered
  rw [he] at hord
  obtain ⟨hfirst, hrest⟩ := List.pairwise_cons.mp hord
  have hmem : e ∈ q.events := he ▸ List.mem_cons_self
  obtain ⟨htimer, x, hobj, hn⟩ := (h.keys e.1 e.2).mp hmem
  have hothers : ∀ e' ∈ rest, e'.1.2 ≠ e.1.2 := by
    intro e' he' hid
    have heq := h.event_unique (he ▸ List.mem_cons_of_mem _ he') hmem hid
    have := hfirst e' he'
    rw [heq, before_irrefl] at this
    exact Bool.false_ne_true this
  have hrest_iff : ∀ e', e' ∈ rest ↔ e' ∈ q.events ∧ e'.1.2 ≠ e.1.2 := by
    intro e'
    rw [he]
    constructor
    · intro hm
      exact ⟨List.mem_cons_of_mem _ hm, hothers e' hm⟩
    · rintro ⟨hm, hne⟩
      rcases List.mem_cons.mp hm with rfl | hm
      · exact absurd rfl hne
      · exact hm
  cases flag with
  | false => exact ⟨h.without e.1.2 hrest_iff hrest, rfl, rfl, htimer⟩
  | true =>
    -- The deadline of this timer is new, and those of the others are as they were.
    have hself : (q.objects.modify e.2 fun t => t.setNextTimeout now)[e.2]? =
        some (x.setNextTimeout now) := by
      simp [hobj]
    have hothersObj : ∀ o, o ≠ e.2 →
        (q.objects.modify e.2 fun t => t.setNextTimeout now)[o]? = q.objects[o]? := by
      intro o ho
      simp [ho.symm]
    have hlate : now < now + x.interval := by
      have := h.intervals x (List.mem_of_getElem? hobj)
      omega
    have hnext : TimerQueue.nextTimeout
        { q with objects := q.objects.modify e.2 fun t => t.setNextTimeout now } e.2 =
        now + x.interval := by
      simp only [nextTimeout, hself, Option.map_some, Option.getD_some]
      rfl
    have hevents : (q.fire now true e rest).events = emplace (now + x.interval, e.1.2) e.2 rest := by
      rw [← hnext]
      rfl
    have hnew : ∀ e' ∈ rest, e'.1 ≠ (now + x.interval, e.1.2) := by
      rintro e' he' heq
      exact hothers e' he' (by rw [heq])
    refine ⟨⟨?_, h.ids, h.numbers, ?_, ?_, ?_⟩, rfl, ?_, htimer⟩
    · rw [hevents]
      exact ordered_emplace hrest hnew
    · intro k o
      rw [hevents, mem_emplace hnew, hrest_iff, h.keys]
      show _ ↔ (k.2, o) ∈ q.timers ∧
        ∃ t, (q.objects.modify e.2 fun t => t.setNextTimeout now)[o]? = some t ∧ t.nextTimeout = k.1
      constructor
      · rintro (heq | ⟨⟨ht, t, ht', hn'⟩, hne⟩)
        · obtain ⟨rfl, rfl⟩ := Prod.mk.inj heq
          exact ⟨htimer, _, hself, rfl⟩
        · have ho : o ≠ e.2 := fun ho => hne (h.same_id ht (ho ▸ htimer))
          exact ⟨ht, t, by rw [hothersObj o ho]; exact ht', hn'⟩
      · rintro ⟨ht, t, ht', hn'⟩
        by_cases ho : o = e.2
        · subst ho
          rw [hself] at ht'
          obtain rfl := Option.some.inj ht'
          refine .inl (Prod.ext (Prod.ext hn'.symm (h.same_id ht htimer)) rfl)
        · rw [hothersObj o ho] at ht'
          exact .inr ⟨⟨ht, t, ht', hn'⟩, fun hid => ho (h.same_number ht (by rw [hid]; exact htimer))⟩
    · intro id o ht
      show o < (q.objects.modify e.2 _).length
      rw [List.length_modify]
      exact h.made id o ht
    · intro t ht
      obtain ⟨i, hi⟩ := List.mem_iff_getElem?.mp ht
      by_cases hie : i = e.2
      · rw [hie] at hi
        have heq : t = x.setNextTimeout now := Option.some.inj (hi.symm.trans hself)
        rw [heq]
        exact h.intervals x (List.mem_of_getElem? hobj)
      · exact h.intervals t (List.mem_of_getElem? ((hothersObj i hie).symm.trans hi))
    · rw [hevents]
      exact due_emplace hlate

/-- **The loop ends**, with as many rounds as there are events due. -/
theorem Consistent.handleLoop_isSome {now : Int} : ∀ (fuel : Nat) {q : TimerQueue}
    (flags : Nat → Bool), Consistent q → due now q.events < fuel →
      (handleLoop fuel q now flags).isSome = true := by
  intro fuel
  induction fuel with
  | zero =>
    intro q flags _ hfuel
    exact absurd hfuel (Nat.not_lt_zero _)
  | succ fuel ih =>
    intro q flags h hfuel
    unfold handleLoop
    split
    · rfl
    · rename_i hts
      split
      · rename_i hnil
        -- A timer without an event.
        obtain ⟨⟨id, o⟩, ht⟩ := List.exists_mem_of_ne_nil _ hts
        obtain ⟨t, -, he⟩ := h.sameTimers.keys id o ht
        rw [hnil] at he
        simp at he
      · rename_i e rest he
        split
        · rename_i hdue
          obtain ⟨hfire, -, hcount, -⟩ := h.fire now (flags 0) he
          rw [Option.isSome_map]
          apply ih _ hfire
          rw [hcount]
          rw [he, due, List.countP_cons, if_pos (by simpa using hdue)] at hfuel
          exact Nat.lt_of_succ_lt_succ hfuel
        · rfl

theorem Consistent.returns (h : Consistent q) (now : Int) (flags : Nat → Bool) :
    (q.handleTimerEvent now flags).isSome = true :=
  h.handleLoop_isSome _ _ (Nat.lt_succ_of_le List.countP_le_length)

end TimerQueue

/-! ## What has happened -/

namespace TimerRun

/-- **What a queue and its past have to do with each other.** -/
structure Told (q : TimerQueue) (past : List TimerStory) : Prop where
  consistent : q.Consistent
  /-- Numbers are given out in order, each to one id. -/
  numbered : ∀ id o, .added id o ∈ past → o < q.objects.length
  once : ∀ id id' o, .added id o ∈ past → .added id' o ∈ past → id = id'
  added : ∀ id o, (id, o) ∈ q.timers → .added id o ∈ past
  /-- A timer that has been removed is not in the maps any more. -/
  away : ∀ pre id post o, past = pre ++ .removed id :: post → .added id o ∈ pre →
    ∀ id', (id', o) ∉ q.timers
  gone : RemovedForGood past
  stays : ∀ pre id o post, past = pre ++ .added id o :: post → .removed id ∉ post →
    (∀ x : TimerQueue.Ran, .ran x ∈ post → x.timer = o → x.flag = true) → (id, o) ∈ q.timers

/-- Where an element of a list grown by one is. -/
theorem append_singleton_eq {past pre post : List TimerStory} {x y : TimerStory}
    (h : past ++ [x] = pre ++ y :: post) :
    (post = [] ∧ past = pre ∧ x = y) ∨ ∃ post', post = post' ++ [x] ∧ past = pre ++ y :: post' := by
  rcases List.eq_nil_or_concat post with rfl | ⟨post', z, rfl⟩
  · obtain ⟨hp, hx⟩ := List.append_inj' h rfl
    exact .inl ⟨rfl, hp, by simpa using hx⟩
  · rw [List.concat_eq_append] at h ⊢
    rw [← List.cons_append, ← List.append_assoc] at h
    obtain ⟨hp, hx⟩ := List.append_inj' h rfl
    exact .inr ⟨post', by rw [List.singleton_inj.mp hx], hp⟩

variable {q : TimerQueue} {past : List TimerStory}

theorem told_start : Told TimerQueue.new [] where
  consistent := TimerQueue.consistent_new
  numbered id o h := by simp at h
  once id id' o h := by simp at h
  added id o h := by simp [TimerQueue.new] at h
  away pre id post o h := by simp at h
  gone pre id post o h := by simp at h
  stays pre id o post h := by simp at h

theorem Told.addTimer (h : Told q past) {now : Int} {ms : Nat} (hms : ms ≠ 0)
    (hfree : q.live q.nextId = false) :
    Told (q.addTimer now ms).2 (past ++ [.added q.nextId q.objects.length]) := by
  obtain ⟨hc, hts⟩ := h.consistent.addTimer now hms hfree
  have hlen : (q.addTimer now ms).2.objects.length = q.objects.length + 1 := List.length_append
  have hold : ∀ id, .added id q.objects.length ∉ past :=
    fun id hm => Nat.lt_irrefl _ (h.numbered id _ hm)
  refine ⟨hc, ?_, ?_, ?_, ?_, ?_, ?_⟩
  · intro id o hm
    rw [hlen]
    rcases List.mem_append.mp hm with hm | hm
    · exact Nat.lt_succ_of_lt (h.numbered id o hm)
    · injection List.mem_singleton.mp hm with _ ho
      exact ho ▸ Nat.lt_succ_self _
  · intro id id' o hm hm'
    rcases List.mem_append.mp hm with hm | hm <;> rcases List.mem_append.mp hm' with hm' | hm'
    · exact h.once id id' o hm hm'
    · injection List.mem_singleton.mp hm' with _ ho
      exact absurd (ho ▸ hm) (hold id)
    · injection List.mem_singleton.mp hm with _ ho
      exact absurd (ho ▸ hm') (hold id')
    · injection List.mem_singleton.mp hm with hid _
      injection List.mem_singleton.mp hm' with hid' _
      exact hid.trans hid'.symm
  · intro id o ht
    rw [hts] at ht
    rcases List.mem_append.mp ht with ht | ht
    · exact List.mem_append_left _ (h.added id o ht)
    · obtain ⟨rfl, rfl⟩ := Prod.mk.inj (List.mem_singleton.mp ht)
      exact List.mem_append_right _ (List.mem_singleton.mpr rfl)
  · intro pre id post o heq hm id' ht
    rcases append_singleton_eq heq with ⟨-, -, hx⟩ | ⟨post', -, heq'⟩
    · simp at hx
    · rw [hts] at ht
      rcases List.mem_append.mp ht with ht | ht
      · exact h.away pre id post' o heq' hm id' ht
      · obtain ⟨-, rfl⟩ := Prod.mk.inj (List.mem_singleton.mp ht)
        exact hold id (heq' ▸ List.mem_append_left _ hm)
  · intro pre id post o heq hm r hr
    rcases append_singleton_eq heq with ⟨-, -, hx⟩ | ⟨post', rfl, heq'⟩
    · simp at hx
    · rcases List.mem_append.mp hr with hr | hr
      · exact h.gone pre id post' o heq' hm r hr
      · simp at hr
  · intro pre id o post heq hnot hran
    rw [hts]
    rcases append_singleton_eq heq with ⟨-, -, hx⟩ | ⟨post', rfl, heq'⟩
    · injection hx with hid ho
      exact List.mem_append_right _ (List.mem_singleton.mpr (by rw [hid, ho]))
    · refine List.mem_append_left _ (h.stays pre id o post' heq' ?_ ?_)
      · exact fun hm => hnot (List.mem_append_left _ hm)
      · exact fun x hx => hran x (List.mem_append_left _ hx)

theorem Told.removeTimer (h : Told q past) (id : Nat) :
    Told (q.removeTimer id) (past ++ [.removed id]) := by
  obtain ⟨hc, hts⟩ := h.consistent.removeTimer id
  have hobjects : (q.removeTimer id).objects = q.objects := by
    unfold TimerQueue.removeTimer
    split <;> rfl
  have hsub : ∀ x, x ∈ (q.removeTimer id).timers ↔ x ∈ q.timers ∧ x.1 ≠ id := by
    intro x
    rw [hts, List.mem_filter]
    simp
  have hpast : ∀ i o, .added i o ∈ past ++ [.removed id] → .added i o ∈ past := by
    intro i o hm
    rcases List.mem_append.mp hm with hm | hm
    · exact hm
    · simp at hm
  refine ⟨hc, ?_, ?_, ?_, ?_, ?_, ?_⟩
  · intro i o hm
    rw [hobjects]
    exact h.numbered i o (hpast i o hm)
  · intro i i' o hm hm'
    exact h.once i i' o (hpast i o hm) (hpast i' o hm')
  · intro i o ht
    exact List.mem_append_left _ (h.added i o ((hsub _).mp ht).1)
  · intro pre i post o heq hm i' ht
    obtain ⟨ht, hne⟩ := (hsub _).mp ht
    rcases append_singleton_eq heq with ⟨-, rfl, hx⟩ | ⟨post', -, heq'⟩
    · -- It is being removed now.
      injection hx with hid
      exact hne ((h.once i' i o (h.added i' o ht) hm).trans hid.symm)
    · exact h.away pre i post' o heq' hm i' ht
  · intro pre i post o heq hm r hr
    rcases append_singleton_eq heq with ⟨rfl, -, -⟩ | ⟨post', rfl, heq'⟩
    · simp at hr
    · rcases List.mem_append.mp hr with hr | hr
      · exact h.gone pre i post' o heq' hm r hr
      · simp at hr
  · intro pre i o post heq hnot hran
    rcases append_singleton_eq heq with ⟨-, -, hx⟩ | ⟨post', rfl, heq'⟩
    · simp at hx
    · rw [hsub]
      refine ⟨h.stays pre i o post' heq' ?_ ?_, ?_⟩
      · exact fun hm => hnot (List.mem_append_left _ hm)
      · exact fun x hx => hran x (List.mem_append_left _ hx)
      · rintro rfl
        exact hnot (List.mem_append_right _ (List.mem_singleton.mpr rfl))

theorem Told.fire (h : Told q past) (now : Int) (flag : Bool) {e : Deadline × Nat}
    {rest : List (Deadline × Nat)} (he : q.events = e :: rest) :
    Told (q.fire now flag e rest) (past ++ [.ran ⟨e.1.2, e.2, flag⟩]) := by
  obtain ⟨hc, hts, -, htimer⟩ := h.consistent.fire now flag he
  have hobjects : (q.fire now flag e rest).objects.length = q.objects.length := by
    cases flag with
    | false => rfl
    | true => exact List.length_modify _ _ _
  have hsub : ∀ x, x ∈ (q.fire now flag e rest).timers ↔
      x ∈ q.timers ∧ (flag = false → x.1 ≠ e.1.2) := by
    intro x
    rw [hts]
    cases flag <;> simp [List.mem_filter]
  have hpast : ∀ i o, .added i o ∈ past ++ [.ran ⟨e.1.2, e.2, flag⟩] → .added i o ∈ past := by
    intro i o hm
    rcases List.mem_append.mp hm with hm | hm
    · exact hm
    · simp at hm
  refine ⟨hc, ?_, ?_, ?_, ?_, ?_, ?_⟩
  · intro i o hm
    rw [hobjects]
    exact h.numbered i o (hpast i o hm)
  · intro i i' o hm hm'
    exact h.once i i' o (hpast i o hm) (hpast i' o hm')
  · intro i o ht
    exact List.mem_append_left _ (h.added i o ((hsub _).mp ht).1)
  · intro pre i post o heq hm i' ht
    rcases append_singleton_eq heq with ⟨-, -, hx⟩ | ⟨post', -, heq'⟩
    · simp at hx
    · exact h.away pre i post' o heq' hm i' ((hsub _).mp ht).1
  · intro pre i post o heq hm r hr
    rcases append_singleton_eq heq with ⟨-, -, hx⟩ | ⟨post', rfl, heq'⟩
    · simp at hx
    · rcases List.mem_append.mp hr with hr | hr
      · exact h.gone pre i post' o heq' hm r hr
      · -- The timer that runs is in the maps, and so it has not been removed.
        injection List.mem_singleton.mp hr with hr
        subst hr
        rintro rfl
        exact h.away pre i post' e.2 heq' hm e.1.2 htimer
  · intro pre i o post heq hnot hran
    rcases append_singleton_eq heq with ⟨-, -, hx⟩ | ⟨post', rfl, heq'⟩
    · simp at hx
    · have ht := h.stays pre i o post' heq' (fun hm => hnot (List.mem_append_left _ hm))
        (fun x hx => hran x (List.mem_append_left _ hx))
      rw [hsub]
      refine ⟨ht, ?_⟩
      rintro rfl rfl
      have ho := h.consistent.same_number ht htimer
      have := hran ⟨e.1.2, e.2, false⟩ (List.mem_append_right _ (List.mem_singleton.mpr rfl))
        ho.symm
      exact Bool.false_ne_true this

/-- The whole loop. -/
theorem Told.handleLoop {now : Int} : ∀ (fuel : Nat) {q q' : TimerQueue} {past : List TimerStory}
    {flags : Nat → Bool} {ran : List TimerQueue.Ran}, Told q past →
      TimerQueue.handleLoop fuel q now flags = some (q', ran) → Told q' (past ++ ran.map .ran) := by
  intro fuel
  induction fuel with
  | zero =>
    intro q q' past flags ran _ heq
    simp [TimerQueue.handleLoop] at heq
  | succ fuel ih =>
    intro q q' past flags ran h heq
    have hstop : some (q, []) = some (q', ran) → Told q' (past ++ ran.map .ran) := by
      intro hs
      obtain ⟨rfl, rfl⟩ := Prod.mk.inj (Option.some.inj hs)
      rw [List.map_nil, List.append_nil]
      exact h
    unfold TimerQueue.handleLoop at heq
    split at heq
    · exact hstop heq
    · split at heq
      · simp at heq
      · rename_i e rest he
        split at heq
        · obtain ⟨⟨q₁, ran₁⟩, hrest, heq⟩ := Option.map_eq_some_iff.mp heq
          obtain ⟨rfl, rfl⟩ := Prod.mk.inj heq
          have := ih (h.fire now (flags 0) he) hrest
          rwa [List.append_assoc] at this
        · exact hstop heq

/-- **One call.** -/
theorem Told.step {r r' : TimerRun} {c : TimerCall} (h : Told r.q r.past) (hs : Steady r c)
    (hstep : r.step c = some r') : Told r'.q r'.past := by
  cases c with
  | addTimer now ms =>
    simp only [TimerRun.step] at hstep
    split at hstep
    · obtain rfl := Option.some.inj hstep
      exact h.addTimer hs.1 hs.2
    · simp at hstep
  | removeTimer id =>
    obtain rfl := Option.some.inj hstep
    exact h.removeTimer id
  | handleTimerEvent now flags =>
    simp only [TimerRun.step] at hstep
    split at hstep
    · obtain ⟨⟨q, ran⟩, hq, rfl⟩ := Option.map_eq_some_iff.mp hstep
      exact h.handleLoop _ hq
    · simp at hstep

theorem told_of_reach {r : TimerRun} (h : Reach system Steady r) : Told r.q r.past := by
  refine h.inv (P := fun r => Told r.q r.past) ?_ ?_
  · rintro r rfl
    exact told_start
  · intro r c r' hr hs hstep
    exact hr.step hs hstep

/-- **The timers are kept** in every state of every run in which no timer has the interval 0 and no
id is given out a second time while its timer lives. Either would break it at once: a timer without
an interval is due again as soon as it has fired, so that `HandleTimerEvent` does not come to an
end, and an id that comes round gets an event, but no entry of its own among the timers. -/
theorem timers_kept (r : TimerRun) (h : Reach system Steady r) : Kept r := by
  have ht := told_of_reach h
  exact ⟨ht.consistent.sameTimers, fun now flags _ => ht.consistent.returns now flags, ht.gone,
    ht.stays⟩

theorem start_start : system.start start := rfl

/-- Two timers; the first stops of itself, the second is removed. -/
theorem timers_kept_two : ∃ r, Reach system Steady r ∧ Kept r ∧
    r.past = [.added 1 0, .added 2 1, .ran ⟨1, 0, true⟩, .ran ⟨2, 1, true⟩, .removed 2,
      .ran ⟨1, 0, false⟩] := by
  obtain ⟨r, hr, hp⟩ := reach_of_runFrom step Steady start
    [.addTimer 0 5, .addTimer 1 5, .handleTimerEvent 6 fun _ => true, .removeTimer 2,
      .handleTimerEvent 20 fun _ => false] past
    [.added 1 0, .added 2 1, .ran ⟨1, 0, true⟩, .ran ⟨2, 1, true⟩, .removed 2,
      .ran ⟨1, 0, false⟩] start_start (by decide)
  exact ⟨r, hr, timers_kept r hr, hp⟩

/-- **An interval of 0**: the event has another key than its timer, `RemoveTimer` does not find it,
and the callback runs although its timer has been removed. -/
theorem timers_kept_zero : ∃ r, Reach system (anyStep _ _) r ∧
    r.past = [.added 1 0, .removed 1, .added 2 1, .ran ⟨1, 0, false⟩] ∧ ¬ Kept r := by
  obtain ⟨r, hr, hp⟩ := reach_of_runFrom step (anyStep _ _) start
    [.addTimer 0 0, .removeTimer 1, .addTimer 0 5, .handleTimerEvent 0 fun _ => false] past
    [.added 1 0, .removed 1, .added 2 1, .ran ⟨1, 0, false⟩] start_start (by decide)
  refine ⟨r, hr, hp, ?_⟩
  intro hk
  exact hk.gone [.added 1 0] 1 [.added 2 1, .ran ⟨1, 0, false⟩] 0 hp (by simp) ⟨1, 0, false⟩
    (by simp) rfl

end TimerRun

end Maixii.Net
