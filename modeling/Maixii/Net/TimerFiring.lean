import Maixii.Net.Timer

/-!
# `Net/TimerFiring.lean`: what `HandleTimerEvent` runs

The loop of `HandleTimerEvent` removes the first event and may put it back further on, in the map
it is draining. A key it puts back is later than the captured time, so what is due only ever gets
less: the loop runs **the events that were due when it began, in the order of the map, and nothing
else** (`Fired`), as long as every id has one event. An id that comes round while its timer lives
has two, and the second can outlive `timers_`, whose emptiness ends the loop (`fires_reused`).
-/

set_option autoImplicit false

namespace Maixii.Net

open Maixii.Lib

namespace TimerQueue

/-- The events that are due, in the order of the map. -/
def dueEvents (now : Int) (es : List (Deadline × Nat)) : List (Deadline × Nat) :=
  es.filter fun e => e.1.1 ≤ now

/-- What one `HandleTimerEvent` promises: the queue before it, the time it reads, what the
callbacks return, the queue after it and the callbacks that were run. -/
structure Fired (q : TimerQueue) (now : Int) (flags : Nat → Bool) (q' : TimerQueue)
    (ran : List Ran) : Prop where
  /-- The map is in order of deadline and id. -/
  ordered : Ordered q.events
  /-- The callbacks of the due events, in that order, once each, and no others. -/
  runs : ran.map (fun r => (r.id, r.timer)) = (dueEvents now q.events).map fun e => (e.1.2, e.2)
  answers : ∀ k r, ran[k]? = some r → r.flag = flags k
  /-- No timer runs twice. -/
  once : (ran.map Ran.timer).Nodup
  /-- Nothing is due afterwards. -/
  late : ∀ e ∈ q'.events, now < e.1.1
  /-- Every live timer has been run if its deadline was due. -/
  due : ∀ id o t, (id, o) ∈ q.timers → q.objects[o]? = some t → t.nextTimeout ≤ now →
    ∃ r ∈ ran, r.id = id ∧ r.timer = o
  /-- `false`: the timer is in neither map. -/
  gone : ∀ r ∈ ran, r.flag = false →
    (∀ t ∈ q'.timers, t.1 ≠ r.id) ∧ ∀ e ∈ q'.events, e.1.2 ≠ r.id
  /-- `true`: it is in both, an interval from now. -/
  again : ∀ r ∈ ran, r.flag = true → (r.id, r.timer) ∈ q'.timers ∧
    ∃ t, q.objects[r.timer]? = some t ∧
      q'.objects[r.timer]? = some (t.setNextTimeout now) ∧
      ((now + t.interval, r.id), r.timer) ∈ q'.events
  /-- The others are as they were. -/
  others : ∀ id o, (∀ r ∈ ran, r.id ≠ id) → ((id, o) ∈ q'.timers ↔ (id, o) ∈ q.timers) ∧
    ∀ k, ((k, id), o) ∈ q'.events ↔ ((k, id), o) ∈ q.events

/-- `HandleTimerEvent` returns, and does that. -/
def Fires (q : TimerQueue) (now : Int) (flags : Nat → Bool) : Prop :=
  ∃ q' ran, q.handleTimerEvent now flags = some (q', ran) ∧ Fired q now flags q' ran

/-! ## The events that are due -/

/-- An event that is not due makes no difference. -/
theorem dueEvents_emplace {k : Deadline} {o : Nat} {es : List (Deadline × Nat)} {now : Int}
    (hk : now < k.1) : dueEvents now (emplace k o es) = dueEvents now es := by
  have hlate : ¬ k.1 ≤ now := by omega
  induction es with
  | nil => simp [emplace, dueEvents, hlate]
  | cons e es ih =>
    unfold emplace
    split
    · simp [dueEvents, hlate]
    · split
      · rfl
      · unfold dueEvents at ih ⊢
        rw [List.filter_cons, List.filter_cons, ih]

/-- The first event is the next one due. -/
theorem late_of_first {e : Deadline × Nat} {es : List (Deadline × Nat)} {now : Int}
    (hord : Ordered (e :: es)) (hlate : now < e.1.1) : ∀ x ∈ e :: es, now < x.1.1 := by
  intro x hx
  rcases List.mem_cons.mp hx with rfl | hx
  · exact hlate
  · have hbefore := (List.pairwise_cons.mp hord).1 x hx
    simp only [before, Bool.or_eq_true, Bool.and_eq_true, decide_eq_true_eq] at hbefore
    omega

theorem dueEvents_late {es : List (Deadline × Nat)} {now : Int} (h : ∀ e ∈ es, now < e.1.1) :
    dueEvents now es = [] := by
  rw [dueEvents, List.filter_eq_nil_iff]
  intro e he
  have := h e he
  simp only [decide_eq_true_eq]
  omega

/-! ## One round -/

variable {q q' : TimerQueue} {now : Int} {flag : Bool} {e : Deadline × Nat}
  {rest : List (Deadline × Nat)}

theorem objects_fire_other {o : Nat} (ho : o ≠ e.2) :
    (q.fire now flag e rest).objects[o]? = q.objects[o]? := by
  cases flag with
  | false => rfl
  | true =>
    show (q.objects.modify e.2 _)[o]? = _
    simp [ho.symm]

theorem objects_fire_self : (q.fire now true e rest).objects[e.2]? =
    q.objects[e.2]?.map fun t => t.setNextTimeout now := by
  show (q.objects.modify e.2 _)[e.2]? = _
  simp

/-- What the other events of a first event are. -/
theorem Consistent.behind (h : Consistent q) (he : q.events = e :: rest) :
    ∀ x ∈ rest, x ∈ q.events ∧ x.1.2 ≠ e.1.2 ∧ x.2 ≠ e.2 := by
  intro x hx
  have hmem : x ∈ q.events := he ▸ List.mem_cons_of_mem _ hx
  have hfirst : e ∈ q.events := he ▸ List.mem_cons_self
  have hid : x.1.2 ≠ e.1.2 := by
    intro heq
    have hord := h.ordered
    rw [he] at hord
    have hbefore := (List.pairwise_cons.mp hord).1 x hx
    rw [h.event_unique hmem hfirst heq, before_irrefl] at hbefore
    exact Bool.false_ne_true hbefore
  refine ⟨hmem, hid, ?_⟩
  intro ho
  have htimer := ((h.keys x.1 x.2).mp hmem).1
  have hfirst := ((h.keys e.1 e.2).mp hfirst).1
  exact hid (h.same_id htimer (ho ▸ hfirst))

/-- What is due after a round was due before it, behind the first event. -/
theorem Consistent.dueEvents_fire (h : Consistent q) (he : q.events = e :: rest) (now : Int)
    (flag : Bool) : dueEvents now (q.fire now flag e rest).events = dueEvents now rest := by
  cases flag with
  | false => rfl
  | true =>
    obtain ⟨-, t, hobj, -⟩ := (h.keys e.1 e.2).mp (he ▸ List.mem_cons_self)
    have hnext : ({ q with objects := q.objects.modify e.2 fun t => t.setNextTimeout now } :
        TimerQueue).nextTimeout e.2 = now + t.interval := by
      simp [nextTimeout, hobj, Timer.setNextTimeout]
    have hpos := h.intervals t (List.mem_of_getElem? hobj)
    show dueEvents now (emplace (_, e.1.2) e.2 rest) = _
    apply dueEvents_emplace
    show now < _
    rw [hnext]
    omega

/-! ## The loop -/

/-- What the loop is shown to do, round by round. The queue it leaves is one that `Consistent`
speaks of, and that says the rest. -/
structure Drained (q : TimerQueue) (now : Int) (flags : Nat → Bool) (q' : TimerQueue)
    (ran : List Ran) : Prop where
  consistent : Consistent q'
  runs : ran.map (fun r => (r.id, r.timer)) = (dueEvents now q.events).map fun e => (e.1.2, e.2)
  answers : ∀ k r, ran[k]? = some r → r.flag = flags k
  late : ∀ e ∈ q'.events, now < e.1.1
  timers : ∀ x, x ∈ q'.timers ↔ x ∈ q.timers ∧ ∀ r ∈ ran, r.id = x.1 → r.flag = true
  again : ∀ r ∈ ran, r.flag = true →
    q'.objects[r.timer]? = q.objects[r.timer]?.map fun t => t.setNextTimeout now
  others : ∀ o, (∀ r ∈ ran, r.timer ≠ o) → q'.objects[o]? = q.objects[o]?

/-- Nothing is due. -/
theorem Consistent.drained_nil (h : Consistent q) (flags : Nat → Bool)
    (hlate : ∀ e ∈ q.events, now < e.1.1) : Drained q now flags q [] where
  consistent := h
  runs := by rw [dueEvents_late hlate]; rfl
  answers k r hr := by simp at hr
  late := hlate
  timers x := by simp
  again r hr := by simp at hr
  others o _ := rfl

/-- What was run is a timer that was due. -/
theorem Drained.mem {flags : Nat → Bool} {ran : List Ran} (h : Drained q now flags q' ran) {r : Ran}
    (hr : r ∈ ran) : ∃ x ∈ q.events, x.1.1 ≤ now ∧ x.1.2 = r.id ∧ x.2 = r.timer := by
  have hmem : (r.id, r.timer) ∈ ran.map fun r => (r.id, r.timer) := List.mem_map_of_mem hr
  rw [h.runs] at hmem
  obtain ⟨x, hx, heq⟩ := List.mem_map.mp hmem
  obtain ⟨hx, hdue⟩ := List.mem_filter.mp hx
  obtain ⟨hid, ho⟩ := Prod.mk.inj heq
  exact ⟨x, hx, of_decide_eq_true hdue, hid, ho⟩

/-- **One round and the rest of the loop.** -/
theorem Consistent.drained_cons (h : Consistent q) (he : q.events = e :: rest)
    (hdue : e.1.1 ≤ now) {flags : Nat → Bool} {ran : List Ran}
    (hloop : Drained (q.fire now (flags 0) e rest) now (fun k => flags (k + 1)) q' ran) :
    Drained q now flags q' (⟨e.1.2, e.2, flags 0⟩ :: ran) := by
  obtain ⟨-, htimers, -, htimer⟩ := h.fire now (flags 0) he
  have hdueEvents := h.dueEvents_fire he now (flags 0)
  -- The loop does not come back to this timer.
  have hother : ∀ r ∈ ran, r.id ≠ e.1.2 ∧ r.timer ≠ e.2 := by
    intro r hr
    have hmem : (r.id, r.timer) ∈ ran.map fun r => (r.id, r.timer) := List.mem_map_of_mem hr
    rw [hloop.runs, hdueEvents] at hmem
    obtain ⟨x, hx, heq⟩ := List.mem_map.mp hmem
    obtain ⟨hid, ho⟩ := Prod.mk.inj heq
    obtain ⟨-, hne, hno⟩ := h.behind he x (List.mem_filter.mp hx).1
    exact ⟨hid ▸ hne, ho ▸ hno⟩
  refine ⟨hloop.consistent, ?_, ?_, hloop.late, ?_, ?_, ?_⟩
  · have hfirst : dueEvents now (e :: rest) = e :: dueEvents now rest := by
      rw [dueEvents, List.filter_cons, if_pos (decide_eq_true hdue)]
      rfl
    rw [List.map_cons, hloop.runs, hdueEvents, he, hfirst, List.map_cons]
  · intro k r hr
    cases k with
    | zero =>
      obtain rfl := Option.some.inj hr
      rfl
    | succ k => exact hloop.answers k r hr
  · intro x
    rw [hloop.timers, htimers, List.forall_mem_cons]
    cases hflag : flags 0 with
    | false =>
      rw [if_neg Bool.false_ne_true, List.mem_filter]
      simp only [decide_eq_true_eq, Bool.false_eq_true, imp_false]
      constructor
      · rintro ⟨⟨hx, hne⟩, hran⟩
        exact ⟨hx, fun heq => hne heq.symm, hran⟩
      · rintro ⟨hx, hne, hran⟩
        exact ⟨⟨hx, fun heq => hne heq.symm⟩, hran⟩
    | true =>
      rw [if_pos rfl]
      simp
  · intro r hr hflag
    rcases List.mem_cons.mp hr with rfl | hr
    · show q'.objects[e.2]? = _
      rw [hloop.others e.2 fun r hr => (hother r hr).2]
      dsimp only at hflag
      rw [hflag, objects_fire_self]
    · rw [hloop.again r hr hflag, objects_fire_other (hother r hr).2]
  · intro o ho
    rw [List.forall_mem_cons] at ho
    rw [hloop.others o ho.2, objects_fire_other (Ne.symm ho.1)]

/-- **The loop** ends, and has run what was due. -/
theorem Consistent.drains (now : Int) : ∀ (fuel : Nat) {q : TimerQueue} (flags : Nat → Bool),
    Consistent q → Net.due now q.events < fuel →
      ∃ q' ran, handleLoop fuel q now flags = some (q', ran) ∧ Drained q now flags q' ran := by
  intro fuel
  induction fuel with
  | zero =>
    intro q flags _ hfuel
    exact absurd hfuel (Nat.not_lt_zero _)
  | succ fuel ih =>
    intro q flags h hfuel
    unfold handleLoop
    split
    · rename_i hnil
      -- No timer, and so no event.
      refine ⟨q, [], rfl, h.drained_nil flags ?_⟩
      intro e he
      have htimer := ((h.keys e.1 e.2).mp he).1
      rw [hnil] at htimer
      simp at htimer
    · rename_i hts
      split
      · rename_i hnil
        obtain ⟨⟨id, o⟩, ht⟩ := List.exists_mem_of_ne_nil _ hts
        obtain ⟨t, -, he⟩ := h.sameTimers.keys id o ht
        rw [hnil] at he
        simp at he
      · rename_i e rest he
        split
        · rename_i hdue
          obtain ⟨hfire, -, hcount, -⟩ := h.fire now (flags 0) he
          rw [he, Net.due, List.countP_cons, if_pos (by simpa using hdue)] at hfuel
          have hless : Net.due now (q.fire now (flags 0) e rest).events < fuel := by
            rw [hcount]
            exact Nat.lt_of_succ_lt_succ hfuel
          obtain ⟨q', ran, hloop, hdrained⟩ := ih (fun k => flags (k + 1)) hfire hless
          refine ⟨q', _, ?_, h.drained_cons he hdue hdrained⟩
          rw [hloop]
          rfl
        · rename_i hlate
          have hord := h.ordered
          rw [he] at hord
          refine ⟨q, [], rfl, h.drained_nil flags ?_⟩
          rw [he]
          exact late_of_first hord (by omega)

/-- **What the loop has done**, said of the two maps. -/
theorem Consistent.fired (h : Consistent q) {flags : Nat → Bool} {ran : List Ran}
    (hd : Drained q now flags q' ran) : Fired q now flags q' ran := by
  -- What ran is a timer of the queue, so a timer is known by its id.
  have hran : ∀ r ∈ ran, (r.id, r.timer) ∈ q.timers := by
    intro r hr
    obtain ⟨x, hx, -, hid, ho⟩ := hd.mem hr
    have htimer := ((h.keys x.1 x.2).mp hx).1
    rwa [hid, ho] at htimer
  have honce : (ran.map Ran.timer).Nodup := by
    have hmap : ran.map Ran.timer = (dueEvents now q.events).map Prod.snd := by
      have := congrArg (List.map Prod.snd) hd.runs
      rwa [List.map_map, List.map_map] at this
    rw [hmap]
    refine List.Nodup.map_on ?_ ((nodup_of_ordered h.ordered).filter _)
    intro a ha b hb hab
    have ha := (List.mem_filter.mp ha).1
    have hb := (List.mem_filter.mp hb).1
    have hta := ((h.keys a.1 a.2).mp ha).1
    have htb := ((h.keys b.1 b.2).mp hb).1
    exact h.event_unique ha hb (h.same_id hta (hab ▸ htb))
  refine ⟨h.ordered, hd.runs, hd.answers, honce, hd.late, ?_, ?_, ?_, ?_⟩
  · intro id o t ht hobj hdue
    have hevent : ((t.nextTimeout, id), o) ∈ q.events := (h.keys _ _).mpr ⟨ht, t, hobj, rfl⟩
    have hmem : (id, o) ∈ (dueEvents now q.events).map fun e => (e.1.2, e.2) :=
      List.mem_map.mpr ⟨_, List.mem_filter.mpr ⟨hevent, decide_eq_true hdue⟩, rfl⟩
    rw [← hd.runs] at hmem
    obtain ⟨r, hr, heq⟩ := List.mem_map.mp hmem
    exact ⟨r, hr, congrArg Prod.fst heq, congrArg Prod.snd heq⟩
  · intro r hr hflag
    have hgone : ∀ t ∈ q'.timers, t.1 ≠ r.id := by
      intro t ht heq
      have htrue := ((hd.timers t).mp ht).2 r hr heq.symm
      rw [hflag] at htrue
      exact Bool.false_ne_true htrue
    refine ⟨hgone, ?_⟩
    intro x hx
    exact hgone _ ((hd.consistent.keys x.1 x.2).mp hx).1
  · intro r hr hflag
    have htimer : (r.id, r.timer) ∈ q'.timers := by
      refine (hd.timers _).mpr ⟨hran r hr, ?_⟩
      intro r' hr' heq
      -- The same id is the same timer, and that has run once.
      have hsame : r'.timer = r.timer := by
        have hr'mem := hran r' hr'
        rw [heq] at hr'mem
        exact h.same_number hr'mem (hran r hr)
      rw [List.inj_on_of_nodup_map honce hr' hr hsame]
      exact hflag
    obtain ⟨t, hobj⟩ : ∃ t, q.objects[r.timer]? = some t :=
      ⟨_, List.getElem?_eq_getElem (h.made _ _ (hran r hr))⟩
    have hset : q'.objects[r.timer]? = some (t.setNextTimeout now) := by
      rw [hd.again r hr hflag, hobj]
      rfl
    exact ⟨htimer, t, hobj, hset, (hd.consistent.keys _ _).mpr ⟨htimer, _, hset, rfl⟩⟩
  · intro id o hnot
    have htimers : (id, o) ∈ q'.timers ↔ (id, o) ∈ q.timers := by
      rw [hd.timers]
      exact and_iff_left fun r hr heq => absurd heq (hnot r hr)
    refine ⟨htimers, ?_⟩
    intro k
    rw [hd.consistent.keys, h.keys, htimers]
    refine and_congr_right ?_
    intro ht
    rw [hd.others o]
    intro r hr heq
    have hr' := hran r hr
    rw [heq] at hr'
    exact hnot r hr (h.same_id hr' ht)

theorem Consistent.fires (h : Consistent q) (now : Int) (flags : Nat → Bool) :
    Fires q now flags := by
  obtain ⟨q', ran, hloop, hd⟩ :=
    Consistent.drains now (q.events.length + 1) flags h (Nat.lt_succ_of_le List.countP_le_length)
  exact ⟨q', ran, hloop, h.fired hd⟩

end TimerQueue

/-! ## Every reachable queue -/

namespace TimerRun

open TimerQueue

/-- Intervals are at least 1 ms. -/
def Spaced (_ : TimerRun) : TimerCall → Prop
  | .addTimer _ ms => 1 ≤ ms
  | _ => True

instance (r : TimerRun) (c : TimerCall) : Decidable (Spaced r c) :=
  match c with
  | .addTimer _ ms => inferInstanceAs (Decidable (1 ≤ ms))
  | .removeTimer _ => inferInstanceAs (Decidable True)
  | .handleTimerEvent _ _ => inferInstanceAs (Decidable True)

/-- **`HandleTimerEvent` runs what is due**, in every state of every run in which no id is given out
a second time while its timer lives. Which callbacks want their timer repeated is a parameter, since
the loop asks each of them as it goes and puts its event back into the map that it is draining; an
event that is put back is later than the time the loop has read, so nothing runs twice. -/
theorem fires_of_reach (r : TimerRun) (h : Reach system Steady r) (now : Int)
    (flags : Nat → Bool) : Fires r.q now flags :=
  (told_of_reach h).consistent.fires now flags

/-- Two timers, one of them due. -/
theorem fires_of_reach_two : ∃ r, Reach system Steady r ∧ Fires r.q 6 (fun _ => true) ∧
    r.q.events = [((5, 1), 0), ((8, 2), 1)] := by
  obtain ⟨r, hr, hg⟩ := reach_of_runFrom step Steady start
    [.addTimer 0 5, .addTimer 1 7] (fun r => r.q.events) [((5, 1), 0), ((8, 2), 1)] start_start
    (by decide)
  exact ⟨r, hr, fires_of_reach r hr 6 fun _ => true, hg⟩

/-! ## An id that comes round -/

/-- `AddTimer` at some time not before the last. -/
theorem reach_addTimer {r : TimerRun} {now : Int} {ms : Nat} (h : Reach system Spaced r)
    (hms : 1 ≤ ms) (hclock : r.clock ≤ now) :
    ∃ r', Reach system Spaced r' ∧ r'.clock = now ∧ r'.q = (r.q.addTimer now ms).2 := by
  have hspaced : Spaced r (.addTimer now ms) := hms
  have hstep : r.step (.addTimer now ms) = some
      ⟨(r.q.addTimer now ms).2, now, r.past ++ [.added _ r.q.objects.length]⟩ := if_pos hclock
  exact ⟨_, h.next hspaced hstep, rfl, rfl⟩

theorem reach_removeTimer {r : TimerRun} (h : Reach system Spaced r) (id : Nat) :
    ∃ r', Reach system Spaced r' ∧ r'.clock = r.clock ∧ r'.q = r.q.removeTimer id := by
  have hspaced : Spaced r (.removeTimer id) := trivial
  have hstep : r.step (.removeTimer id) = some
      { r with q := r.q.removeTimer id, past := r.past ++ [.removed id] } := rfl
  exact ⟨_, h.next hspaced hstep, rfl, rfl⟩

/-- A timer that stays, and `k` others that come and go. -/
structure Spun (k : Nat) (r : TimerRun) : Prop where
  reach : Reach system Spaced r
  clock : r.clock = 0
  timers : r.q.timers = [(1, 0)]
  events : r.q.events = [((1000, 1), 0)]
  lastNat : r.q.lastNat = (1 + k) % 2 ^ 32
  first : r.q.objects[0]? = some ⟨1000, 1000⟩

theorem spun_zero : ∃ r, Spun 0 r := by
  obtain ⟨r, hr, hg⟩ := reach_of_runFrom step Spaced start [.addTimer 0 1000]
    (fun r => (r.clock, r.q)) (0, ⟨[⟨1000, 1000⟩], [(1, 0)], [((1000, 1), 0)], 1⟩) start_start
    (by decide)
  obtain ⟨hclock, hq⟩ := Prod.mk.inj hg
  have hlast : r.q.lastNat = 1 := congrArg TimerQueue.lastNat hq
  exact ⟨r, hr, hclock, by rw [hq], by rw [hq], hlast.trans (by decide), by rw [hq]; rfl⟩

/-- One more comes. -/
theorem addTimer_second (objects : List Timer) (last : Nat) (hid : (last + 1) % 2 ^ 32 ≠ 1) :
    ((⟨objects, [(1, 0)], [((1000, 1), 0)], last⟩ : TimerQueue).addTimer 0 1).2 =
      ⟨objects ++ [⟨1, 1⟩], [(1, 0), ((last + 1) % 2 ^ 32, objects.length)],
        [((1, (last + 1) % 2 ^ 32), objects.length), ((1000, 1), 0)], (last + 1) % 2 ^ 32⟩ := by
  have hlive : (⟨objects, [(1, 0)], [((1000, 1), 0)], last⟩ : TimerQueue).live
      ((last + 1) % 2 ^ 32) = false := by
    have hne : ((last + 1) % 2 ^ 32 == 1) = false := by simpa using hid
    simp only [live, List.lookup_cons, List.lookup_nil, hne, Option.isSome_none]
  unfold addTimer
  simp only [nextId, hlive]
  rfl

/-- And goes. -/
theorem removeTimer_second (objects : List Timer) (id last : Nat) (hid : id ≠ 1) :
    (⟨objects ++ [⟨1, 1⟩], [(1, 0), (id, objects.length)],
      [((1, id), objects.length), ((1000, 1), 0)], last⟩ : TimerQueue).removeTimer id =
      ⟨objects ++ [⟨1, 1⟩], [(1, 0)], [((1000, 1), 0)], last⟩ := by
  have hne : (id == 1) = false := by simpa using hid
  have hlookup : List.lookup id [(1, 0), (id, objects.length)] = some objects.length := by
    simp [List.lookup_cons, hne]
  unfold removeTimer
  simp only [hlookup]
  simp [nextTimeout, hid.symm]

theorem Spun.succ {k : Nat} {r : TimerRun} (h : Spun k r) (hk : k + 1 < 2 ^ 32) :
    ∃ r', Spun (k + 1) r' := by
  obtain ⟨⟨objects, timers, events, last⟩, clock, past⟩ := r
  obtain ⟨hreach, rfl, rfl, rfl, rfl, hfirst⟩ := h
  have hid : ((1 + k) % 2 ^ 32 + 1) % 2 ^ 32 ≠ 1 := by omega
  obtain ⟨r₁, hreach₁, hclock₁, hq₁⟩ := reach_addTimer hreach (Nat.le_refl 1) (Int.le_refl 0)
  obtain ⟨r₂, hreach₂, hclock₂, hq₂⟩ :=
    reach_removeTimer hreach₁ (((1 + k) % 2 ^ 32 + 1) % 2 ^ 32)
  have hq : r₂.q = ⟨objects ++ [⟨1, 1⟩], [(1, 0)], [((1000, 1), 0)],
      ((1 + k) % 2 ^ 32 + 1) % 2 ^ 32⟩ := by
    rw [hq₂, hq₁, addTimer_second _ _ hid, removeTimer_second _ _ _ hid]
  refine ⟨r₂, hreach₂, hclock₂.trans hclock₁, by rw [hq], by rw [hq], ?_, ?_⟩
  · rw [hq]
    show ((1 + k) % 2 ^ 32 + 1) % 2 ^ 32 = (1 + (k + 1)) % 2 ^ 32
    omega
  · rw [hq, List.getElem?_append_left (List.getElem?_eq_some_iff.mp hfirst).1]
    exact hfirst

theorem spun (k : Nat) (hk : k < 2 ^ 32) : ∃ r, Spun k r := by
  induction k with
  | zero => exact spun_zero
  | succ k ih =>
    obtain ⟨r, hr⟩ := ih (Nat.lt_of_succ_lt hk)
    exact hr.succ hk

/-- **The 2^32nd timer** gets the id of the first, which still lives: it has an event and is not in
`timers_`. When the first is removed, `timers_` is empty, and its callback does not run. -/
theorem fires_reused : ¬ ∀ r, Reach system Spaced r → ∀ now flags, Fires r.q now flags := by
  intro hall
  obtain ⟨⟨⟨objects, timers, events, last⟩, clock, past⟩, hreach, hclock, htimers, hevents, hlast,
    hfirst⟩ := spun (2 ^ 32 - 1) (by decide)
  obtain rfl : clock = 0 := hclock
  obtain rfl : timers = [(1, 0)] := htimers
  obtain rfl : events = [((1000, 1), 0)] := hevents
  obtain rfl : last = 0 := hlast
  obtain ⟨r₁, hreach₁, -, hq₁⟩ :=
    reach_addTimer hreach (by decide : 1 ≤ 5) (Int.le_refl 0)
  obtain ⟨r₂, hreach₂, -, hq₂⟩ := reach_removeTimer hreach₁ 1
  have hadd : r₁.q = ⟨objects ++ [⟨5, 5⟩], [(1, 0)], [((5, 1), objects.length), ((1000, 1), 0)],
      1⟩ := hq₁
  have hnext : TimerQueue.nextTimeout ⟨objects ++ [⟨5, 5⟩], [(1, 0)],
      [((5, 1), objects.length), ((1000, 1), 0)], 1⟩ 0 = 1000 := by
    have hold : (objects ++ [(⟨5, 5⟩ : Timer)])[0]? = some ⟨1000, 1000⟩ := by
      rw [List.getElem?_append_left (List.getElem?_eq_some_iff.mp hfirst).1]
      exact hfirst
    simp only [TimerQueue.nextTimeout, hold]
    rfl
  have hremove : r₂.q = ⟨objects ++ [⟨5, 5⟩], [], [((5, 1), objects.length)], 1⟩ := by
    rw [hq₂, hadd]
    unfold removeTimer
    simp only [List.lookup_cons, beq_self_eq_true, hnext]
    simp
  obtain ⟨q', ran, hloop, hfired⟩ := hall r₂ hreach₂ 10 fun _ => false
  rw [hremove] at hloop
  obtain ⟨rfl, rfl⟩ := Prod.mk.inj (Option.some.inj hloop)
  have hlate : (10 : Int) < 5 := hfired.late ((5, 1), objects.length) (List.mem_singleton.mpr rfl)
  omega

end TimerRun

end Maixii.Net
