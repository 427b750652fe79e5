import Maixii.FsWriter.FsCache

/-!
# `FsWriter/CacheTurns.lean`: the lock, the flags and the semaphores

What the caller and the thread of a cache know of each other, whatever is in the cache: who has the
lock, that a flush is answered once, and that the thread is awake when it is asked for something.
`Turns` is kept by every step; each lemma is about the lines that change something of it.
-/

set_option autoImplicit false

namespace Maixii.FsWriter


/-! ## Parts of the code -/

namespace Caller

/-- The caller has the lock. -/
def holds : Caller → Bool
  | .flushSet => true
  | .flushRaise => true
  | .flushUnlock => true
  | _ => false

/-- It has set `mFlushFlag`. -/
def asks : Caller → Bool
  | .flushRaise => true
  | .flushUnlock => true
  | .flushWait => true
  | _ => false

/-- It has set `mThreadExitFlag`. -/
def ends : Caller → Bool
  | .deinitRaise => true
  | .join => true
  | .destroyed => true
  | _ => false

end Caller

namespace After

def flushes : After → Bool
  | .flushSecond _ => true
  | .flushEnd => true
  | _ => false

def ends : After → Bool
  | .exitSecond _ => true
  | .exitEnd => true
  | _ => false

end After

namespace Thread

/-- The thread writes what is asked for by a flush. -/
def flushes : Thread → Bool
  | .send _ _ _ k => k.flushes
  | .store _ _ k => k.flushes
  | .signal k => k.flushes
  | .flush => true
  | .flushSecond _ => true
  | .flushEnd => true
  | .flushUp => true
  | _ => false

/-- It has the lock. -/
def holds : Thread → Bool
  | .check => true
  | .flushClear => true
  | .unlock => true
  | t => t.flushes

/-- It has seen `mThreadExitFlag`. -/
def ends : Thread → Bool
  | .send _ _ _ k => k.ends
  | .store _ _ k => k.ends
  | .signal k => k.ends
  | .exit => true
  | .exitSecond _ => true
  | .exited => true
  | _ => false

end Thread

/-! ## Taking turns -/

/-- **Who has the lock, who has asked for what, and that nobody sleeps who was asked.** -/
structure Turns (c : Caller) (t : Thread) (lock : Option Holder) (flag : Bool) (done start : Nat)
    (exit : Bool) : Prop where
  callerLock : lock = some .caller ↔ c.holds = true
  threadLock : lock = some .thread ↔ t.holds = true
  flag_iff : flag = true ↔ c.asks = true ∧ done = 0 ∨ t = .flushClear
  once : done = 0 ∨ done = 1 ∧ c = .flushWait
  flushing : t.flushes = true → c = .flushWait ∧ done = 0
  clearing : t = .flushClear → c.asks = true → done = 1
  unlocking : t = .unlock → flag = false
  woken : c = .flushUnlock ∨ c = .flushWait → done = 0 → t = .down ∨ t = .exitCheck → 0 < start
  exit_iff : exit = true ↔ c.ends = true
  ending : t.ends = true → exit = true
  wokenToExit : c = .join → t = .down → 0 < start
  destroyed : c = .destroyed → t = .exited

section

attribute [local grind =] Caller.holds Caller.asks Caller.ends
attribute [local grind =] Thread.holds Thread.flushes Thread.ends

variable {c : Caller} {t : Thread} {lock : Option Holder} {flag : Bool} {done start : Nat}
  {exit : Bool}

theorem le_upUnique (start : Nat) : start ≤ upUnique start := by
  unfold upUnique
  split <;> omega

theorem upUnique_pos (start : Nat) : 0 < upUnique start := by
  unfold upUnique
  split <;> omega

theorem Thread.holds_of_flushes (h : t.flushes = true) : t.holds = true := by
  cases t <;> first | rfl | exact h

theorem Caller.holds_or_waits (h : c.asks = true) : c.holds = true ∨ c = .flushWait := by
  cases c <;> first | exact .inl rfl | exact .inr rfl | exact Bool.noConfusion h

/-- The caller is at a line that has nothing to do with a flush or the end. -/
def Caller.plain (c : Caller) : Bool := !c.holds && !c.asks && !c.ends

/-- The caller goes on among plain lines, and may wake the thread. -/
theorem Turns.plain (h : Turns c t lock flag done start exit) {c' : Caller} {start' : Nat}
    (hc : c.plain = true) (hc' : c'.plain = true) (hs : start ≤ start') :
    Turns c' t lock flag done start' exit := by
  have hwoken : 0 < start → 0 < start' := fun hpos => Nat.lt_of_lt_of_le hpos hs
  cases h
  constructor <;> grind -ring -linarith [Caller.plain]

theorem Turns.flushLock (h : Turns .flushLock t none flag done start exit) :
    Turns .flushSet t (some .caller) flag done start exit := by
  cases h
  constructor <;> grind -ring -linarith

theorem Turns.flushSet (h : Turns .flushSet t lock flag done start exit) :
    Turns .flushRaise t lock true done start exit := by
  have hflush := @Thread.holds_of_flushes t
  cases h
  constructor <;> grind -ring -linarith

theorem Turns.flushRaise (h : Turns .flushRaise t lock flag done start exit) :
    Turns .flushUnlock t lock flag done (upUnique start) exit := by
  have hpos := upUnique_pos start
  cases h
  constructor <;> grind -ring -linarith

theorem Turns.flushUnlock (h : Turns .flushUnlock t lock flag done start exit) :
    Turns .flushWait t none flag done start exit := by
  have hflush := @Thread.holds_of_flushes t
  cases h
  constructor <;> grind -ring -linarith

theorem Turns.flushWait (h : Turns .flushWait t lock flag done start exit) (hd : 0 < done) :
    Turns .flushCheck t lock flag (done - 1) start exit := by
  cases h
  constructor <;> grind -ring -linarith

/-- The end is asked for. -/
theorem Turns.deinit (h : Turns c t lock flag done start exit) (hc : c.plain = true) :
    Turns .deinitRaise t lock flag done start true := by
  cases h
  constructor <;> grind -ring -linarith [Caller.plain]

theorem Turns.deinitRaise (h : Turns .deinitRaise t lock flag done start exit) :
    Turns .join t lock flag done (upUnique start) exit := by
  have hpos := upUnique_pos start
  cases h
  constructor <;> grind -ring -linarith

theorem Turns.join (h : Turns .join .exited lock flag done start exit) :
    Turns .destroyed .exited lock flag done start exit := by
  cases h
  constructor <;> grind -ring -linarith

/-- Lines at which more is known of the flag, or of the semaphore. -/
def Thread.marked : Thread → Bool
  | .down => true
  | .flushClear => true
  | .unlock => true
  | .exitCheck => true
  | _ => false

/-- The thread goes on among lines that mean the same. -/
theorem Turns.same (h : Turns c t lock flag done start exit) {t' : Thread}
    (hf : t'.flushes = t.flushes) (hh : t'.holds = t.holds) (he : t'.ends = t.ends)
    (hm : t.marked = false) (hm' : t'.marked = false) (hx : t ≠ .exited) :
    Turns c t' lock flag done start exit := by
  cases h
  constructor <;> grind -ring -linarith [Thread.marked]

theorem Turns.down (h : Turns c .down lock flag done start exit) :
    Turns c .drain lock flag done (start - 1) exit := by
  cases h
  constructor <;> grind -ring -linarith

theorem Turns.threadLocks (h : Turns c .lock none flag done start exit) :
    Turns c .check (some .thread) flag done start exit := by
  cases h
  constructor <;> grind -ring -linarith

theorem Turns.check (h : Turns c .check lock flag done start exit) :
    Turns c (if flag then .flush else .unlock) lock flag done start exit := by
  have hwaits := @Caller.holds_or_waits c
  cases h
  cases flag <;> constructor <;> grind -ring -linarith

theorem Turns.flushUp (h : Turns c .flushUp lock flag done start exit) :
    Turns c .flushClear lock flag (done + 1) start exit := by
  cases h
  constructor <;> grind -ring -linarith

theorem Turns.flushClear (h : Turns c .flushClear lock flag done start exit) :
    Turns c .unlock lock false done start exit := by
  cases h
  constructor <;> grind -ring -linarith

theorem Turns.unlock (h : Turns c .unlock lock flag done start exit) :
    Turns c .exitCheck none flag done start exit := by
  cases h
  constructor <;> grind -ring -linarith

theorem Turns.exitCheck (h : Turns c .exitCheck lock flag done start exit) :
    Turns c (if exit then .exit else .down) lock flag done start exit := by
  cases h
  cases exit <;> constructor <;> grind -ring -linarith

end

end Maixii.FsWriter
