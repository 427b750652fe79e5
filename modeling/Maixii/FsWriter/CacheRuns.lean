import Maixii.FsWriter.CacheInv

/-!
# `FsWriter/CacheRuns.lean`: nothing is lost, and who waits for whom

The thread writes whole blocks only, so less than a block may stay in the cache, and the caller
waits until its bytes fit. **If at each call the bytes behind the last whole block and the new ones
fit in `mCacheSize - 1`, and the stream takes what it is given**, the stream has got a beginning of
what was written, all of it after a flush and at the end, no unread byte is overwritten and the two
never wait for each other (`cache_safe`). If they do not fit, the two do (`cache_stuck`).
-/

set_option autoImplicit false

namespace Maixii.FsWriter

open Maixii.Lib
open scoped List

/-! ## Runs -/

/-- What a call brings. -/
def Label.data : Label → Bytes
  | .fsWrite buf => buf
  | _ => []

/-- The bytes behind the last whole block and the new ones fit; the stream takes what it is given. -/
def roomy : FsCache → Label → Prop
  | s, .fsWrite buf => s.writePtr % writeBlockSize + buf.length < s.cacheSize
  | _, .thread taken => taken = true
  | _, _ => True

/-- How many bytes are unread. -/
def FsCache.unread (s : FsCache) : Nat :=
  if s.readPtr ≤ s.writePtr then s.writePtr - s.readPtr else s.writePtr + s.cacheSize - s.readPtr

/-- The place holds an unread byte. -/
def FsCache.Unread (s : FsCache) (i : Nat) : Prop :=
  ∃ j, j < s.unread ∧ i = (s.readPtr + j) % s.cacheSize

/-- The caller is in a call, and neither it nor the thread can go on. -/
def FsCache.Stuck (s : FsCache) : Prop :=
  s.caller.outside = false ∧ s.caller ≠ .destroyed ∧ s.callerNext = none ∧
    ∀ taken, s.threadNext taken = none

/-- **What a cache is for**, once `data` has been written to it. -/
structure Safe (s : FsCache) (data : Bytes) : Prop where
  beginning : s.stream <+: data
  flushed : ∀ r, s.caller = .flushed r → r = 0 ∧ s.stream = data
  ended : s.caller = .destroyed → s.stream = data
  kept : ∀ done b src dst next wt free,
    s.caller = .copy done (b :: src) dst next wt free → ¬ s.Unread dst
  live : ¬ s.Stuck

section

variable {s s' : FsCache} {l : Bytes}

theorem inv_init (cache : Nat → UInt8) {k : Nat} (hk : 0 < k) :
    Inv (FsCache.init cache (writeBlockSize * k)) [] where
  size := Nat.mul_pos writeBlockSize_pos hk
  blocks := Nat.dvd_mul_right _ _
  window := window_nil (Nat.mul_pos writeBlockSize_pos hk)
  room := Nat.mul_pos writeBlockSize_pos hk
  write := (Nat.zero_mod _).symm
  past := rfl
  caller := trivial
  thread := Nat.dvd_zero _
  turns := by
    constructor <;> simp [FsCache.init, Caller.holds, Caller.asks, Caller.ends, Thread.holds,
      Thread.flushes, Thread.ends]
  answered heq := nomatch heq
  woken hle := absurd hle (Nat.not_le_of_lt writeBlockSize_pos)
  done hlacks := nomatch hlacks

theorem Caller.plain_of_outside {c : Caller} (h : c.outside = true) :
    c.plain = true ∧ c.copied = [] ∧ c.notifies = false ∧ c.inHand = [] := by
  cases c <;> first | exact ⟨rfl, rfl, rfl, rfl⟩ | exact Bool.noConfusion h

/-- A call begins. -/
theorem Inv.begin (h : Inv s l) (hout : s.caller.outside = true) {c : Caller}
    (hok : c.Ok s.cacheSize s.writePtr l.length) (hcopied : c.copied = [])
    (hplain : c.plain = true) (hlacks : c.lacks = false) (hwait : c ≠ .flushWait) :
    Inv { s with caller := c } l := by
  obtain ⟨hplain', hcopied', hnotifies, -⟩ := Caller.plain_of_outside hout
  refine { h with
    window := ?_, caller := hok, turns := ?_, answered := ?_, woken := ?_, done := ?_ }
  · show Window _ _ _ (l ++ c.copied)
    rw [hcopied, ← hcopied']
    exact h.window
  · exact h.turns.plain hplain' hplain (Nat.le_refl _)
  · exact fun heq => absurd heq hwait
  · intro hle
    rcases h.woken hle with hpos | hdrains | hn
    · exact .inl hpos
    · exact .inr (.inl hdrains)
    · exact absurd (hn.symm.trans hnotifies) (by decide)
  · exact fun heq => absurd (hlacks.symm.trans heq) (by decide)

/-- The last one. -/
theorem Inv.deinit (h : Inv s l) (hout : s.caller.outside = true) :
    Inv { s with threadExitFlag := true, caller := .deinitRaise } l := by
  obtain ⟨hplain, hcopied, hnotifies, -⟩ := Caller.plain_of_outside hout
  refine { h with
    window := ?_, caller := trivial, turns := h.turns.deinit hplain, answered := ?_, woken := ?_,
    done := ?_ }
  · have hwindow := h.window
    rw [hcopied] at hwindow
    exact hwindow
  · exact fun heq => nomatch heq
  · intro hle
    rcases h.woken hle with hpos | hdrains | hn
    · exact .inl hpos
    · exact .inr (.inl hdrains)
    · exact absurd (hn.symm.trans hnotifies) (by decide)
  · exact fun heq => nomatch heq

/-- **Every step keeps the invariant.** -/
theorem Inv.next (h : Inv s l) {i : Label} (hg : roomy s i) (hstep : s.next i = some s') :
    ∃ l', Inv s' l' := by
  cases i with
  | fsWrite buf =>
    obtain ⟨hout, heq⟩ := Option.ite_none_right_eq_some.mp hstep
    obtain rfl := Option.some.inj heq
    split
    · exact ⟨l, h.begin hout trivial rfl rfl rfl (fun heq => nomatch heq)⟩
    · exact ⟨l, h.begin hout hg rfl rfl rfl (fun heq => nomatch heq)⟩
  | fsFlush =>
    obtain ⟨hout, heq⟩ := Option.ite_none_right_eq_some.mp hstep
    obtain rfl := Option.some.inj heq
    exact ⟨l, h.begin hout trivial rfl rfl rfl (fun heq => nomatch heq)⟩
  | deinit =>
    obtain ⟨hout, heq⟩ := Option.ite_none_right_eq_some.mp hstep
    obtain rfl := Option.some.inj heq
    exact ⟨l, h.deinit hout⟩
  | caller => exact h.callerNext hstep
  | thread taken =>
    obtain rfl : taken = true := hg
    exact h.threadNext hstep

theorem inHand_tryWrite (s : FsCache) (buf : Bytes) :
    (s.tryWrite buf).put = s.put ∧ (s.tryWrite buf).caller.inHand = buf := by
  unfold FsCache.tryWrite
  split
  · dsimp only
    split
    · split
      · exact ⟨rfl, List.append_nil buf⟩
      · exact ⟨rfl, List.take_append_drop _ buf⟩
    · exact ⟨rfl, rfl⟩
  · dsimp only
    split
    · exact ⟨rfl, List.append_nil buf⟩
    · exact ⟨rfl, rfl⟩

theorem put_callerNext (hstep : s.callerNext = some s') :
    s'.put ++ s'.caller.inHand = s.put ++ s.caller.inHand := by
  unfold FsCache.callerNext at hstep
  cases hc : s.caller with
  | write buf =>
    rw [hc] at hstep
    obtain rfl := Option.some.inj hstep
    obtain ⟨hput, hhand⟩ := inHand_tryWrite s buf
    rw [hput, hhand]
    rfl
  | copy done src dst next wt free =>
    rw [hc] at hstep
    cases src with
    | cons b src =>
      obtain rfl := Option.some.inj hstep
      simp [Caller.inHand]
    | nil =>
      cases next with
      | cons b next =>
        obtain rfl := Option.some.inj hstep
        simp [Caller.inHand]
      | nil =>
        obtain rfl := Option.some.inj hstep
        simp [Caller.inHand]
  | idle => simp [hc] at hstep
  | flushed r => simp [hc] at hstep
  | destroyed => simp [hc] at hstep
  | waitDone buf =>
    rw [hc] at hstep
    obtain ⟨-, heq⟩ := Option.ite_none_right_eq_some.mp hstep
    obtain rfl := Option.some.inj heq
    rfl
  | flush =>
    rw [hc] at hstep
    dsimp only at hstep
    split at hstep
    · obtain rfl := Option.some.inj hstep
      rfl
    · obtain rfl := Option.some.inj hstep
      rfl
  | flushLock =>
    rw [hc] at hstep
    obtain ⟨-, heq⟩ := Option.ite_none_right_eq_some.mp hstep
    obtain rfl := Option.some.inj heq
    rfl
  | flushWait =>
    rw [hc] at hstep
    obtain ⟨-, heq⟩ := Option.ite_none_right_eq_some.mp hstep
    obtain rfl := Option.some.inj heq
    rfl
  | join =>
    rw [hc] at hstep
    obtain ⟨-, heq⟩ := Option.ite_none_right_eq_some.mp hstep
    obtain rfl := Option.some.inj heq
    rfl
  | _ =>
    rw [hc] at hstep
    obtain rfl := Option.some.inj hstep
    rfl

theorem put_threadNext {taken : Bool} (hstep : s.threadNext taken = some s') :
    s'.put = s.put ∧ s'.caller = s.caller := by
  unfold FsCache.threadNext at hstep
  cases ht : s.thread with
  | down =>
    rw [ht] at hstep
    obtain ⟨-, heq⟩ := Option.ite_none_right_eq_some.mp hstep
    obtain rfl := Option.some.inj heq
    exact ⟨rfl, rfl⟩
  | send n j rd k =>
    rw [ht] at hstep
    dsimp only at hstep
    split at hstep
    · obtain rfl := Option.some.inj hstep
      exact ⟨rfl, rfl⟩
    · obtain rfl := Option.some.inj hstep
      exact ⟨rfl, rfl⟩
  | lock =>
    rw [ht] at hstep
    obtain ⟨-, heq⟩ := Option.ite_none_right_eq_some.mp hstep
    obtain rfl := Option.some.inj heq
    exact ⟨rfl, rfl⟩
  | flushEnd =>
    rw [ht] at hstep
    dsimp only at hstep
    split at hstep
    · obtain rfl := Option.some.inj hstep
      exact ⟨rfl, rfl⟩
    · obtain rfl := Option.some.inj hstep
      exact ⟨rfl, rfl⟩
  | exited => simp [ht] at hstep
  | _ =>
    rw [ht] at hstep
    obtain rfl := Option.some.inj hstep
    exact ⟨rfl, rfl⟩

/-- What was put and what is still in hand is what was written. -/
theorem put_next {i : Label} (hstep : s.next i = some s') :
    s'.put ++ s'.caller.inHand = s.put ++ s.caller.inHand ++ i.data := by
  cases i with
  | fsWrite buf =>
    obtain ⟨hout, heq⟩ := Option.ite_none_right_eq_some.mp hstep
    obtain rfl := Option.some.inj heq
    obtain ⟨-, -, -, hnone⟩ := Caller.plain_of_outside hout
    rw [hnone, List.append_nil]
    split
    · rename_i hempty
      rw [hempty]
      rfl
    · rfl
  | fsFlush =>
    obtain ⟨hout, heq⟩ := Option.ite_none_right_eq_some.mp hstep
    obtain rfl := Option.some.inj heq
    obtain ⟨-, -, -, hnone⟩ := Caller.plain_of_outside hout
    rw [hnone, List.append_nil]
    rfl
  | deinit =>
    obtain ⟨hout, heq⟩ := Option.ite_none_right_eq_some.mp hstep
    obtain rfl := Option.some.inj heq
    obtain ⟨-, -, -, hnone⟩ := Caller.plain_of_outside hout
    rw [hnone, List.append_nil]
    rfl
  | caller =>
    rw [show Label.data .caller = [] from rfl, List.append_nil]
    exact put_callerNext hstep
  | thread taken =>
    rw [show (Label.thread taken).data = [] from rfl, List.append_nil]
    obtain ⟨hput, hcaller⟩ := put_threadNext hstep
    rw [hput, hcaller]

/-- Where the thread waits. -/
theorem thread_waits (h : s.threadNext true = none) :
    (s.thread = .down ∧ s.writeStartSem = 0) ∨ (s.thread = .lock ∧ s.flushLock ≠ none) ∨
      s.thread = .exited := by
  unfold FsCache.threadNext at h
  cases ht : s.thread with
  | down =>
    rw [ht] at h
    dsimp only at h
    split at h
    · cases h
    · exact .inl ⟨rfl, by omega⟩
  | lock =>
    rw [ht] at h
    dsimp only at h
    split at h
    · cases h
    · rename_i hheld
      exact .inr (.inl ⟨rfl, hheld⟩)
  | exited => exact .inr (.inr rfl)
  | send n j rd k =>
    rw [ht] at h
    dsimp only at h
    split at h <;> cases h
  | flushEnd =>
    rw [ht] at h
    dsimp only at h
    split at h <;> cases h
  | _ =>
    rw [ht] at h
    cases h

/-- Where the caller waits. -/
theorem caller_waits (h : s.callerNext = none) (hout : s.caller.outside = false)
    (hend : s.caller ≠ .destroyed) :
    (∃ buf, s.caller = .waitDone buf ∧ s.writeDoneSem = 0) ∨
      (s.caller = .flushLock ∧ s.flushLock ≠ none) ∨
      (s.caller = .flushWait ∧ s.flushDoneSem = 0) ∨ (s.caller = .join ∧ s.thread ≠ .exited) := by
  unfold FsCache.callerNext at h
  cases hc : s.caller with
  | idle =>
    rw [hc] at hout
    cases hout
  | flushed r =>
    rw [hc] at hout
    cases hout
  | destroyed => exact absurd hc hend
  | waitDone buf =>
    rw [hc] at h
    dsimp only at h
    split at h
    · cases h
    · exact .inl ⟨buf, rfl, by omega⟩
  | flushLock =>
    rw [hc] at h
    dsimp only at h
    split at h
    · cases h
    · rename_i hheld
      exact .inr (.inl ⟨rfl, hheld⟩)
  | flushWait =>
    rw [hc] at h
    dsimp only at h
    split at h
    · cases h
    · exact .inr (.inr (.inl ⟨rfl, by omega⟩))
  | join =>
    rw [hc] at h
    dsimp only at h
    split at h
    · cases h
    · rename_i hrunning
      exact .inr (.inr (.inr ⟨rfl, hrunning⟩))
  | flush =>
    rw [hc] at h
    dsimp only at h
    split at h <;> cases h
  | copy done src dst next wt free =>
    rw [hc] at h
    cases src with
    | cons b src => cases h
    | nil =>
      cases next with
      | cons b next => cases h
      | nil => cases h
  | _ =>
    rw [hc] at h
    cases h

/-- The lock is free, where neither is at a line that has it. -/
theorem Inv.lock_free (h : Inv s l) (hc : s.caller.holds = false) (ht : s.thread.holds = false) :
    s.flushLock = none := by
  cases hlock : s.flushLock with
  | none => rfl
  | some x =>
    cases x with
    | caller => exact absurd (hc.symm.trans (h.turns.callerLock.mp hlock)) (by decide)
    | thread => exact absurd (ht.symm.trans (h.turns.threadLock.mp hlock)) (by decide)

/-- The thread has not ended, unless it was asked to. -/
theorem Inv.not_exited (h : Inv s l) (hc : s.caller.ends = false) : s.thread ≠ .exited := by
  intro ht
  have hexit := h.turns.ending (by rw [ht]; rfl)
  exact absurd (hc.symm.trans (h.turns.exit_iff.mp hexit)) (by decide)

/-- **Somebody can go on.** -/
theorem Inv.live (h : Inv s l) : ¬ s.Stuck := by
  rintro ⟨hout, hend, hcaller, hthread⟩
  have hwaits := thread_waits (hthread true)
  rcases caller_waits hcaller hout hend with
    ⟨buf, hc, hdone⟩ | ⟨hc, hheld⟩ | ⟨hc, hdone⟩ | ⟨hc, hrunning⟩
  · -- it waits for room: then there is a block, and the thread was woken for it
    rcases hwaits with ⟨ht, hstart⟩ | ⟨ht, hheld⟩ | ht
    · have hblock : writeBlockSize ≤ l.length := by
        rcases h.done (by rw [hc]; rfl) with hle | hpos | hsignals
        · exact hle
        · omega
        · rw [ht] at hsignals
          cases hsignals
      rcases h.woken hblock with hpos | hdrains | hnotifies
      · omega
      · rw [ht] at hdrains
        cases hdrains
      · rw [hc] at hnotifies
        cases hnotifies
    · exact hheld (h.lock_free (by rw [hc]; rfl) (by rw [ht]; rfl))
    · exact h.not_exited (by rw [hc]; rfl) ht
  · -- it waits for the lock
    rcases hwaits with ⟨ht, -⟩ | ⟨ht, -⟩ | ht
    all_goals exact hheld (h.lock_free (by rw [hc]; rfl) (by rw [ht]; rfl))
  · -- it waits for the flush
    rcases hwaits with ⟨ht, hstart⟩ | ⟨ht, hheld⟩ | ht
    · have hpos := h.turns.woken (.inr hc) hdone (.inl ht)
      omega
    · exact hheld (h.lock_free (by rw [hc]; rfl) (by rw [ht]; rfl))
    · exact h.not_exited (by rw [hc]; rfl) ht
  · -- it waits for the end of the thread
    rcases hwaits with ⟨ht, hstart⟩ | ⟨ht, hheld⟩ | ht
    · have hpos := h.turns.wokenToExit hc ht
      omega
    · exact hheld (h.lock_free (by rw [hc]; rfl) (by rw [ht]; rfl))
    · exact hrunning ht

theorem Inv.unread_eq (h : Inv s l) : s.unread = l.length := by
  unfold FsCache.unread
  rcases h.unread with ⟨hle, hwt, -⟩ | ⟨hlt, hwt⟩
  · rw [if_pos hle]
    omega
  · rw [if_neg (Nat.not_le_of_lt hlt)]
    omega

/-- **No unread byte is overwritten.** -/
theorem Inv.kept (h : Inv s l) {done src next : Bytes} {b : UInt8} {dst wt free : Nat}
    (hc : s.caller = .copy done (b :: src) dst next wt free) : ¬ s.Unread dst := by
  rintro ⟨j, hj, hplace⟩
  rw [h.unread_eq] at hj
  have hok := h.caller
  rw [hc] at hok
  obtain ⟨hdst, hend, -, -, hfree, hroom⟩ := hok
  rw [List.length_cons] at hend hfree
  rw [Nat.mod_eq_of_lt (by omega), h.write, Nat.mod_add_mod, Nat.add_assoc] at hdst
  -- two places of the ring less than a round apart
  have hsame := ring_inj (by omega) (by omega) (hplace.symm.trans hdst)
  omega

theorem Inv.safe (h : Inv s l) {data : Bytes} (hdata : s.put ++ s.caller.inHand = data) :
    Safe s data := by
  have hput : s.stream <+: s.put := ⟨_, h.past⟩
  -- where nothing is unread and nothing in hand, the stream has it all
  have hall : l.length = 0 → s.caller.inHand = [] → s.stream = data := by
    intro hnone hhand
    have hpast := h.past
    rw [List.length_eq_zero_iff.mp hnone, List.drop_nil, List.append_nil] at hpast
    rw [hhand, List.append_nil] at hdata
    exact hpast.trans hdata
  refine ⟨?_, ?_, ?_, ?_, h.live⟩
  · exact hput.trans ⟨_, hdata⟩
  · intro r hc
    have hok := h.caller
    rw [hc] at hok
    exact ⟨hok.1, hall hok.2 (by rw [hc]; rfl)⟩
  · intro hc
    have hok := h.thread
    rw [h.turns.destroyed hc] at hok
    exact hall hok (by rw [hc]; rfl)
  · intro done b src dst next wt free hc
    exact h.kept hc

end

/-- **Nothing is lost and nobody waits for ever.** The caller and the writing thread take turns at
every byte that is copied or written, and the state reached is judged by all the data of the calls
so far: the stream has a beginning of it, and the whole after a flush and at the end; the next byte
is not copied over one that is still unread; and not both sides wait. The size is any number of
blocks, and what the cache holds at first is arbitrary. -/
theorem cache_safe {k : Nat} {s₀ s : FsCache} {is : List Label} (hk : 0 < k)
    (hstart : (caching (writeBlockSize * k)).start s₀)
    (hrun : Run (caching (writeBlockSize * k)) roomy s₀ is s) : Safe s (is.flatMap Label.data) := by
  have key : (∃ l, Inv s l) ∧ s.put ++ s.caller.inHand = is.flatMap Label.data := by
    induction hrun with
    | nil =>
      obtain ⟨cache, rfl⟩ := hstart
      exact ⟨⟨[], inv_init cache hk⟩, rfl⟩
    | snoc _ hg hstep ih =>
      obtain ⟨⟨l, hl⟩, hdata⟩ := ih
      refine ⟨hl.next hg hstep, ?_⟩
      rw [put_next hstep, hdata, List.flatMap_append, List.flatMap_singleton]
  obtain ⟨⟨l, hl⟩, hdata⟩ := key
  exact hl.safe hdata

instance (s : FsCache) : ∀ i, Decidable (roomy s i)
  | .fsWrite _ => inferInstanceAs (Decidable (_ < _))
  | .thread _ => inferInstanceAs (Decidable (_ = _))
  | .fsFlush => inferInstanceAs (Decidable True)
  | .deinit => inferInstanceAs (Decidable True)
  | .caller => inferInstanceAs (Decidable True)

/-- A byte is written, and flushed. -/
def oneByte : List Label :=
  .fsWrite [7] :: List.replicate 4 .caller ++ .fsFlush :: List.replicate 5 .caller ++
    List.replicate 11 (.thread true) ++ List.replicate 2 .caller

theorem cache_safe_oneByte : ∃ s : FsCache, s.caller = .flushed 0 ∧ Safe s [7] := by
  have hrun : (runFrom FsCache.next roomy (FsCache.init (fun _ => 0) (writeBlockSize * 1))
      oneByte).map FsCache.caller = some (.flushed 0) := by decide +kernel
  obtain ⟨s, hs, hcaller⟩ := Option.map_eq_some_iff.mp hrun
  exact ⟨s, hcaller, cache_safe (by decide) ⟨_, rfl⟩ (run_of_runFrom hs)⟩

/-- The calls that are promised to work: at most `mCacheSize - 1` bytes. -/
def promised : FsCache → Label → Prop
  | s, .fsWrite buf => buf.length ≤ s.cacheSize - 1
  | _, .thread taken => taken = true
  | _, _ => True

/-- A cache of one block that holds a byte; all other lines have been passed. -/
def oneCached (c : Caller) (start : Nat) (t : Thread) (lock : Option Holder) : FsCache :=
  { FsCache.init (fun _ => 0) (writeBlockSize * 1) with
    cache := fun i => if i = 0 then 0 else 0
    writePtr := 1
    put := [0]
    caller := c
    writeStartSem := start
    thread := t
    flushLock := lock }

/-- `mCacheSize - 1` bytes do not fit behind it. -/
theorem tryWrite_oneCached (buf : Bytes) (hbuf : buf.length = writeBlockSize - 1) :
    (oneCached (.write buf) 0 .down none).tryWrite buf = oneCached (.full buf) 0 .down none := by
  simp [FsCache.tryWrite, FsCache.freeSections, oneCached, FsCache.init, hbuf, writeBlockSize]

/-- There is no whole block. -/
theorem threadNext_oneCached (c : Caller) :
    (oneCached c 0 .drain none).threadNext true = some (oneCached c 0 .lock none) := by
  simp [FsCache.threadNext, FsCache.drainNext, oneCached, FsCache.init, writeBlockSize]

/-- The caller goes on, in a promised run. -/
theorem callerRuns {cacheSize : Nat} {s₀ s t : FsCache} {is : List Label}
    (hrun : Run (caching cacheSize) promised s₀ is s) (h : s.callerNext = some t) :
    Run (caching cacheSize) promised s₀ (is ++ [.caller]) t := hrun.snoc trivial h

/-- The thread does. -/
theorem threadRuns {cacheSize : Nat} {s₀ s t : FsCache} {is : List Label}
    (hrun : Run (caching cacheSize) promised s₀ is s) (h : s.threadNext true = some t) :
    Run (caching cacheSize) promised s₀ (is ++ [.thread true]) t := hrun.snoc rfl h

/-- The caller waits for room, the thread finds no block and waits too. -/
theorem run_oneCached (buf : Bytes) (hbuf : buf.length = writeBlockSize - 1) :
    ∃ is, Run (caching (writeBlockSize * 1)) promised (oneCached .idle 0 .down none) is
      (oneCached (.waitDone buf) 0 .down none) := by
  have hne : buf ≠ [] := by
    rintro rfl
    cases hbuf
  have hsize : promised (oneCached .idle 0 .down none) (.fsWrite buf) := Nat.le_of_eq hbuf
  have hbegin : (oneCached .idle 0 .down none).next (.fsWrite buf) =
      some (oneCached (.write buf) 0 .down none) := by
    simp only [FsCache.next, if_neg hne]
    rfl
  have hfull : (oneCached (.write buf) 0 .down none).callerNext =
      some (oneCached (.full buf) 0 .down none) :=
    congrArg some (tryWrite_oneCached buf hbuf)
  have hwrite : Run (caching (writeBlockSize * 1)) promised (oneCached .idle 0 .down none) _
      (oneCached (.write buf) 0 .down none) := (Run.nil _).snoc hsize hbegin
  have hraise := callerRuns hwrite hfull
  have hwait := callerRuns (t := oneCached (.waitDone buf) 1 .down none) hraise rfl
  have hdrain := threadRuns (t := oneCached (.waitDone buf) 0 .drain none) hwait rfl
  have hnone := threadRuns hdrain (threadNext_oneCached _)
  have hlock := threadRuns (t := oneCached (.waitDone buf) 0 .check (some .thread)) hnone rfl
  have hcheck := threadRuns (t := oneCached (.waitDone buf) 0 .unlock (some .thread)) hlock rfl
  have hunlock := threadRuns (t := oneCached (.waitDone buf) 0 .exitCheck none) hcheck rfl
  exact ⟨_, threadRuns hunlock rfl⟩

/-- **After one byte, `mCacheSize - 1` bytes do not fit**, and the thread does not write the one. -/
theorem cache_stuck : ¬ ∀ (k : Nat) (s₀ s : FsCache) (is : List Label), 0 < k →
    (caching (writeBlockSize * k)).start s₀ →
      Run (caching (writeBlockSize * k)) promised s₀ is s → Safe s (is.flatMap Label.data) := by
  intro hall
  obtain ⟨is, hrest⟩ := run_oneCached (List.replicate (writeBlockSize - 1) 0) List.length_replicate
  have hsize : promised (FsCache.init (fun _ => 0) (writeBlockSize * 1)) (.fsWrite [0]) := by
    show 1 ≤ writeBlockSize * 1 - 1
    decide
  have hwrite : Run (caching (writeBlockSize * 1)) promised
      (FsCache.init (fun _ => 0) (writeBlockSize * 1)) _
      { FsCache.init (fun _ => 0) (writeBlockSize * 1) with caller := .write [0] } :=
    (Run.nil _).snoc hsize rfl
  have hcopied := callerRuns (callerRuns hwrite rfl) rfl
  have hone := callerRuns (t := oneCached .idle 0 .down none) (callerRuns hcopied rfl) rfl
  have hsafe := hall 1 _ _ _ (by decide) ⟨_, rfl⟩ (hone.append hrest)
  exact hsafe.live ⟨rfl, by simp [oneCached], rfl, fun _ => rfl⟩

end Maixii.FsWriter
