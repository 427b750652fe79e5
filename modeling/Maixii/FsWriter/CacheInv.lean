import Maixii.FsWriter.CacheTurns

/-!
# `FsWriter/CacheInv.lean`: what the caller and the thread rely on

The unread bytes are a window of the ring. `Inv` says so, and what each of the two relies on at the
line it is about to execute; that the thread is awake while there is a whole block, and that the
caller waits for room only if there is one or a signal on its way. Every line of either keeps it.
-/

set_option autoImplicit false

namespace Maixii.FsWriter

open Maixii.Lib

/-! ## What is where -/

namespace Caller

/-- It has found no room. -/
def lacks : Caller → Bool
  | .full _ => true
  | .waitDone _ => true
  | _ => false

/-- It is about to wake the thread. -/
def notifies : Caller → Bool
  | .notify _ _ => true
  | _ => false

/-- It has copied these bytes, of which the thread does not know yet. -/
def copied : Caller → Bytes
  | .copy done _ _ _ _ _ => done
  | _ => []

/-- The bytes of its call that are not put yet. -/
def inHand : Caller → Bytes
  | .write buf => buf
  | .full buf => buf
  | .waitDone buf => buf
  | .copy done src _ next _ _ => done ++ src ++ next
  | _ => []

/-- **What the caller relies on at each line**, with `len` bytes unread: its bytes fit once all whole
blocks are gone; it copies them behind the others; when it wakes the thread, it counts none too few;
after a flush there are none. -/
def Ok (cacheSize wt len : Nat) : Caller → Prop
  | .write buf => wt % writeBlockSize + buf.length < cacheSize
  | .full buf => wt % writeBlockSize + buf.length < cacheSize
  | .waitDone buf => wt % writeBlockSize + buf.length < cacheSize
  | .copy done src dst next wt' free =>
      dst % cacheSize = (wt + done.length) % cacheSize ∧ dst + src.length ≤ cacheSize ∧
        (next ≠ [] → dst + src.length = cacheSize) ∧
        wt' = (wt + (done.length + src.length + next.length)) % cacheSize ∧
        done.length + src.length + next.length ≤ free ∧ len + free < cacheSize
  | .notify size free => size ≤ free ∧ len + free < cacheSize + size
  | .flushCheck => len = 0
  | .flushed r => r = 0 ∧ len = 0
  | _ => True

end Caller

/-- What holds where the thread goes on, with the read pointer at `rd`. -/
def After.Ok (rd len : Nat) : After → Prop
  | .drain => writeBlockSize ∣ rd
  | .flushSecond n => rd = 0 ∧ len = n
  | .flushEnd => len = 0
  | .exitSecond n => rd = 0 ∧ len = n
  | .exitEnd => len = 0

namespace Thread

/-- It will look for whole blocks again. -/
def drains : Thread → Bool
  | .drain => true
  | .send _ _ _ .drain => true
  | .store _ _ .drain => true
  | .signal .drain => true
  | _ => false

def signals : Thread → Bool
  | .signal _ => true
  | _ => false

/-- What the stream has taken of the bytes that are unread still. -/
def sent : Thread → Nat
  | .send _ j _ _ => j
  | .store n _ _ => n
  | _ => 0

/-- **What the thread relies on at each line**, with `len` bytes unread: the read pointer is at a
block, unless a flush or the end has just written what was left. -/
def Ok (cacheSize rd len : Nat) : Thread → Prop
  | .send n j rd' k => j ≤ n ∧ n ≤ len ∧ rd + n ≤ cacheSize ∧ rd' = (rd + n) % cacheSize ∧
      k.Ok rd' (len - n) ∧ writeBlockSize ∣ rd
  | .store n rd' k => n ≤ len ∧ rd' = (rd + n) % cacheSize ∧ k.Ok rd' (len - n) ∧
      writeBlockSize ∣ rd
  | .signal k => k.Ok rd len
  | .flushSecond n => rd = 0 ∧ len = n
  | .flushEnd => len = 0
  | .flushUp => len = 0 ∧ writeBlockSize ∣ rd
  | .exitSecond n => rd = 0 ∧ len = n
  | .exited => len = 0
  | _ => writeBlockSize ∣ rd

end Thread

/-- **A cache with the unread bytes `l`.** -/
structure Inv (s : FsCache) (l : Bytes) : Prop where
  size : 0 < s.cacheSize
  blocks : writeBlockSize ∣ s.cacheSize
  window : Window s.cacheSize (fun i => some (s.cache i)) s.readPtr (l ++ s.caller.copied)
  room : l.length < s.cacheSize
  write : s.writePtr = (s.readPtr + l.length) % s.cacheSize
  past : s.stream ++ l.drop s.thread.sent = s.put
  caller : s.caller.Ok s.cacheSize s.writePtr l.length
  thread : s.thread.Ok s.cacheSize s.readPtr l.length
  turns : Turns s.caller s.thread s.flushLock s.flushFlag s.flushDoneSem s.writeStartSem
    s.threadExitFlag
  answered : s.caller = .flushWait → s.flushDoneSem = 1 → l = []
  woken : writeBlockSize ≤ l.length →
    0 < s.writeStartSem ∨ s.thread.drains = true ∨ s.caller.notifies = true
  done : s.caller.lacks = true →
    writeBlockSize ≤ l.length ∨ 0 < s.writeDoneSem ∨ s.thread.signals = true

/-! ## Arithmetic -/

section

variable {cacheSize rd wt len : Nat}

theorem writeBlockSize_pos : 0 < writeBlockSize := by decide

/-- How many bytes are unread. -/
theorem unread_eq (hrd : rd < cacheSize) (hlen : len < cacheSize)
    (hwt : wt = (rd + len) % cacheSize) :
    rd ≤ wt ∧ wt = rd + len ∧ wt < cacheSize ∨ wt < rd ∧ wt + cacheSize = rd + len := by
  by_cases h : rd + len < cacheSize
  · rw [Nat.mod_eq_of_lt h] at hwt
    omega
  · rw [Nat.mod_eq_sub_mod (Nat.le_of_not_lt h), Nat.mod_eq_of_lt (by omega)] at hwt
    omega

/-- **Where bytes that would fit behind whole blocks do not fit, there is a block.** -/
theorem block_of_full {n : Nat} (hblocks : writeBlockSize ∣ cacheSize) (hrd : writeBlockSize ∣ rd)
    (hwt : wt = (rd + len) % cacheSize)
    (hfit : wt % writeBlockSize + n < cacheSize) (hfull : cacheSize ≤ len + n) :
    writeBlockSize ≤ len := by
  have hmod : wt % writeBlockSize = len % writeBlockSize := by
    obtain ⟨q, rfl⟩ := hrd
    rw [hwt, Nat.mod_mod_of_dvd _ hblocks, Nat.mul_add_mod]
  by_contra hlt'
  rw [hmod, Nat.mod_eq_of_lt (Nat.lt_of_not_le hlt')] at hfit
  omega

end

/-! ## The caller -/

section

variable {s s' : FsCache} {l : Bytes}

theorem Inv.readPtr_lt (h : Inv s l) : s.readPtr < s.cacheSize := h.window.front_lt

theorem Inv.unread (h : Inv s l) : s.readPtr ≤ s.writePtr ∧ s.writePtr = s.readPtr + l.length ∧
      s.writePtr < s.cacheSize ∨
    s.writePtr < s.readPtr ∧ s.writePtr + s.cacheSize = s.readPtr + l.length :=
  unread_eq h.readPtr_lt h.room h.write

/-- **Whether there is room**: the caller begins to copy, or waits. -/
theorem Inv.tryWrite (h : Inv s l) (buf : Bytes) :
    (s.tryWrite buf = { s with caller := .full buf } ∧ s.cacheSize ≤ l.length + buf.length) ∨
      ∃ src dst next wt free, s.tryWrite buf = { s with caller := .copy [] src dst next wt free } ∧
        src ++ next = buf ∧
        (Caller.copy [] src dst next wt free).Ok s.cacheSize s.writePtr l.length := by
  have hroom := h.room
  have hrd := h.readPtr_lt
  unfold FsCache.tryWrite
  rcases h.unread with ⟨hle, hwt, hlt⟩ | ⟨hlt, hwt⟩
  · rw [if_pos hle]
    -- both sections together are all there is but one byte
    obtain ⟨a, b, hab, htotal, hb, hzero⟩ : ∃ a b,
        FsCache.freeSections s.cacheSize s.readPtr s.writePtr = (a, b) ∧
          a + b + 1 + l.length = s.cacheSize ∧ s.writePtr + b ≤ s.cacheSize ∧
          (a = 0 ∨ s.writePtr + b = s.cacheSize) := by
      unfold FsCache.freeSections
      split
      · exact ⟨_, _, rfl, by omega, by omega, by omega⟩
      · split
        · exact ⟨_, _, rfl, by omega, by omega, by omega⟩
        · omega
    rw [hab]
    dsimp only
    split
    · rename_i hfits
      right
      split
      · -- one `memcpy`
        refine ⟨_, _, _, _, _, rfl, List.append_nil buf, ?_⟩
        refine ⟨?_, ?_, ?_, ?_, ?_, ?_⟩
        · rw [List.length_nil, Nat.add_zero]
        · omega
        · exact fun hne => absurd rfl hne
        · simp only [List.length_nil, Nat.zero_add, Nat.add_zero]
          split
          · rename_i hend
            rw [hend, Nat.mod_self]
          · rw [Nat.mod_eq_of_lt (by omega)]
        · simp only [List.length_nil]
          omega
        · omega
      · -- two
        refine ⟨_, _, _, _, _, rfl, List.take_append_drop b buf, ?_⟩
        have htake : (buf.take b).length = b := by
          rw [List.length_take]
          omega
        have hdrop : (buf.drop b).length = buf.length - b := List.length_drop
        refine ⟨?_, ?_, ?_, ?_, ?_, ?_⟩
        · rw [List.length_nil, Nat.add_zero]
        · omega
        · intro _
          omega
        · rw [htake, hdrop, List.length_nil, Nat.mod_eq_sub_mod (by omega),
            Nat.mod_eq_of_lt (by omega)]
          omega
        · rw [htake, hdrop, List.length_nil]
          omega
        · omega
    · exact .inl ⟨rfl, by omega⟩
  · rw [if_neg (Nat.not_le_of_lt hlt)]
    dsimp only
    split
    · refine .inr ⟨_, _, _, _, _, rfl, List.append_nil buf, ?_⟩
      refine ⟨?_, ?_, ?_, ?_, ?_, ?_⟩
      · rw [List.length_nil, Nat.add_zero]
      · omega
      · exact fun hne => absurd rfl hne
      · simp only [List.length_nil, Nat.zero_add, Nat.add_zero]
        rw [Nat.mod_eq_of_lt (by omega)]
      · simp only [List.length_nil]
        omega
      · omega
    · exact .inl ⟨rfl, by omega⟩

/-- Outside of a flush and the end, the read pointer is at a block. -/
theorem Thread.aligned {cacheSize rd len : Nat} {t : Thread} (h : t.Ok cacheSize rd len)
    (hf : t.flushes = false) (he : t.ends = false) : writeBlockSize ∣ rd := by
  cases t with
  | send n j rd' k => exact h.2.2.2.2.2
  | store n rd' k => exact h.2.2.2
  | signal k =>
    cases k with
    | drain => exact h
    | flushSecond _ => cases hf
    | flushEnd => cases hf
    | exitSecond _ => cases he
    | exitEnd => cases he
  | flushSecond n => cases hf
  | flushEnd => cases hf
  | flushUp => cases hf
  | exitSecond n => cases he
  | exited => cases he
  | _ => exact h

/-- More may be unread than the thread knows of. -/
theorem Thread.Ok.grow {cacheSize rd len len' : Nat} {t : Thread} (h : t.Ok cacheSize rd len)
    (hle : len ≤ len') (hf : t.flushes = false) (he : t.ends = false) :
    t.Ok cacheSize rd len' := by
  have after : ∀ {k : After} {rd n n' : Nat}, k.flushes = false → k.ends = false → k.Ok rd n →
      k.Ok rd n' := by
    intro k rd n n' hf he hk
    cases k with
    | drain => exact hk
    | flushSecond _ => cases hf
    | flushEnd => cases hf
    | exitSecond _ => cases he
    | exitEnd => cases he
  cases t with
  | send n j rd' k =>
    obtain ⟨hj, hn, hend, hrd, hk, hblock⟩ := h
    exact ⟨hj, hn.trans hle, hend, hrd, after hf he hk, hblock⟩
  | store n rd' k =>
    obtain ⟨hn, hrd, hk, hblock⟩ := h
    exact ⟨hn.trans hle, hrd, after hf he hk, hblock⟩
  | signal k => exact after hf he h
  | flushSecond n => cases hf
  | flushEnd => cases hf
  | flushUp => cases hf
  | exitSecond n => cases he
  | exited => cases he
  | _ => exact h

/-- Fewer may be. -/
theorem Caller.Ok.fewer {cacheSize wt len len' : Nat} {c : Caller} (h : c.Ok cacheSize wt len)
    (hle : len' ≤ len) : c.Ok cacheSize wt len' := by
  cases c with
  | copy done src dst next wt' free =>
    obtain ⟨hdst, hend, hnext, hwt, hfree, hroom⟩ := h
    exact ⟨hdst, hend, hnext, hwt, hfree, by omega⟩
  | notify size free => exact ⟨h.1, by have := h.2; omega⟩
  | flushCheck =>
    have hnone : len = 0 := h
    show len' = 0
    omega
  | flushed r => exact ⟨h.1, by have := h.2; omega⟩
  | _ => exact h

theorem Thread.sent_le {cacheSize rd len : Nat} {t : Thread} (h : t.Ok cacheSize rd len) :
    t.sent ≤ len := by
  cases t with
  | send n j rd' k => exact h.1.trans h.2.1
  | store n rd' k => exact h.1
  | _ => exact Nat.zero_le _

theorem Inv.notFlushing (h : Inv s l) (hc : s.caller.plain = true) :
    s.thread.flushes = false ∧ s.thread.ends = false := by
  constructor
  · cases hf : s.thread.flushes with
    | false => rfl
    | true =>
      rw [(h.turns.flushing hf).1] at hc
      cases hc
  · cases he : s.thread.ends with
    | false => rfl
    | true =>
      have hends := h.turns.exit_iff.mp (h.turns.ending he)
      simp [Caller.plain, hends] at hc

theorem Inv.aligned (h : Inv s l) (hc : s.caller.plain = true) : writeBlockSize ∣ s.readPtr :=
  Thread.aligned h.thread (h.notFlushing hc).1 (h.notFlushing hc).2

theorem Inv.unread_nil (h : Inv s l) (heq : s.readPtr = s.writePtr) : l.length = 0 := by
  rcases h.unread with ⟨-, hwt, -⟩ | ⟨hlt, -⟩
  · omega
  · omega

/-- A byte is copied. -/
theorem Inv.copyByte {done src next : Bytes} {b : UInt8} {dst wt free : Nat} (h : Inv s l)
    (hc : s.caller = .copy done (b :: src) dst next wt free) :
    Inv { s with
      cache := fun i => if i = dst then b else s.cache i
      caller := .copy (done ++ [b]) src (dst + 1) next wt free } l := by
  have hwindow : Window s.cacheSize (fun i => some (s.cache i)) s.readPtr (l ++ done) := by
    have hwindow := h.window
    rw [hc] at hwindow
    exact hwindow
  have hok := h.caller
  rw [hc] at hok
  obtain ⟨hdst, hend, hnext, hwt, hfree, hroom⟩ := hok
  rw [List.length_cons] at hend hwt hfree
  have hlength : (l ++ done).length = l.length + done.length := List.length_append
  -- where the byte goes is behind the window
  have hplace : dst = (s.readPtr + (l ++ done).length) % s.cacheSize := by
    rw [Nat.mod_eq_of_lt (by omega), h.write, Nat.mod_add_mod] at hdst
    rw [hdst, hlength, Nat.add_assoc]
  have hpushed := hwindow.push b (by omega)
  rw [← hplace, List.append_assoc] at hpushed
  refine { h with window := ?_, caller := ?_, turns := ?_, answered := ?_, woken := ?_, done := ?_ }
  · refine hpushed.congr fun j _ => ?_
    dsimp only
    split <;> rfl
  · have hone : (done ++ [b]).length = done.length + 1 := List.length_append
    refine ⟨?_, ?_, ?_, ?_, ?_, hroom⟩
    · show (dst + 1) % s.cacheSize = (s.writePtr + (done ++ [b]).length) % s.cacheSize
      rw [hone, ← Nat.add_assoc, Nat.add_mod, hdst, ← Nat.add_mod]
    · show dst + 1 + src.length ≤ s.cacheSize
      omega
    · intro hne
      have hfirst := hnext hne
      rw [List.length_cons] at hfirst
      show dst + 1 + src.length = s.cacheSize
      omega
    · have hall : done.length + (src.length + 1) + next.length =
          done.length + 1 + src.length + next.length := by omega
      rw [hwt, hone, hall]
    · rw [hone]
      omega
  · have hturns := h.turns
    rw [hc] at hturns
    exact hturns.plain rfl rfl (Nat.le_refl _)
  · exact fun heq => nomatch heq
  · have hwoken := h.woken
    rw [hc] at hwoken
    exact hwoken
  · exact fun hlacks => nomatch hlacks

/-- **The bytes are put**: the pointer is stored. -/
theorem Inv.publish {done : Bytes} {dst wt free : Nat} (h : Inv s l)
    (hc : s.caller = .copy done [] dst [] wt free) :
    Inv { s with writePtr := wt, put := s.put ++ done, caller := .notify done.length free }
      (l ++ done) := by
  have hwindow := h.window
  have hok := h.caller
  have hplain : s.caller.plain = true := by rw [hc]; rfl
  obtain ⟨hflush, hends⟩ := h.notFlushing hplain
  rw [hc] at hwindow hok
  obtain ⟨-, -, -, hwt, hfree, hroom⟩ := hok
  simp only [List.length_nil, Nat.add_zero] at hwt hfree
  have hlength : (l ++ done).length = l.length + done.length := List.length_append
  refine { h with
    window := ?_, room := ?_, write := ?_, past := ?_, caller := ?_, thread := ?_, turns := ?_,
    answered := ?_, woken := ?_, done := ?_ }
  · show Window _ _ _ (l ++ done ++ [])
    rw [List.append_nil]
    exact hwindow
  · show (l ++ done).length < s.cacheSize
    omega
  · show wt = (s.readPtr + (l ++ done).length) % s.cacheSize
    rw [hwt, h.write, Nat.mod_add_mod, hlength, Nat.add_assoc]
  · show s.stream ++ (l ++ done).drop s.thread.sent = s.put ++ done
    rw [List.drop_append_of_le_length (Thread.sent_le h.thread), ← List.append_assoc, h.past]
  · refine ⟨hfree, ?_⟩
    show (l ++ done).length + free < s.cacheSize + done.length
    omega
  · exact h.thread.grow (by rw [hlength]; exact Nat.le_add_right _ _) hflush hends
  · have hturns := h.turns
    rw [hc] at hturns
    exact hturns.plain rfl rfl (Nat.le_refl _)
  · exact fun heq => nomatch heq
  · exact fun _ => .inr (.inr rfl)
  · exact fun hlacks => nomatch hlacks

/-- **The caller goes on.** -/
theorem Inv.callerNext (h : Inv s l) (hstep : s.callerNext = some s') : ∃ l', Inv s' l' := by
  obtain ⟨cache, cacheSize, exit, wt, rd, start, flag, lock, flushed, wdone, c, t, stream, put⟩ := s
  have hpositive := upUnique_pos start
  cases c with
  | idle => cases hstep
  | flushed r => cases hstep
  | write buf =>
    rcases h.tryWrite buf with ⟨heq, hfull⟩ | ⟨src, dst, next, wt', free, heq, -, hok⟩
    · obtain rfl := heq.symm.trans (Option.some.inj hstep)
      have hblock := block_of_full h.blocks (h.aligned rfl) h.write h.caller hfull
      exact ⟨l, { h with
        caller := h.caller
        turns := h.turns.plain rfl rfl (Nat.le_refl _)
        answered := fun heq => nomatch heq
        done := fun _ => .inl hblock }⟩
    · obtain rfl := heq.symm.trans (Option.some.inj hstep)
      exact ⟨l, { h with
        caller := hok
        turns := h.turns.plain rfl rfl (Nat.le_refl _)
        answered := fun heq => nomatch heq }⟩
  | full buf =>
    obtain rfl := Option.some.inj hstep
    exact ⟨l, { h with
      caller := h.caller
      turns := h.turns.plain rfl rfl (le_upUnique start)
      answered := fun heq => nomatch heq
      woken := fun _ => .inl hpositive }⟩
  | waitDone buf =>
    obtain ⟨-, heq⟩ := Option.ite_none_right_eq_some.mp hstep
    obtain rfl := Option.some.inj heq
    exact ⟨l, { h with
      caller := h.caller
      turns := h.turns.plain rfl rfl (Nat.le_refl _)
      answered := fun heq => nomatch heq
      done := fun hlacks => nomatch hlacks }⟩
  | copy done src dst next wt' free =>
    cases src with
    | cons b src =>
      obtain rfl := Option.some.inj hstep
      exact ⟨l, h.copyByte rfl⟩
    | nil =>
      cases next with
      | cons b next =>
        obtain rfl := Option.some.inj hstep
        obtain ⟨hdst, -, hnext, hwt, hfree, hroom⟩ := h.caller
        have hend : dst = cacheSize := hnext (List.cons_ne_nil b next)
        rw [hend, Nat.mod_self] at hdst
        simp only [List.length_nil, Nat.add_zero] at hwt hfree
        dsimp only at hroom
        refine ⟨l, { h with
          caller := ⟨?_, ?_, ?_, ?_, ?_, hroom⟩
          turns := h.turns.plain rfl rfl (Nat.le_refl _)
          answered := fun heq => nomatch heq }⟩
        · rw [Nat.zero_mod]
          exact hdst
        · dsimp only
          omega
        · exact fun hne => absurd rfl hne
        · exact hwt
        · exact hfree
      | nil =>
        obtain rfl := Option.some.inj hstep
        exact ⟨l ++ done, h.publish rfl⟩
  | notify size free =>
    obtain rfl := Option.some.inj hstep
    obtain ⟨hsize, hfree⟩ := h.caller
    refine ⟨l, { h with
      caller := trivial
      turns := h.turns.plain rfl rfl ?_
      answered := fun heq => nomatch heq
      woken := fun hblock => .inl ?_ }⟩
    · dsimp only
      split
      · exact le_upUnique start
      · exact Nat.le_refl start
    · dsimp only at hfree ⊢
      rw [if_pos (by omega)]
      exact hpositive
  | flush =>
    have hstep' : (if rd = wt then _ else _) = some s' := hstep
    split at hstep'
    · rename_i heq
      obtain rfl := Option.some.inj hstep'
      exact ⟨l, { h with
        caller := ⟨rfl, h.unread_nil heq⟩
        turns := h.turns.plain rfl rfl (Nat.le_refl _)
        answered := fun heq => nomatch heq }⟩
    · obtain rfl := Option.some.inj hstep'
      exact ⟨l, { h with
        caller := trivial
        turns := h.turns.plain rfl rfl (Nat.le_refl _)
        answered := fun heq => nomatch heq }⟩
  | flushLock =>
    obtain ⟨hfree, heq⟩ := Option.ite_none_right_eq_some.mp hstep
    obtain rfl := Option.some.inj heq
    dsimp only at hfree
    subst hfree
    exact ⟨l, { h with
      caller := trivial
      turns := h.turns.flushLock
      answered := fun heq => nomatch heq }⟩
  | flushSet =>
    obtain rfl := Option.some.inj hstep
    exact ⟨l, { h with
      caller := trivial
      turns := h.turns.flushSet
      answered := fun heq => nomatch heq }⟩
  | flushRaise =>
    obtain rfl := Option.some.inj hstep
    exact ⟨l, { h with
      caller := trivial
      turns := h.turns.flushRaise
      answered := fun heq => nomatch heq
      woken := fun _ => .inl hpositive }⟩
  | flushUnlock =>
    obtain rfl := Option.some.inj hstep
    refine ⟨l, { h with
      caller := trivial
      turns := h.turns.flushUnlock
      answered := fun _ hone => ?_ }⟩
    rcases h.turns.once with hzero | ⟨-, hwait⟩
    · exact absurd (hzero.symm.trans hone) (by decide)
    · cases hwait
  | flushWait =>
    obtain ⟨hanswer, heq⟩ := Option.ite_none_right_eq_some.mp hstep
    obtain rfl := Option.some.inj heq
    have hone : flushed = 1 := by
      rcases h.turns.once with hzero | ⟨hone, -⟩
      · exact absurd hzero (Nat.ne_of_gt hanswer)
      · exact hone
    exact ⟨l, { h with
      caller := List.length_eq_zero_iff.mpr (h.answered rfl hone)
      turns := h.turns.flushWait hanswer
      answered := fun heq => nomatch heq }⟩
  | flushCheck =>
    obtain rfl := Option.some.inj hstep
    have hlen : l.length = 0 := h.caller
    have hsame : rd = wt := by
      have hwt : wt = (rd + l.length) % cacheSize := h.write
      have hlt : rd < cacheSize := h.readPtr_lt
      rw [hlen, Nat.add_zero, Nat.mod_eq_of_lt hlt] at hwt
      exact hwt.symm
    exact ⟨l, { h with
      caller := ⟨if_neg (not_not_intro hsame), hlen⟩
      turns := h.turns.plain rfl rfl (Nat.le_refl _)
      answered := fun heq => nomatch heq }⟩
  | deinitRaise =>
    obtain rfl := Option.some.inj hstep
    exact ⟨l, { h with
      caller := trivial
      turns := h.turns.deinitRaise
      answered := fun heq => nomatch heq
      woken := fun _ => .inl hpositive }⟩
  | join =>
    obtain ⟨hexited, heq⟩ := Option.ite_none_right_eq_some.mp hstep
    obtain rfl := Option.some.inj heq
    dsimp only at hexited
    subst hexited
    exact ⟨l, { h with
      caller := trivial
      turns := h.turns.join
      answered := fun heq => nomatch heq }⟩
  | destroyed => cases hstep

/-! ## The thread -/

/-- **Whole blocks are written**, or there are none. -/
theorem Inv.drainNext (h : Inv s l) (hblock : writeBlockSize ∣ s.readPtr) :
    (s.drainNext = .lock ∧ l.length < writeBlockSize) ∨ ∃ n rd,
      s.drainNext = .send n 0 rd .drain ∧
        (Thread.send n 0 rd .drain).Ok s.cacheSize s.readPtr l.length := by
  have hpos := writeBlockSize_pos
  have hrd := h.readPtr_lt
  have hmul : ∀ n, writeBlockSize ∣ s.readPtr + writeBlockSize * n := fun n =>
    Nat.dvd_add hblock (Nat.dvd_mul_right _ _)
  unfold FsCache.drainNext
  rcases h.unread with ⟨hle, hwt, hlt⟩ | ⟨hlt, hwt⟩
  · rw [if_pos hle]
    dsimp only
    split
    · have hdiv := Nat.mul_div_le (s.writePtr - s.readPtr) writeBlockSize
      refine .inr ⟨_, _, rfl, Nat.zero_le _, by omega, by omega, ?_, hmul _, hblock⟩
      rw [Nat.mod_eq_of_lt (by omega)]
    · rename_i hnone
      have hless := (Nat.div_eq_zero_iff_lt hpos).mp (Nat.eq_zero_of_not_pos hnone)
      exact .inl ⟨rfl, by omega⟩
  · rw [if_neg (Nat.not_le_of_lt hlt)]
    dsimp only
    -- the section ends at the end of the cache, which is the end of a block
    have hwhole : writeBlockSize * ((s.cacheSize - s.readPtr) / writeBlockSize) =
        s.cacheSize - s.readPtr := Nat.mul_div_cancel' (Nat.dvd_sub h.blocks hblock)
    have hend : s.readPtr + (s.cacheSize - s.readPtr) = s.cacheSize := by omega
    have hok : (Thread.send (s.cacheSize - s.readPtr) 0 0 .drain).Ok s.cacheSize s.readPtr
        l.length := by
      refine ⟨Nat.zero_le _, by omega, by omega, ?_, Nat.dvd_zero _, hblock⟩
      rw [hend, Nat.mod_self]
    rw [hwhole, hend, if_pos rfl]
    split
    · exact .inr ⟨_, _, rfl, hok⟩
    · exact .inr ⟨_, _, rfl, hok⟩

/-- **Everything is written** in sections (3) and (4). -/
theorem Inv.rest (h : Inv s l) (hblock : writeBlockSize ∣ s.readPtr) (last : After)
    (second : Nat → After) (hlast : ∀ rd, last.Ok rd 0)
    (hsecond : ∀ n, (second n).Ok 0 n) :
    (s.rest last second = last.thread ∧ l.length = 0) ∨ ∃ n rd k,
      s.rest last second = .send n 0 rd k ∧ (k = last ∨ ∃ m, k = second m) ∧
        (Thread.send n 0 rd k).Ok s.cacheSize s.readPtr l.length := by
  have hrd := h.readPtr_lt
  unfold FsCache.rest
  rcases h.unread with ⟨hle, hwt, hlt⟩ | ⟨hlt, hwt⟩
  · rw [if_pos hle]
    dsimp only
    have hall : s.writePtr - s.readPtr = l.length := by omega
    rw [hall]
    split
    · refine .inr ⟨_, _, _, rfl, .inl rfl, Nat.zero_le _, Nat.le_refl _, by omega, ?_, ?_, hblock⟩
      · rw [Nat.mod_eq_of_lt (by omega)]
      · rw [Nat.sub_self]
        exact hlast _
    · exact .inl ⟨rfl, by omega⟩
  · rw [if_neg (Nat.not_le_of_lt hlt)]
    dsimp only
    rw [if_pos (by omega)]
    have hend : s.readPtr + (s.cacheSize - s.readPtr) = s.cacheSize := by omega
    have hother : l.length - (s.cacheSize - s.readPtr) = s.writePtr := by omega
    refine .inr ⟨_, _, _, rfl, .inr ⟨_, rfl⟩, Nat.zero_le _, by omega, by omega, ?_, ?_, hblock⟩
    · rw [hend, Nat.mod_self]
    · rw [hother]
      exact hsecond _

/-- The second section. -/
theorem Inv.restSecond (h : Inv s l) {n : Nat} (hrd : s.readPtr = 0) (hn : l.length = n)
    (last : After) (hlast : ∀ rd, last.Ok rd 0) :
    (s.restSecond n last = last.thread ∧ l.length = 0) ∨ ∃ rd,
      s.restSecond n last = .send n 0 rd last ∧
        (Thread.send n 0 rd last).Ok s.cacheSize s.readPtr l.length := by
  have hroom := h.room
  unfold FsCache.restSecond
  split
  · refine .inr ⟨_, rfl, Nat.zero_le _, Nat.le_of_eq hn.symm, by omega, ?_, ?_, ?_⟩
    · rw [Nat.mod_eq_of_lt (by omega)]
    · rw [hn, Nat.sub_self]
      exact hlast _
    · rw [hrd]
      exact Nat.dvd_zero _
  · exact .inl ⟨rfl, by omega⟩

/-- The thread goes on, and nothing else changes. -/
theorem Inv.resume (h : Inv s l) {t : Thread} (hok : t.Ok s.cacheSize s.readPtr l.length)
    (hturns : Turns s.caller t s.flushLock s.flushFlag s.flushDoneSem s.writeStartSem
      s.threadExitFlag)
    (hsent : t.sent = s.thread.sent) (hdrains : t.drains = s.thread.drains)
    (hsignals : t.signals = s.thread.signals) : Inv { s with thread := t } l := by
  refine { h with past := ?_, thread := hok, turns := hturns, woken := ?_, done := ?_ }
  · show s.stream ++ l.drop t.sent = s.put
    rw [hsent]
    exact h.past
  · show _ → _ ∨ t.drains = true ∨ _
    rw [hdrains]
    exact h.woken
  · show _ → _ ∨ _ ∨ t.signals = true
    rw [hsignals]
    exact h.done

/-- The stream takes a byte. -/
theorem Inv.sendByte {n j rd : Nat} {k : After} (h : Inv s l) (ht : s.thread = .send n j rd k)
    (hj : j < n) :
    Inv { s with
      stream := s.stream ++ [s.cache (s.readPtr + j)]
      thread := .send n (j + 1) rd k } l := by
  have hok := h.thread
  have hpast := h.past
  have hturns := h.turns
  have hwoken := h.woken
  rw [ht] at hok hpast hturns hwoken
  obtain ⟨-, hn, hend, hrest⟩ := hok
  have hlt : j < l.length := Nat.lt_of_lt_of_le hj hn
  -- the byte of the cache is the next one that is unread
  have hbyte : s.cache (s.readPtr + j) = l[j] := by
    have hget : (l ++ s.caller.copied)[j]? = some l[j] := by
      rw [List.getElem?_append_left hlt, List.getElem?_eq_getElem hlt]
    have hheld := h.window.holds j l[j] hget
    rw [Nat.mod_eq_of_lt (by omega)] at hheld
    exact Option.some.inj hheld
  refine { h with past := ?_, thread := ?_, turns := ?_, woken := ?_, done := ?_ }
  · show s.stream ++ [s.cache (s.readPtr + j)] ++ l.drop (j + 1) = s.put
    rw [hbyte, List.append_assoc, List.singleton_append, ← List.drop_eq_getElem_cons hlt]
    exact hpast
  · exact ⟨hj, hn, hend, hrest⟩
  · exact hturns.same rfl rfl rfl rfl rfl (fun heq => nomatch heq)
  · intro hle
    cases k <;> exact hwoken hle
  · intro hlacks
    rcases h.done hlacks with hle | hpos | hsig
    · exact .inl hle
    · exact .inr (.inl hpos)
    · rw [ht] at hsig
      cases hsig

/-- **The read pointer is stored**: what has been written is free. -/
theorem Inv.storePtr {n rd : Nat} {k : After} (h : Inv s l) (ht : s.thread = .store n rd k) :
    Inv { s with readPtr := rd, thread := .signal k } (l.drop n) := by
  have hok := h.thread
  have hpast := h.past
  have hturns := h.turns
  have hwoken := h.woken
  rw [ht] at hok hpast hturns hwoken
  obtain ⟨hn, hrd, hk, -⟩ := hok
  have hlength : (l.drop n).length = l.length - n := List.length_drop
  have hless : (l.drop n).length ≤ l.length := by omega
  refine { h with
    window := ?_, room := ?_, write := ?_, past := ?_, caller := ?_, thread := ?_, turns := ?_,
    answered := ?_, woken := ?_, done := ?_ }
  · have hwindow := h.window.drop n
    rw [← hrd, List.drop_append_of_le_length hn] at hwindow
    exact hwindow
  · exact Nat.lt_of_le_of_lt hless h.room
  · show s.writePtr = (rd + (l.drop n).length) % s.cacheSize
    rw [h.write, hrd, Nat.mod_add_mod, hlength]
    congr 1
    omega
  · exact hpast
  · exact h.caller.fewer hless
  · show k.Ok rd (l.drop n).length
    rw [hlength]
    exact hk
  · exact hturns.same rfl rfl rfl rfl rfl (fun heq => nomatch heq)
  · intro hwait hone
    rw [h.answered hwait hone, List.drop_nil]
  · intro hle
    cases k <;> exact hwoken (hle.trans hless)
  · exact fun _ => .inr (.inr rfl)

/-- **The thread goes on**, and the stream takes what it is given. -/
theorem Inv.threadNext (h : Inv s l) (hstep : s.threadNext true = some s') : ∃ l', Inv s' l' := by
  obtain ⟨cache, cacheSize, exit, wt, rd, start, flag, lock, flushed, wdone, c, t, stream, put⟩ := s
  cases t with
  | down =>
    obtain ⟨hpos, heq⟩ := Option.ite_none_right_eq_some.mp hstep
    obtain rfl := Option.some.inj heq
    exact ⟨l, { h with
      thread := h.thread
      turns := h.turns.down
      woken := fun _ => .inr (.inl rfl) }⟩
  | drain =>
    obtain rfl := Option.some.inj hstep
    rcases h.drainNext h.thread with ⟨heq, hless⟩ | ⟨n, rd', heq, hok⟩
    · rw [heq]
      exact ⟨l, { h with
        thread := h.thread
        turns := h.turns.same rfl rfl rfl rfl rfl (fun heq => nomatch heq)
        woken := fun hle => absurd hle (Nat.not_le_of_lt hless) }⟩
    · rw [heq]
      exact ⟨l, { h with
        thread := hok
        turns := h.turns.same rfl rfl rfl rfl rfl (fun heq => nomatch heq)
        woken := fun _ => .inr (.inl rfl) }⟩
  | send n j rd' k =>
    have hstep' : (if j < n ∧ true = true then _ else _) = some s' := hstep
    by_cases hj : j < n
    · rw [if_pos ⟨hj, rfl⟩] at hstep'
      obtain rfl := Option.some.inj hstep'
      exact ⟨l, h.sendByte rfl hj⟩
    · rw [if_neg (fun hj' => hj hj'.1)] at hstep'
      obtain rfl := Option.some.inj hstep'
      obtain ⟨hle, hn, -, hrd, hk, hblock⟩ := h.thread
      obtain rfl : j = n := Nat.le_antisymm hle (Nat.le_of_not_lt hj)
      refine ⟨l, { h with
        past := h.past
        thread := ⟨hn, hrd, hk, hblock⟩
        turns := h.turns.same rfl rfl rfl rfl rfl (fun heq => nomatch heq)
        woken := fun hle => ?_ }⟩
      have hwoken := h.woken hle
      cases k <;> exact hwoken
  | store n rd' k =>
    obtain rfl := Option.some.inj hstep
    exact ⟨_, h.storePtr rfl⟩
  | signal k =>
    obtain rfl := Option.some.inj hstep
    refine ⟨l, { h with
      past := ?_
      thread := ?_
      turns := ?_
      woken := fun hle => ?_
      done := fun _ => .inr (.inl (Nat.succ_pos _)) }⟩
    · have hpast := h.past
      cases k <;> exact hpast
    · have hk := h.thread
      cases k <;> exact hk
    · have hturns := h.turns
      cases k <;> exact hturns.same rfl rfl rfl rfl rfl (fun heq => nomatch heq)
    · have hwoken := h.woken hle
      cases k <;> exact hwoken
  | lock =>
    obtain ⟨hfree, heq⟩ := Option.ite_none_right_eq_some.mp hstep
    obtain rfl := Option.some.inj heq
    dsimp only at hfree
    subst hfree
    exact ⟨l, { h with thread := h.thread, turns := h.turns.threadLocks }⟩
  | check =>
    obtain rfl := Option.some.inj hstep
    have hturns := h.turns.check
    cases flag with
    | false => exact ⟨l, { h with thread := h.thread, turns := hturns }⟩
    | true => exact ⟨l, { h with thread := h.thread, turns := hturns }⟩
  | flush =>
    obtain rfl := Option.some.inj hstep
    rcases h.rest h.thread .flushEnd .flushSecond (fun _ => rfl) (fun _ => ⟨rfl, rfl⟩) with
      ⟨heq, hnone⟩ | ⟨n, rd', k, heq, rfl | ⟨m, rfl⟩, hok⟩
    all_goals rw [heq]
    · exact ⟨l, h.resume hnone (h.turns.same rfl rfl rfl rfl rfl (fun heq => nomatch heq))
        rfl rfl rfl⟩
    · exact ⟨l, h.resume hok (h.turns.same rfl rfl rfl rfl rfl (fun heq => nomatch heq))
        rfl rfl rfl⟩
    · exact ⟨l, h.resume hok (h.turns.same rfl rfl rfl rfl rfl (fun heq => nomatch heq))
        rfl rfl rfl⟩
  | flushSecond n =>
    obtain rfl := Option.some.inj hstep
    obtain ⟨hrd, hn⟩ := h.thread
    rcases h.restSecond hrd hn .flushEnd (fun _ => rfl) with ⟨heq, hnone⟩ | ⟨rd', heq, hok⟩
    all_goals rw [heq]
    · exact ⟨l, h.resume hnone (h.turns.same rfl rfl rfl rfl rfl (fun heq => nomatch heq))
        rfl rfl rfl⟩
    · exact ⟨l, h.resume hok (h.turns.same rfl rfl rfl rfl rfl (fun heq => nomatch heq))
        rfl rfl rfl⟩
  | flushEnd =>
    -- nothing is left, so both pointers go to the start
    have hnone : l.length = 0 := h.thread
    obtain rfl := List.length_eq_zero_iff.mp hnone
    have hwt : wt = (rd + 0) % cacheSize := h.write
    have hlt : rd < cacheSize := h.readPtr_lt
    rw [Nat.add_zero, Nat.mod_eq_of_lt hlt] at hwt
    have hstep' : (if rd = wt then _ else _) = some s' := hstep
    rw [if_pos hwt.symm] at hstep'
    obtain rfl := Option.some.inj hstep'
    obtain ⟨hwait, -⟩ := h.turns.flushing rfl
    dsimp only at hwait
    subst hwait
    exact ⟨[], { h with
      window := window_nil h.size
      write := (Nat.zero_mod cacheSize).symm
      past := h.past
      caller := trivial
      thread := ⟨rfl, Nat.dvd_zero _⟩
      turns := h.turns.same rfl rfl rfl rfl rfl (fun heq => nomatch heq) }⟩
  | flushUp =>
    obtain rfl := Option.some.inj hstep
    obtain ⟨hnone, hblock⟩ := h.thread
    exact ⟨l, { h with
      thread := hblock
      turns := h.turns.flushUp
      answered := fun _ _ => List.length_eq_zero_iff.mp hnone }⟩
  | flushClear =>
    obtain rfl := Option.some.inj hstep
    exact ⟨l, { h with thread := h.thread, turns := h.turns.flushClear }⟩
  | unlock =>
    obtain rfl := Option.some.inj hstep
    exact ⟨l, { h with thread := h.thread, turns := h.turns.unlock }⟩
  | exitCheck =>
    obtain rfl := Option.some.inj hstep
    have hturns := h.turns.exitCheck
    cases exit with
    | false => exact ⟨l, { h with thread := h.thread, turns := hturns }⟩
    | true => exact ⟨l, { h with thread := h.thread, turns := hturns }⟩
  | exit =>
    obtain rfl := Option.some.inj hstep
    rcases h.rest h.thread .exitEnd .exitSecond (fun _ => rfl) (fun _ => ⟨rfl, rfl⟩) with
      ⟨heq, hnone⟩ | ⟨n, rd', k, heq, rfl | ⟨m, rfl⟩, hok⟩
    all_goals rw [heq]
    · exact ⟨l, h.resume hnone (h.turns.same rfl rfl rfl rfl rfl (fun heq => nomatch heq))
        rfl rfl rfl⟩
    · exact ⟨l, h.resume hok (h.turns.same rfl rfl rfl rfl rfl (fun heq => nomatch heq))
        rfl rfl rfl⟩
    · exact ⟨l, h.resume hok (h.turns.same rfl rfl rfl rfl rfl (fun heq => nomatch heq))
        rfl rfl rfl⟩
  | exitSecond n =>
    obtain rfl := Option.some.inj hstep
    obtain ⟨hrd, hn⟩ := h.thread
    rcases h.restSecond hrd hn .exitEnd (fun _ => rfl) with ⟨heq, hnone⟩ | ⟨rd', heq, hok⟩
    all_goals rw [heq]
    · exact ⟨l, h.resume hnone (h.turns.same rfl rfl rfl rfl rfl (fun heq => nomatch heq))
        rfl rfl rfl⟩
    · exact ⟨l, h.resume hok (h.turns.same rfl rfl rfl rfl rfl (fun heq => nomatch heq))
        rfl rfl rfl⟩
  | exited => cases hstep

end

end Maixii.FsWriter
