import Maixii.Lib.Bytes
import Maixii.Lib.Ring
import Maixii.Lib.Run

/-!
# `FsWriter/FsCache.lean`: the cache with a thread behind it

`FsCache.c`. The caller puts bytes into a ring, and `FsCacheWriteThread` writes them to the stream,
whole blocks at a time; a flush and the end write what is left. Both go on by single accesses to
what they share, in any order: every byte of a `memcpy` or a `fileWriter` is a step. A pointer that
only one of the two writes is read by it together with the other one.

Pointers are counted in bytes from `mpCache`. `cdx_sem_t` is a number; `cdx_sem_up_unique` raises it
from 0 only. Section (1) of the thread's loop only logs, and is left out.
-/

set_option autoImplicit false

namespace Maixii.FsWriter

open Maixii.Lib

/-- `WRITE_BLOCK_SIZE`. -/
def writeBlockSize : Nat := 128 * 1024

/-! ## Where the two are -/

/-- The caller is outside of the functions, or about to execute this line.

`copy` is a `memcpy` of the bytes `src` to `dst`: `done` have been copied before, `next` is what the
second `memcpy` will copy to the start of the cache, `wt` is the pointer after it, and `free` was
`nFreeSize`. -/
inductive Caller
  | idle
  | flushed (r : Int)
  | write (buf : Bytes)
  | full (buf : Bytes)
  | waitDone (buf : Bytes)
  | copy (done src : Bytes) (dst : Nat) (next : Bytes) (wt free : Nat)
  | notify (size free : Nat)
  | flush
  | flushLock
  | flushSet
  | flushRaise
  | flushUnlock
  | flushWait
  | flushCheck
  | deinitRaise
  | join
  | destroyed
  deriving DecidableEq

/-- Where the thread goes on after a `fileWriter`. `flushSecond` and `exitSecond` write the other
section, of `n` bytes. -/
inductive After
  | drain
  | flushSecond (n : Nat)
  | flushEnd
  | exitSecond (n : Nat)
  | exitEnd
  deriving DecidableEq

/-- The thread is about to execute this line.

`send` is `fileWriter(mpStream, pRdPtr, n)`, of which the stream has taken `j` bytes; `rd` is the
pointer after it. `store` stores that pointer, and `signal` raises `mWriteDoneSem`. -/
inductive Thread
  | down
  | drain
  | send (n j rd : Nat) (k : After)
  | store (n rd : Nat) (k : After)
  | signal (k : After)
  | lock
  | check
  | flush
  | flushSecond (n : Nat)
  | flushEnd
  | flushUp
  | flushClear
  | unlock
  | exitCheck
  | exit
  | exitSecond (n : Nat)
  | exited
  deriving DecidableEq

def After.thread : After → Thread
  | .drain => .drain
  | .flushSecond n => .flushSecond n
  | .flushEnd => .flushEnd
  | .exitSecond n => .exitSecond n
  | .exitEnd => .exited

/-- Who holds `mFlushLock`. -/
inductive Holder
  | caller
  | thread
  deriving DecidableEq

/-- `FsCacheThreadContext`, where the two are, and the past: what the stream has taken, and what has
been put into the cache. -/
structure FsCache where
  cache : Nat → UInt8
  cacheSize : Nat
  threadExitFlag : Bool
  writePtr : Nat
  readPtr : Nat
  writeStartSem : Nat
  flushFlag : Bool
  flushLock : Option Holder
  flushDoneSem : Nat
  writeDoneSem : Nat
  caller : Caller
  thread : Thread
  stream : Bytes
  put : Bytes

/-- `initFsCacheThreadContext`, with whatever was in the cache. -/
def FsCache.init (cache : Nat → UInt8) (cacheSize : Nat) : FsCache where
  cache := cache
  cacheSize := cacheSize
  threadExitFlag := false
  writePtr := 0
  readPtr := 0
  writeStartSem := 0
  flushFlag := false
  flushLock := none
  flushDoneSem := 0
  writeDoneSem := 0
  caller := .idle
  thread := .down
  stream := []
  put := []

/-- `cdx_sem_up_unique`. -/
def upUnique (sem : Nat) : Nat := if sem = 0 then 1 else sem

namespace FsCache

/-! ## The caller -/

/-- `nFreeSizeSection1` and `nFreeSizeSection2`, if the write pointer is not before the other. -/
def freeSections (cacheSize rd wt : Nat) : Nat × Nat :=
  if 0 < rd then (rd - 1, cacheSize - wt)
  else if 0 < cacheSize - wt then (rd, cacheSize - wt - 1)
  else (rd, cacheSize - wt)

/-- One turn of the loop in `FsCacheThreadWrite`. -/
def tryWrite (s : FsCache) (buf : Bytes) : FsCache :=
  if s.readPtr ≤ s.writePtr then
    let (nFreeSizeSection1, nFreeSizeSection2) := freeSections s.cacheSize s.readPtr s.writePtr
    let nFreeSize := nFreeSizeSection1 + nFreeSizeSection2
    if buf.length ≤ nFreeSize then
      if buf.length ≤ nFreeSizeSection2 then
        let wt := s.writePtr + buf.length
        let wt := if wt = s.cacheSize then 0 else wt
        { s with caller := .copy [] buf s.writePtr [] wt nFreeSize }
      else
        let wt := buf.length - nFreeSizeSection2
        let first := buf.take nFreeSizeSection2
        let second := buf.drop nFreeSizeSection2
        { s with caller := .copy [] first s.writePtr second wt nFreeSize }
    else { s with caller := .full buf }
  else
    let nFreeSize := s.readPtr - s.writePtr - 1
    if buf.length ≤ nFreeSize then
      { s with caller := .copy [] buf s.writePtr [] (s.writePtr + buf.length) nFreeSize }
    else { s with caller := .full buf }

/-- The caller goes on, unless it has to wait or is in no call. -/
def callerNext (s : FsCache) : Option FsCache :=
  match s.caller with
  | .idle => none
  | .flushed _ => none
  | .write buf => some (s.tryWrite buf)
  | .full buf =>
      some { s with writeStartSem := upUnique s.writeStartSem, caller := .waitDone buf }
  | .waitDone buf =>
      if 0 < s.writeDoneSem then
        some { s with writeDoneSem := s.writeDoneSem - 1, caller := .write buf }
      else none
  | .copy done (b :: src) dst next wt free =>
      some { s with
        cache := fun i => if i = dst then b else s.cache i
        caller := .copy (done ++ [b]) src (dst + 1) next wt free }
  | .copy done [] _ (b :: next) wt free =>
      some { s with caller := .copy done (b :: next) 0 [] wt free }
  | .copy done [] _ [] wt free =>
      some { s with
        writePtr := wt
        put := s.put ++ done
        caller := .notify done.length free }
  | .notify size free =>
      some { s with
        writeStartSem :=
          if writeBlockSize ≤ s.cacheSize - (free + 1 - size) then upUnique s.writeStartSem
          else s.writeStartSem
        caller := .idle }
  | .flush =>
      if s.readPtr = s.writePtr then some { s with caller := .flushed 0 }
      else some { s with caller := .flushLock }
  | .flushLock =>
      if s.flushLock = none then some { s with flushLock := some .caller, caller := .flushSet }
      else none
  | .flushSet => some { s with flushFlag := true, caller := .flushRaise }
  | .flushRaise =>
      some { s with writeStartSem := upUnique s.writeStartSem, caller := .flushUnlock }
  | .flushUnlock => some { s with flushLock := none, caller := .flushWait }
  | .flushWait =>
      if 0 < s.flushDoneSem then
        some { s with flushDoneSem := s.flushDoneSem - 1, caller := .flushCheck }
      else none
  | .flushCheck =>
      some { s with caller := .flushed (if s.readPtr ≠ s.writePtr then -1 else 0) }
  | .deinitRaise =>
      some { s with writeStartSem := upUnique s.writeStartSem, caller := .join }
  | .join => if s.thread = .exited then some { s with caller := .destroyed } else none
  | .destroyed => none

/-! ## The thread -/

/-- The loop of section (2). -/
def drainNext (s : FsCache) : Thread :=
  if s.readPtr ≤ s.writePtr then
    let nWriteBlockNum := (s.writePtr - s.readPtr) / writeBlockSize
    if 0 < nWriteBlockNum then
      .send (writeBlockSize * nWriteBlockNum) 0 (s.readPtr + writeBlockSize * nWriteBlockNum) .drain
    else .lock
  else
    let nValidSizeSection2 := s.cacheSize - s.readPtr
    let nWriteBlockNum := nValidSizeSection2 / writeBlockSize
    if 0 < nWriteBlockNum then
      let rd := s.readPtr + writeBlockSize * nWriteBlockNum
      .send (writeBlockSize * nWriteBlockNum) 0 (if rd = s.cacheSize then 0 else rd) .drain
    else .send nValidSizeSection2 0 0 .drain

/-- What sections (3) and (4) write, with where each goes on after its last byte, and after the
first section of two. -/
def rest (s : FsCache) (last : After) (second : Nat → After) : Thread :=
  if s.readPtr ≤ s.writePtr then
    let nValidSize := s.writePtr - s.readPtr
    if 0 < nValidSize then .send nValidSize 0 (s.readPtr + nValidSize) last else last.thread
  else
    let nValidSizeSection2 := s.cacheSize - s.readPtr
    if 0 < nValidSizeSection2 then .send nValidSizeSection2 0 0 (second s.writePtr)
    else (second s.writePtr).thread

/-- The second section. -/
def restSecond (s : FsCache) (n : Nat) (last : After) : Thread :=
  if 0 < n then .send n 0 (s.readPtr + n) last else last.thread

/-- The thread goes on, unless it has to wait. `taken`: the stream takes another byte. -/
def threadNext (s : FsCache) (taken : Bool) : Option FsCache :=
  match s.thread with
  | .down =>
      if 0 < s.writeStartSem then
        some { s with writeStartSem := s.writeStartSem - 1, thread := .drain }
      else none
  | .drain => some { s with thread := s.drainNext }
  | .send n j rd k =>
      if j < n ∧ taken then
        some { s with
          stream := s.stream ++ [s.cache (s.readPtr + j)]
          thread := .send n (j + 1) rd k }
      else some { s with thread := .store n rd k }
  | .store _ rd k => some { s with readPtr := rd, thread := .signal k }
  | .signal k => some { s with writeDoneSem := s.writeDoneSem + 1, thread := k.thread }
  | .lock =>
      if s.flushLock = none then some { s with flushLock := some .thread, thread := .check }
      else none
  | .check => some { s with thread := if s.flushFlag then .flush else .unlock }
  | .flush => some { s with thread := s.rest .flushEnd .flushSecond }
  | .flushSecond n => some { s with thread := s.restSecond n .flushEnd }
  | .flushEnd =>
      if s.readPtr = s.writePtr then
        some { s with readPtr := 0, writePtr := 0, thread := .flushUp }
      else some { s with thread := .flushUp }
  | .flushUp => some { s with flushDoneSem := s.flushDoneSem + 1, thread := .flushClear }
  | .flushClear => some { s with flushFlag := false, thread := .unlock }
  | .unlock => some { s with flushLock := none, thread := .exitCheck }
  | .exitCheck => some { s with thread := if s.threadExitFlag then .exit else .down }
  | .exit => some { s with thread := s.rest .exitEnd .exitSecond }
  | .exitSecond n => some { s with thread := s.restSecond n .exitEnd }
  | .exited => none

end FsCache

/-! ## The system -/

/-- A call begins, the caller goes on, or the thread. -/
inductive Label
  | fsWrite (buf : Bytes)
  | fsFlush
  | deinit
  | caller
  | thread (taken : Bool)
  deriving DecidableEq

/-- The caller is in no call. -/
def Caller.outside : Caller → Bool
  | .idle => true
  | .flushed _ => true
  | _ => false

def FsCache.next (s : FsCache) : Label → Option FsCache
  | .fsWrite buf =>
      if s.caller.outside then some { s with caller := if buf = [] then .idle else .write buf }
      else none
  | .fsFlush => if s.caller.outside then some { s with caller := .flush } else none
  | .deinit =>
      if s.caller.outside then some { s with threadExitFlag := true, caller := .deinitRaise }
      else none
  | .caller => s.callerNext
  | .thread taken => s.threadNext taken

/-- A cache of `cacheSize` bytes, from its creation on. -/
def caching (cacheSize : Nat) : System FsCache Label :=
  System.ofStep (fun s => ∃ cache, s = FsCache.init cache cacheSize) FsCache.next

end Maixii.FsWriter
