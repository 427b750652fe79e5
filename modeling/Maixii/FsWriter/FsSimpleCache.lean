import Maixii.Lib.Machine
import Maixii.Lib.OutFile

/-!
# `FsWriter/FsSimpleCache.lean`: the simple cache, and writing directly

`FsWriteDirect` hands every call on to the stream. `FsSimpleCache` keeps back what does not fill its
cache, and writes whole caches. A stream is what its four functions do; of one whose writes succeed
nothing is used but that two writes in a row are one.

What the stream would be if the cache were written to it now (`FsSimpleCache.settled`) is, at every
moment, what the stream of the direct writer is (`simple_cache_is_direct`).

Lengths are numbers: an object has fewer than `SIZE_MAX / 2` bytes and a cache at most `INT_MAX`, so
no sum wraps.
-/

set_option autoImplicit false

namespace Maixii.FsWriter

open Maixii.Lib

/-! ## Streams -/

/-- What the functions of a `cdx_stream_info` do to what is behind its handle. `write` gives back
how many bytes it took, and `errno`. -/
structure StreamOps (σ : Type) where
  write : σ → Bytes → (Int × Int) × σ
  seek : σ → Int → Int → Int × σ
  tell : σ → Int
  truncate : σ → Int → Int × σ

/-- `cdx_stream_info`; `callbacks` counts the calls of `callback.cb`. -/
structure StreamInfo (σ : Type) where
  handle : σ
  writeErrcnt : Int
  writeError : Int
  hasCallback : Bool
  callbacks : Nat
  deriving DecidableEq

def EIO : Int := 5

variable {σ : Type}

/-- `fileWriter`. -/
def fileWriter (S : StreamOps σ) (p : StreamInfo σ) (buffer : Bytes) : Int × StreamInfo σ :=
  if p.writeError = EIO then (- EIO, p)
  else
    let ((totalWriten, errno), handle) := S.write p.handle buffer
    if totalWriten ≠ buffer.length then
      let told := (10 < p.writeErrcnt || errno = EIO) && p.hasCallback
      (totalWriten, { p with
        handle := handle
        writeError := errno
        writeErrcnt := p.writeErrcnt + 1
        callbacks := if told then p.callbacks + 1 else p.callbacks })
    else (totalWriten, { p with handle := handle, writeErrcnt := 0 })

namespace StreamInfo

def seek (S : StreamOps σ) (p : StreamInfo σ) (nOffset fromWhere : Int) : Int × StreamInfo σ :=
  ((S.seek p.handle nOffset fromWhere).1,
    { p with handle := (S.seek p.handle nOffset fromWhere).2 })

def truncate (S : StreamOps σ) (p : StreamInfo σ) (nLength : Int) : Int × StreamInfo σ :=
  ((S.truncate p.handle nLength).1, { p with handle := (S.truncate p.handle nLength).2 })

end StreamInfo

/-- A writer's calls. -/
inductive Call
  | fsWrite (buf : Bytes)
  | fsSeek (nOffset fromWhere : Int)
  | fsTell
  | fsTruncate (nLength : Int)
  | fsFlush
  deriving DecidableEq

/-! ## Direct writing -/

namespace FsDirect

/-- `FsDirectFlush`. -/
def flush (p : StreamInfo σ) : Int × StreamInfo σ := (0, p)

/-- `FsDirectWrite`, `FsDirectSeek`, `FsDirectTell`, `FsDirectTruncate` and `FsDirectFlush`. -/
def call (S : StreamOps σ) (p : StreamInfo σ) : Call → Int × StreamInfo σ
  | .fsWrite buf => fileWriter S p buf
  | .fsSeek nOffset fromWhere => (flush p).2.seek S nOffset fromWhere
  | .fsTell => (S.tell (flush p).2.handle, (flush p).2)
  | .fsTruncate nLength => (flush p).2.truncate S nLength
  | .fsFlush => flush p

/-- `deinitFsDirectWrite`. -/
def deinit (p : StreamInfo σ) : StreamInfo σ := p

end FsDirect

/-! ## The simple cache -/

/-- `FsSimpleCacheContext`. -/
structure FsSimpleCache (σ : Type) where
  mpStream : StreamInfo σ
  mpCache : Bytes
  mCacheSize : Nat
  mValidLen : Nat
  deriving DecidableEq

/-- `initFsSimpleCache`, with whatever is in the memory that it gets. -/
def initFsSimpleCache (pStream : StreamInfo σ) (nCacheSize : Int) (memory : Nat → UInt8) :
    Option (FsSimpleCache σ) :=
  if nCacheSize ≤ 0 then none
  else some {
    mpStream := pStream
    mpCache := (List.range nCacheSize.toNat).map memory
    mCacheSize := nCacheSize.toNat
    mValidLen := 0 }

namespace FsSimpleCache

/-- `memcpy` into the cache. -/
def copyTo (c : FsSimpleCache σ) (at' : Nat) (bs : Bytes) : FsSimpleCache σ :=
  { c with mpCache := patch c.mpCache at' bs }

/-- The first `n` bytes of the cache go to the stream, and it is empty. -/
def writeOut (S : StreamOps σ) (c : FsSimpleCache σ) (n : Nat) : FsSimpleCache σ :=
  { c with mpStream := (fileWriter S c.mpStream (c.mpCache.take n)).2, mValidLen := 0 }

/-- `FsSimpleCacheFlush`. -/
def flush (S : StreamOps σ) (c : FsSimpleCache σ) : Int × FsSimpleCache σ :=
  (0, if 0 < c.mValidLen then c.writeOut S c.mValidLen else c)

/-- The last `nLeftSize` bytes of `buf` are cached. -/
def keep (c : FsSimpleCache σ) (buf : Bytes) (nLeftSize : Nat) : FsSimpleCache σ :=
  if 0 < nLeftSize then
    { c.copyTo 0 (readAt buf (buf.length - nLeftSize) nLeftSize) with mValidLen := nLeftSize }
  else c

/-- The last `nLeftSize` bytes of `buf`, behind what has filled the cache: as many of them as fill
it once or more often are written from where they are. -/
def writeLeft (S : StreamOps σ) (c : FsSimpleCache σ) (buf : Bytes) (nLeftSize : Nat) :
    FsSimpleCache σ :=
  if c.mCacheSize ≤ nLeftSize then
    let nWriteSize := nLeftSize / c.mCacheSize * c.mCacheSize
    let p := (fileWriter S c.mpStream (readAt buf (buf.length - nLeftSize) nWriteSize)).2
    { c with mpStream := p }.keep buf (nLeftSize - nWriteSize)
  else c.keep buf nLeftSize

/-- `FsSimpleCacheWrite`. -/
def write (S : StreamOps σ) (c : FsSimpleCache σ) (buf : Bytes) : Int × FsSimpleCache σ :=
  let size := buf.length
  if size = 0 then (-1, c)
  else if c.mCacheSize ≤ c.mValidLen then (-1, c)
  else if 0 < c.mValidLen then
    if c.mValidLen + size ≤ c.mCacheSize then
      let c := { c.copyTo c.mValidLen buf with mValidLen := c.mValidLen + size }
      (size, if c.mValidLen = c.mCacheSize then c.writeOut S c.mCacheSize else c)
    else
      let nSize0 := c.mCacheSize - c.mValidLen
      let c := (c.copyTo c.mValidLen (buf.take nSize0)).writeOut S c.mCacheSize
      (size, c.writeLeft S buf (size - nSize0))
  else (size, c.writeLeft S buf size)

/-- `FsSimpleCacheWrite`, `FsSimpleCacheSeek`, `FsSimpleCacheTell`, `FsSimpleCacheTruncate` and
`FsSimpleCacheFlush`. -/
def call (S : StreamOps σ) (c : FsSimpleCache σ) : Call → Int × FsSimpleCache σ
  | .fsWrite buf => c.write S buf
  | .fsSeek nOffset fromWhere =>
      let c := (c.flush S).2
      let (ret, p) := c.mpStream.seek S nOffset fromWhere
      (ret, { c with mpStream := p })
  | .fsTell =>
      let c := (c.flush S).2
      (S.tell c.mpStream.handle, c)
  | .fsTruncate nLength =>
      let c := (c.flush S).2
      let (ret, p) := c.mpStream.truncate S nLength
      (ret, { c with mpStream := p })
  | .fsFlush => c.flush S

/-- `deinitFsSimpleCache`: what is left of it is the stream. -/
def deinit (S : StreamOps σ) (c : FsSimpleCache σ) : StreamInfo σ := (c.flush S).2.mpStream

end FsSimpleCache

/-! ## Streams whose writes succeed -/

/-- **Every write takes all that it is given, and goes on where the one before it has ended.** -/
structure WritesSucceed (S : StreamOps σ) : Prop where
  takes : ∀ s bs, bs ≠ [] → (S.write s bs).1.1 = bs.length
  goesOn : ∀ s a b, a ≠ [] → b ≠ [] → (S.write (S.write s a).2 b).2 = (S.write s (a ++ b)).2

/-- Nothing stands in the way of a write: the last one has not failed with `EIO`. -/
def StreamInfo.Open (p : StreamInfo σ) : Prop := p.writeError ≠ EIO

/-- The stream after `bs` has been written to it, if that is anything. -/
def StreamInfo.taken (S : StreamOps σ) (p : StreamInfo σ) (bs : Bytes) : StreamInfo σ :=
  if bs = [] then p else (fileWriter S p bs).2

section

variable {S : StreamOps σ} {p : StreamInfo σ} {a b bs : Bytes}

@[simp] theorem taken_nil : p.taken S [] = p := rfl

theorem taken_of_ne (h : bs ≠ []) : p.taken S bs = (fileWriter S p bs).2 := if_neg h

/-- A write that succeeds. -/
theorem fileWriter_eq (hS : WritesSucceed S) (hp : p.Open) (h : bs ≠ []) :
    fileWriter S p bs =
      ((bs.length : Int), { p with handle := (S.write p.handle bs).2, writeErrcnt := 0 }) := by
  have htakes := hS.takes p.handle bs h
  unfold fileWriter
  rw [if_neg hp]
  simp only [htakes, ne_eq, not_true_eq_false, if_false]

theorem StreamInfo.Open.taken (hS : WritesSucceed S) (hp : p.Open) : (p.taken S bs).Open := by
  by_cases h : bs = []
  · rw [h, taken_nil]
    exact hp
  · rw [taken_of_ne h, fileWriter_eq hS hp h]
    exact hp

/-- **Two writes in a row are one.** -/
theorem taken_taken (hS : WritesSucceed S) (hp : p.Open) :
    (p.taken S a).taken S b = p.taken S (a ++ b) := by
  by_cases ha : a = []
  · rw [ha, taken_nil, List.nil_append]
  by_cases hb : b = []
  · rw [hb, taken_nil, List.append_nil]
  have hab : a ++ b ≠ [] := List.append_ne_nil_of_left_ne_nil ha b
  have hopen : (p.taken S a).Open := hp.taken hS
  rw [taken_of_ne hb, taken_of_ne hab, fileWriter_eq hS hopen hb, fileWriter_eq hS hp hab,
    taken_of_ne ha, fileWriter_eq hS hp ha]
  simp only [hS.goesOn p.handle a b ha hb]

end

/-! ## What the cache comes to -/

namespace FsSimpleCache

/-- What is in the cache. -/
def cached (c : FsSimpleCache σ) : Bytes := c.mpCache.take c.mValidLen

/-- The stream, if the cache were written to it now. -/
def settled (S : StreamOps σ) (c : FsSimpleCache σ) : StreamInfo σ := c.mpStream.taken S c.cached

/-- **There is room in the cache**, and its stream takes what it is given. -/
structure Ok (c : FsSimpleCache σ) : Prop where
  size : c.mpCache.length = c.mCacheSize
  room : c.mValidLen < c.mCacheSize
  takes : c.mpStream.Open

section

variable {S : StreamOps σ} {c : FsSimpleCache σ} {buf bs : Bytes}

/-- An empty cache. -/
theorem settled_of_empty (h : c.mValidLen = 0) : c.settled S = c.mpStream := by
  rw [settled, cached, h, List.take_zero, taken_nil]

theorem Ok.cached_ne (h : c.Ok) (hpos : 0 < c.mValidLen) : c.cached ≠ [] := by
  have hsize := h.size
  have hroom := h.room
  refine List.ne_nil_of_length_pos ?_
  rw [cached, List.length_take]
  omega

theorem settled_eq_flush (h : c.Ok) : (c.flush S).2.mpStream = c.settled S := by
  unfold flush
  split
  · rename_i hpos
    rw [settled, taken_of_ne (h.cached_ne hpos)]
    rfl
  · rename_i hpos
    exact (settled_of_empty (Nat.eq_zero_of_not_pos hpos)).symm

theorem Ok.flush (hS : WritesSucceed S) (h : c.Ok) : (c.flush S).2.Ok where
  size := by
    unfold FsSimpleCache.flush
    split <;> exact h.size
  room := by
    have hroom := h.room
    unfold FsSimpleCache.flush
    split
    · exact Nat.lt_of_le_of_lt (Nat.zero_le _) hroom
    · exact hroom
  takes := by
    rw [settled_eq_flush h]
    exact h.takes.taken hS

theorem flush_empty : (c.flush S).2.mValidLen = 0 := by
  unfold flush
  split
  · rfl
  · rename_i hpos
    exact Nat.eq_zero_of_not_pos hpos

/-- After a flush the stream is all there is. -/
theorem settled_flush (p : StreamInfo σ) :
    { (c.flush S).2 with mpStream := p }.settled S = p :=
  settled_of_empty flush_empty

/-- What is copied behind what is cached is cached too. -/
theorem cached_copyTo (h : c.Ok) (bs : Bytes) (hfit : c.mValidLen + bs.length ≤ c.mCacheSize) :
    (c.copyTo c.mValidLen bs).mpCache.length = c.mCacheSize ∧
      (c.copyTo c.mValidLen bs).mpCache.take (c.mValidLen + bs.length) = c.cached ++ bs := by
  have hsize := h.size
  have hle : c.mValidLen ≤ c.mpCache.length := by omega
  refine ⟨(length_patch (by omega)).trans hsize, ?_⟩
  have hlen : (c.cached ++ bs).length = c.mValidLen + bs.length := by
    rw [List.length_append, cached, List.length_take, Nat.min_eq_left hle]
  rw [copyTo, patch_eq hle, ← hlen, cached, List.take_left]

/-- What fits into an empty cache is kept there. -/
theorem Ok.keep {n : Nat} (h : c.Ok) (buf : Bytes) (hempty : c.mValidLen = 0) (hn : n < c.mCacheSize)
    (hle : n ≤ buf.length) :
    (c.keep buf n).Ok ∧
      (c.keep buf n).settled S = c.mpStream.taken S (buf.drop (buf.length - n)) := by
  unfold FsSimpleCache.keep
  split
  · have hall : readAt buf (buf.length - n) n = buf.drop (buf.length - n) := by
      refine List.take_of_length_le ?_
      rw [List.length_drop]
      omega
    have hlen : (buf.drop (buf.length - n)).length = n := by
      rw [List.length_drop]
      omega
    have hnone : c.cached = [] := by rw [cached, hempty, List.take_zero]
    obtain ⟨hsize, hcached⟩ :=
      cached_copyTo h (buf.drop (buf.length - n)) (by rw [hempty, hlen]; omega)
    rw [hnone, List.nil_append, hempty, Nat.zero_add, hlen] at hcached
    rw [hempty] at hsize
    rw [hall]
    refine ⟨⟨hsize, hn, h.takes⟩, ?_⟩
    rw [settled, cached]
    exact congrArg (c.mpStream.taken S) hcached
  · rename_i hpos
    have hzero : n = 0 := Nat.eq_zero_of_not_pos hpos
    refine ⟨h, ?_⟩
    rw [settled_of_empty hempty, hzero, Nat.sub_zero, List.drop_length, taken_nil]

/-- What is behind a full cache is written as far as it fills the cache, and what is left kept. -/
theorem Ok.writeLeft {n : Nat} (hS : WritesSucceed S) (h : c.Ok) (buf : Bytes)
    (hempty : c.mValidLen = 0) (hle : n ≤ buf.length) :
    (c.writeLeft S buf n).Ok ∧
      (c.writeLeft S buf n).settled S = c.mpStream.taken S (buf.drop (buf.length - n)) := by
  have hpos : 0 < c.mCacheSize := Nat.lt_of_le_of_lt (Nat.zero_le _) h.room
  unfold FsSimpleCache.writeLeft
  split
  · rename_i hfull
    set w := n / c.mCacheSize * c.mCacheSize with hw
    have hwn : w ≤ n := Nat.div_mul_le_self n c.mCacheSize
    have hw0 : 0 < w := Nat.mul_pos (Nat.div_pos hfull hpos) hpos
    have hrest : n - w < c.mCacheSize := by
      have hmod := Nat.mod_lt n hpos
      have hdiv := Nat.div_add_mod' n c.mCacheSize
      omega
    have hwhole : readAt buf (buf.length - n) w ≠ [] := by
      refine List.ne_nil_of_length_pos ?_
      rw [readAt, List.length_take, List.length_drop]
      omega
    have hparts : readAt buf (buf.length - n) w ++ buf.drop (buf.length - (n - w)) =
        buf.drop (buf.length - n) := by
      have hbehind : buf.length - (n - w) = buf.length - n + w := by omega
      rw [readAt, hbehind, ← List.drop_drop, List.take_append_drop]
    have hwritten := (taken_of_ne (S := S) (p := c.mpStream) hwhole).symm
    dsimp only
    rw [hwritten]
    have hok : { c with mpStream := c.mpStream.taken S (readAt buf (buf.length - n) w) }.Ok :=
      ⟨h.size, h.room, h.takes.taken hS⟩
    obtain ⟨hkept, hsettled⟩ := hok.keep (S := S) (n := n - w) buf hempty hrest (by omega)
    exact ⟨hkept, hsettled.trans (by rw [taken_taken hS h.takes, hparts])⟩
  · rename_i hfull
    exact h.keep buf hempty (Nat.lt_of_not_le hfull) hle

/-- The cache is filled, and written. -/
theorem Ok.writeOut (hS : WritesSucceed S) (h : c.Ok) (hbs : bs ≠ [])
    (hfull : c.mValidLen + bs.length = c.mCacheSize) :
    ((c.copyTo c.mValidLen bs).writeOut S c.mCacheSize).Ok ∧
      ((c.copyTo c.mValidLen bs).writeOut S c.mCacheSize).mpStream =
        (c.settled S).taken S bs := by
  obtain ⟨hsize, hcached⟩ := cached_copyTo h bs (Nat.le_of_eq hfull)
  rw [hfull] at hcached
  have hne : c.cached ++ bs ≠ [] := List.append_ne_nil_of_right_ne_nil _ hbs
  have hstream : ((c.copyTo c.mValidLen bs).writeOut S c.mCacheSize).mpStream =
      (c.settled S).taken S bs := by
    rw [settled, taken_taken hS h.takes, taken_of_ne hne, ← hcached]
    rfl
  refine ⟨⟨hsize, Nat.lt_of_le_of_lt (Nat.zero_le _) h.room, ?_⟩, hstream⟩
  rw [hstream]
  exact (h.takes.taken hS).taken hS

/-- **A write: whatever is kept back, the stream and the cache together have taken it.** -/
theorem Ok.write (hS : WritesSucceed S) (h : c.Ok) (hbuf : buf ≠ []) :
    (c.write S buf).1 = buf.length ∧ (c.write S buf).2.Ok ∧
      (c.write S buf).2.settled S = (c.settled S).taken S buf := by
  have hlen : buf.length ≠ 0 := fun h0 => hbuf (List.length_eq_zero_iff.mp h0)
  have hroom := h.room
  unfold FsSimpleCache.write
  simp only [if_neg hlen, if_neg (Nat.not_le.mpr hroom)]
  split
  · split
    · rename_i hfit
      obtain ⟨hsize, hcached⟩ := cached_copyTo h buf hfit
      refine ⟨rfl, ?_⟩
      dsimp only
      split
      · rename_i hfull
        obtain ⟨hok, hstream⟩ := h.writeOut hS hbuf hfull
        exact ⟨hok, (settled_of_empty rfl).trans hstream⟩
      · rename_i hfull
        refine ⟨⟨hsize, Nat.lt_of_le_of_ne hfit hfull, h.takes⟩, ?_⟩
        rw [settled, settled, taken_taken hS h.takes]
        exact congrArg (c.mpStream.taken S) hcached
    · rename_i hfit
      set n := c.mCacheSize - c.mValidLen with hn
      have htake : (buf.take n).length = n := by
        rw [List.length_take]
        omega
      have hne : buf.take n ≠ [] := by
        refine List.ne_nil_of_length_pos ?_
        omega
      obtain ⟨hok, hstream⟩ := h.writeOut hS hne (by rw [htake]; omega)
      obtain ⟨hleft, hsettled⟩ :=
        hok.writeLeft (n := buf.length - n) hS buf rfl (Nat.sub_le _ _)
      refine ⟨rfl, hleft, hsettled.trans ?_⟩
      have hback : buf.length - (buf.length - n) = n := by omega
      have hopen : (c.settled S).Open := h.takes.taken hS
      rw [hstream, hback, taken_taken hS hopen, List.take_append_drop]
  · rename_i hempty
    have hzero := Nat.eq_zero_of_not_pos hempty
    obtain ⟨hok, hsettled⟩ := h.writeLeft hS buf hzero (Nat.le_refl _)
    refine ⟨rfl, hok, hsettled.trans ?_⟩
    rw [Nat.sub_self, List.drop_zero, settled_of_empty hzero]

/-- **A call on the cache is that call on the settled stream.** -/
theorem Ok.call (hS : WritesSucceed S) (h : c.Ok) {k : Call} (hk : k ≠ .fsWrite []) :
    (c.call S k).2.Ok ∧
      FsDirect.call S (c.settled S) k = ((c.call S k).1, (c.call S k).2.settled S) := by
  have hflush : (c.flush S).2.Ok := h.flush hS
  have hstream : (c.flush S).2.mpStream = c.settled S := settled_eq_flush h
  cases k with
  | fsWrite buf =>
    have hbuf : buf ≠ [] := fun hnil => hk (hnil ▸ rfl)
    obtain ⟨hret, hok, hsettled⟩ := h.write hS hbuf
    have hopen : (c.settled S).Open := h.takes.taken hS
    refine ⟨hok, Prod.ext ?_ ?_⟩
    · exact (congrArg Prod.fst (fileWriter_eq hS hopen hbuf)).trans hret.symm
    · exact (taken_of_ne hbuf).symm.trans hsettled.symm
  | fsSeek nOffset fromWhere =>
    refine ⟨⟨hflush.size, hflush.room, hflush.takes⟩, ?_⟩
    rw [← hstream]
    exact Prod.ext rfl (settled_flush _).symm
  | fsTell =>
    refine ⟨hflush, ?_⟩
    rw [← hstream]
    exact Prod.ext rfl (settled_flush _).symm
  | fsTruncate nLength =>
    refine ⟨⟨hflush.size, hflush.room, hflush.takes⟩, ?_⟩
    rw [← hstream]
    exact Prod.ext rfl (settled_flush _).symm
  | fsFlush =>
    refine ⟨hflush, ?_⟩
    rw [← hstream]
    exact Prod.ext rfl (settled_flush _).symm

end

end FsSimpleCache

/-- A new cache is empty, and what is behind it is the stream it was made for. -/
theorem initFsSimpleCache_ok {p : StreamInfo σ} {nCacheSize : Int} {memory : Nat → UInt8}
    {c : FsSimpleCache σ} (hp : p.Open) (h : initFsSimpleCache p nCacheSize memory = some c) :
    c.Ok ∧ c.mpStream = p ∧ c.mValidLen = 0 := by
  unfold initFsSimpleCache at h
  split at h
  · exact absurd h (by simp)
  · rename_i hpos
    obtain rfl := Option.some.inj h
    refine ⟨⟨?_, ?_, hp⟩, rfl, rfl⟩
    · rw [List.length_map, List.length_range]
    · dsimp only
      omega

/-- **The simple cache is direct writing.** After any calls it has given back the same values, there
is room in it, and taken down it leaves the same stream. The direct writer is the second program of
the source and not a description made for this purpose, so both sides are given the same calls and
neither is asked how it comes to its answers. -/
theorem simple_cache_is_direct {S : StreamOps σ} (hS : WritesSucceed S) {p : StreamInfo σ}
    (hp : p.Open) {nCacheSize : Int} {memory : Nat → UInt8} {c : FsSimpleCache σ}
    (hc : initFsSimpleCache p nCacheSize memory = some c) {ks : List Call}
    (hks : ∀ k ∈ ks, k ≠ .fsWrite []) :
    (answers (FsSimpleCache.call S) c ks).1 = (answers (FsDirect.call S) p ks).1 ∧
      (answers (FsSimpleCache.call S) c ks).2.deinit S =
        FsDirect.deinit (answers (FsDirect.call S) p ks).2 ∧
      (answers (FsSimpleCache.call S) c ks).2.mValidLen <
        (answers (FsSimpleCache.call S) c ks).2.mCacheSize := by
  obtain ⟨hok, hstream, hempty⟩ := initFsSimpleCache_ok hp hc
  have hstart : c.Ok ∧ c.settled S = p :=
    ⟨hok, (FsSimpleCache.settled_of_empty hempty).trans hstream⟩
  have hguard : Guarded (FsSimpleCache.call S) (fun _ k => k ≠ .fsWrite []) c ks :=
    guarded_of_inv (P := fun _ => True) trivial (fun _ _ _ hk => ⟨hk, trivial⟩) hks
  obtain ⟨hanswers, hend, hsettled⟩ := simulates hstart (g := FsDirect.call S)
    (R := fun c p => c.Ok ∧ c.settled S = p) (fun c p k hR hk => by
      obtain ⟨hok, rfl⟩ := hR
      obtain ⟨hnext, hcall⟩ := hok.call hS hk
      rw [hcall]
      exact ⟨rfl, hnext, rfl⟩) hguard
  exact ⟨hanswers, (FsSimpleCache.settled_eq_flush hend).trans hsettled, hend.room⟩

/-! ## A file -/

/-- A file behind a descriptor: its bytes, and `fd_desc.cur_offset`. -/
structure FdFile where
  bytes : Bytes
  cur_offset : Nat
  deriving DecidableEq

namespace FdFile

/-- `cdx_write_fd_file`, on a disk that takes everything. -/
def write (f : FdFile) (bs : Bytes) : (Int × Int) × FdFile :=
  ((bs.length, 0), ⟨patch f.bytes f.cur_offset bs, f.cur_offset + bs.length⟩)

/-- `cdx_seek_fd_file`, with `fd_desc.offset` zero: from the start, from where it is, and from the
end. -/
def seek (f : FdFile) (offset whence : Int) : Int × FdFile :=
  let seek_result : Int :=
    if whence = 0 then offset
    else if whence = 1 then f.cur_offset + offset
    else f.bytes.length + offset
  if seek_result < 0 then (-1, f) else (0, { f with cur_offset := seek_result.toNat })

/-- `cdx_truncate_fd_file`. -/
def truncate (f : FdFile) (length : Int) : Int × FdFile :=
  if length < 0 then (-1, f)
  else
    (0, { f with bytes := f.bytes.take length.toNat ++
      List.replicate (length.toNat - f.bytes.length) 0 })

def ops : StreamOps FdFile where
  write := write
  seek := seek
  tell := fun f => f.cur_offset
  truncate := truncate

/-- The disk takes everything. -/
theorem writesSucceed : WritesSucceed ops where
  takes := fun _ _ _ => rfl
  goesOn := by
    intro f a b ha _
    simp only [ops, write, patch_patch_of_ne ha, List.length_append,
      Nat.add_assoc]

end FdFile

/-- A cache of four bytes: three that fit, twelve that overflow it and fill it twice more, some
that are written over, and a file cut short. -/
theorem simple_cache_is_direct_file :
    let p : StreamInfo FdFile := ⟨⟨[], 0⟩, 0, 0, false, 0⟩
    let ks : List Call :=
      [.fsWrite [1, 2, 3], .fsWrite [4, 5, 6, 7, 8, 9, 10, 11, 12, 13, 14, 15], .fsTell,
        .fsSeek 2 0, .fsWrite [20, 21], .fsFlush, .fsTruncate 9, .fsSeek (-1) 2, .fsWrite [22]]
    ∃ c, initFsSimpleCache p 4 (fun _ => 0) = some c ∧
      (answers (FsSimpleCache.call FdFile.ops) c ks).1 =
          (answers (FsDirect.call FdFile.ops) p ks).1 ∧
        (answers (FsSimpleCache.call FdFile.ops) c ks).2.deinit FdFile.ops =
          FsDirect.deinit (answers (FsDirect.call FdFile.ops) p ks).2 ∧
        (answers (FsSimpleCache.call FdFile.ops) c ks).2.mValidLen <
          (answers (FsSimpleCache.call FdFile.ops) c ks).2.mCacheSize := by
  intro p ks
  have hp : p.Open := by simp [p, StreamInfo.Open, EIO]
  have hc : initFsSimpleCache p 4 (fun _ => 0) = some ⟨p, [0, 0, 0, 0], 4, 0⟩ := rfl
  exact ⟨_, hc, simple_cache_is_direct FdFile.writesSucceed hp hc (by decide)⟩

end Maixii.FsWriter
