import Maixii.Lib.Ring

/-!
# `Muxer/TsCache.lean`: the ring of transport packets

`cache_in_ts_stream` of `mpeg2ts_muxer`: room for 1024 packets. `mpegts_write_section`,
`wirte_pcr_table` and `mpegts_write_pes` each have the same lines to put a packet into it; `push` is
these lines. For a file an eighth of the ring is written whenever it is full, and `ts_write_trailer`
writes the rest. For a callback nothing leaves the ring before the end of `mpegts_write_pes`, which
hands over everything at once, and reads from the start of the ring as many bytes as were put in.

Pointers are counted in packets from `ts_cache_start`. A place nothing was written to, and any place
behind the end, reads as `none`.
-/

set_option autoImplicit false

namespace Maixii.Muxer

open Maixii.Lib

/-- `output_buffer_mode`; no command of the muxer selects `OUTPUT_M3U8_FILE`. -/
inductive OutputMode
  | tsFile
  | callbackBuffer
  deriving DecidableEq, Repr

/-- The size of the ring. -/
def cachePackets : Nat := 1024

/-- How much of it is written to a file at a time. -/
def cachePage : Nat := 128

/-- The ring with its counters, and what has been handed over so far. -/
structure TsCache (α : Type) where
  slots : Nat → Option α
  /-- A `uint32_t`, like `cachePageNum`. -/
  cacheSize : Nat
  /-- A `uint64_t`. -/
  cacheSizeTotal : Nat
  writePtr : Nat
  readPtr : Nat
  cachePageNum : Nat
  out : List (Option α)

namespace TsCache

variable {α : Type}

def new : TsCache α := ⟨fun _ => none, 0, 0, 0, 0, 0, []⟩

/-- `n` packets' worth of bytes, from a place on. -/
def read (c : TsCache α) (ptr n : Nat) : List (Option α) :=
  (List.range n).map fun k => if ptr + k < cachePackets then c.slots (ptr + k) else none

/-- A pointer past `ts_cache_end` goes back to the start. -/
def wrap (ptr : Nat) : Nat := if cachePackets ≤ ptr then 0 else ptr

/-- A packet is copied to `ts_write_ptr` and counted. -/
def store (c : TsCache α) (packet : α) : TsCache α :=
  { c with
    cacheSize := (c.cacheSize + 188) % 2 ^ 32
    cacheSizeTotal := (c.cacheSizeTotal + 188) % 2 ^ 64
    slots := fun i => if i = c.writePtr then some packet else c.slots i
    writePtr := wrap (c.writePtr + 1) }

/-- A page is written to the file. -/
def drain (c : TsCache α) : TsCache α :=
  { c with
    out := c.out ++ c.read c.readPtr cachePage
    cacheSize := c.cacheSize - cachePage * 188
    cachePageNum := (c.cachePageNum + 1) % 2 ^ 32
    readPtr := wrap (c.readPtr + cachePage) }

/-- What each of the three functions does with a packet. -/
def push (mode : OutputMode) (c : TsCache α) (packet : α) : TsCache α :=
  if mode ≠ .callbackBuffer ∧ cachePackets * 188 ≤ (c.store packet).cacheSize then
    (c.store packet).drain
  else c.store packet

def pushAll (mode : OutputMode) (c : TsCache α) (packets : List α) : TsCache α :=
  packets.foldl (push mode) c

/-- Pointers and counters as after `Mpeg2tsMuxerOpen`. -/
def reset (c : TsCache α) : TsCache α :=
  { c with cacheSize := 0, cacheSizeTotal := 0, writePtr := 0, readPtr := 0, cachePageNum := 0 }

/-- The end of `mpegts_write_pes` for a callback. -/
def flush (c : TsCache α) : TsCache α :=
  { c with out := c.out ++ c.read c.readPtr (c.cacheSize / 188) }.reset

/-- The loop of `ts_write_trailer`, with the 32-bit counter `i`; it may go on for ever, and ends
with `none` when the fuel does. -/
def trailerLoop : Nat → UInt32 → TsCache α → Option (TsCache α)
  | 0, _, _ => none
  | fuel + 1, i, c =>
      if i.toNat < c.cacheSizeTotal / 188 then
        let ptr := wrap c.readPtr
        trailerLoop fuel (i + 1) { c with out := c.out ++ c.read ptr 1, readPtr := ptr + 1 }
      else some c

/-- `ts_write_trailer`. -/
def writeTrailer (mode : OutputMode) (c : TsCache α) : Option (TsCache α) :=
  if mode = .callbackBuffer then some c
  else
    (trailerLoop (c.cacheSizeTotal / 188 + 1) (UInt32.ofNat (c.cachePageNum * 128)) c).map reset

/-! ## What the ring holds -/

/-- **The ring is in order**: what has been handed over, and what it holds, are the packets so
far. -/
structure Holds (c : TsCache α) (generated held : List α) : Prop where
  window : Window cachePackets c.slots c.readPtr held
  back : c.writePtr = (c.readPtr + held.length) % cachePackets
  size : c.cacheSize = held.length * 188
  order : c.out ++ held.map some = generated.map some

theorem holds_new : (new : TsCache α).Holds [] [] where
  window := window_nil (Nat.succ_pos _)
  back := rfl
  size := rfl
  order := rfl

variable {c : TsCache α} {generated held : List α}

theorem wrap_eq {ptr : Nat} (h : ptr ≤ cachePackets) : wrap ptr = ptr % cachePackets := by
  unfold wrap
  split
  · rename_i hge
    rw [Nat.le_antisymm h hge, Nat.mod_self]
  · rename_i hlt
    rw [Nat.mod_eq_of_lt (Nat.lt_of_not_le hlt)]

/-- A packet is put into a ring that has room. -/
theorem Holds.store (h : c.Holds generated held) (packet : α) (hroom : held.length < cachePackets) :
    (c.store packet).Holds (generated ++ [packet]) (held ++ [packet]) where
  window := by
    have hw := h.window.push packet hroom
    rw [← h.back] at hw
    exact hw
  back := by
    have hlt : c.writePtr < cachePackets := by
      rw [h.back]
      exact Nat.mod_lt _ (by decide)
    show wrap (c.writePtr + 1) = (c.readPtr + (held ++ [packet]).length) % cachePackets
    rw [wrap_eq hlt, h.back, Nat.succ_eq_add_one, Nat.mod_add_mod, List.length_append,
      List.length_singleton, Nat.add_assoc]
  size := by
    show (c.cacheSize + 188) % 2 ^ 32 = _
    unfold cachePackets at hroom
    rw [h.size, List.length_append, List.length_singleton]
    omega
  order := by
    show c.out ++ (held ++ [packet]).map some = _
    rw [List.map_append, ← List.append_assoc, h.order, List.map_append]

/-- What is read inside the ring is what is there. -/
theorem read_eq {ptr n : Nat} (h : ptr + n ≤ cachePackets) :
    c.read ptr n = (List.range n).map fun k => c.slots (ptr + k) := by
  refine List.map_congr_left ?_
  intro k hk
  rw [if_pos (Nat.lt_of_lt_of_le (Nat.add_lt_add_left (List.mem_range.mp hk) _) h)]

@[simp] theorem drain_slots (c : TsCache α) : c.drain.slots = c.slots := by
  unfold drain
  rfl

@[simp] theorem drain_writePtr (c : TsCache α) : c.drain.writePtr = c.writePtr := by
  unfold drain
  rfl

@[simp] theorem drain_readPtr (c : TsCache α) :
    c.drain.readPtr = wrap (c.readPtr + cachePage) := by
  unfold drain
  rfl

@[simp] theorem drain_cacheSize (c : TsCache α) :
    c.drain.cacheSize = c.cacheSize - cachePage * 188 := by
  unfold drain
  rfl

@[simp] theorem drain_out (c : TsCache α) :
    c.drain.out = c.out ++ c.read c.readPtr cachePage := by
  unfold drain
  rfl

/-- A page is written off the front. -/
theorem Holds.drain (h : c.Holds generated held) (hn : cachePage ≤ held.length)
    (hstraight : c.readPtr + cachePage ≤ cachePackets) :
    c.drain.Holds generated (held.drop cachePage) where
  window := by
    rw [drain_slots, drain_readPtr, wrap_eq hstraight]
    exact h.window.drop cachePage
  back := by
    have hsum : c.readPtr + cachePage + (held.length - cachePage) = c.readPtr + held.length := by
      omega
    rw [drain_writePtr, drain_readPtr, wrap_eq hstraight, Nat.mod_add_mod, h.back,
      List.length_drop, hsum]
  size := by
    rw [drain_cacheSize, h.size, List.length_drop, Nat.sub_mul]
  order := by
    rw [drain_out, read_eq hstraight, h.window.read hn hstraight, List.append_assoc,
      ← List.map_append, List.take_append_drop, h.order]

/-- The end of a call for a callback: everything held is handed over. -/
theorem Holds.flush (h : c.Holds generated held) (hptr : c.readPtr = 0) :
    c.flush.Holds generated [] ∧ c.flush.readPtr = 0 := by
  have hread : c.read c.readPtr (c.cacheSize / 188) = held.map some := by
    have hn : c.cacheSize / 188 = held.length := by
      rw [h.size]
      exact Nat.mul_div_cancel _ (by decide)
    have hstraight : c.readPtr + held.length ≤ cachePackets := by
      rw [hptr, Nat.zero_add]
      exact h.window.fits
    rw [hn, read_eq hstraight, h.window.read (Nat.le_refl _) hstraight, List.take_length]
  refine ⟨⟨window_nil (Nat.succ_pos _), rfl, rfl, ?_⟩, rfl⟩
  show c.out ++ c.read c.readPtr (c.cacheSize / 188) ++ [] = generated.map some
  rw [hread, List.append_nil, h.order]

/-! ### For a callback -/

theorem push_callback (c : TsCache α) (packet : α) :
    c.push .callbackBuffer packet = c.store packet :=
  if_neg fun h => h.1 rfl

/-- **A call that fits**: the ring holds its packets, in order. -/
theorem Holds.pushAll_callback (packets : List α) (h : c.Holds generated held)
    (hroom : held.length + packets.length ≤ cachePackets) :
    (c.pushAll .callbackBuffer packets).Holds (generated ++ packets) (held ++ packets) ∧
      (c.pushAll .callbackBuffer packets).readPtr = c.readPtr := by
  induction packets generalizing c generated held with
  | nil =>
    rw [List.append_nil, List.append_nil]
    exact ⟨h, rfl⟩
  | cons p ps ih =>
    rw [List.length_cons] at hroom
    have hs := h.store p (by omega)
    rw [← push_callback] at hs
    have hlen : (held ++ [p]).length + ps.length ≤ cachePackets := by
      rw [List.length_append, List.length_singleton]
      omega
    have hrest := ih hs hlen
    rw [List.append_assoc, List.append_assoc, List.singleton_append] at hrest
    rw [push_callback] at hrest
    show (pushAll _ (c.push _ p) ps).Holds _ _ ∧ (pushAll _ (c.push _ p) ps).readPtr = _
    rw [push_callback]
    exact hrest

/-! ### For a file -/

/-- **What holds of the ring of a file** after each packet. -/
structure Filed (c : TsCache α) (generated held : List α) : Prop extends c.Holds generated held where
  room : held.length < cachePackets
  page : c.readPtr % cachePage = 0
  total : c.cacheSizeTotal = generated.length * 188
  pages : c.cachePageNum * cachePage + held.length = generated.length

theorem filed_new : (new : TsCache α).Filed [] [] where
  toHolds := holds_new
  room := Nat.succ_pos _
  page := rfl
  total := rfl
  pages := rfl

/-- **A packet for a file**: a full ring is drained by a page. -/
theorem Filed.push (h : c.Filed generated held) (packet : α)
    (hlt : generated.length + 1 < 2 ^ 32) :
    ∃ held', (c.push .tsFile packet).Filed (generated ++ [packet]) held' := by
  have hs := h.toHolds.store packet h.room
  have hlen : (held ++ [packet]).length = held.length + 1 := by
    rw [List.length_append, List.length_singleton]
  have hgen : (generated ++ [packet]).length = generated.length + 1 := by
    rw [List.length_append, List.length_singleton]
  have htotal : (c.store packet).cacheSizeTotal = (generated ++ [packet]).length * 188 := by
    show (c.cacheSizeTotal + 188) % 2 ^ 64 = _
    rw [h.total, hgen]
    omega
  have hroom := h.room
  have hpages := h.pages
  unfold TsCache.push
  by_cases hfull : held.length + 1 = cachePackets
  · have hsize : cachePackets * 188 ≤ (c.store packet).cacheSize := by
      rw [hs.size, hlen, hfull]
    have hstraight : c.readPtr + cachePage ≤ cachePackets := by
      have hpage := h.page
      have hfront := h.window.front_lt
      unfold cachePage cachePackets at *
      omega
    rw [if_pos ⟨by decide, hsize⟩]
    have hmany : cachePage ≤ (held ++ [packet]).length := by
      rw [hlen, hfull]
      decide
    have hdropped : ((held ++ [packet]).drop cachePage).length = held.length + 1 - cachePage := by
      rw [List.length_drop, hlen]
    refine ⟨_, hs.drain hmany hstraight, ?_, ?_, htotal, ?_⟩
    · rw [hdropped]
      unfold cachePage cachePackets at *
      omega
    · rw [drain_readPtr]
      show wrap (c.readPtr + cachePage) % cachePage = 0
      rw [wrap_eq hstraight]
      have hpage := h.page
      unfold cachePage cachePackets at *
      omega
    · rw [hdropped, hgen]
      show (c.cachePageNum + 1) % 2 ^ 32 * cachePage + (held.length + 1 - cachePage) = _
      unfold cachePage cachePackets at *
      omega
  · have hsize : ¬ cachePackets * 188 ≤ (c.store packet).cacheSize := by
      rw [hs.size, hlen]
      unfold cachePackets at *
      omega
    rw [if_neg fun hboth => hsize hboth.2]
    refine ⟨_, hs, ?_, h.page, htotal, ?_⟩
    · rw [hlen]
      omega
    · rw [hlen, hgen]
      show c.cachePageNum * cachePage + (held.length + 1) = _
      omega

theorem Filed.pushAll (packets : List α) (h : c.Filed generated held)
    (hlt : generated.length + packets.length < 2 ^ 32) :
    ∃ held', (c.pushAll .tsFile packets).Filed (generated ++ packets) held' := by
  induction packets generalizing c generated held with
  | nil =>
    rw [List.append_nil]
    exact ⟨held, h⟩
  | cons p ps ih =>
    rw [List.length_cons] at hlt
    obtain ⟨held', h'⟩ := h.push p (by omega)
    have hlen : (generated ++ [p]).length + ps.length < 2 ^ 32 := by
      rw [List.length_append, List.length_singleton]
      omega
    obtain ⟨held'', h''⟩ := ih h' hlen
    rw [List.append_assoc, List.singleton_append] at h''
    exact ⟨held'', h''⟩

/-- **The loop of the trailer** writes what the ring holds, by induction on it. -/
theorem trailerLoop_eq (fuel : Nat) (i : UInt32) (c : TsCache α) (held : List α)
    (hw : Window cachePackets c.slots (wrap c.readPtr) held) (hptr : c.readPtr ≤ cachePackets)
    (hi : i.toNat + held.length = c.cacheSizeTotal / 188) (hlt : c.cacheSizeTotal / 188 < 2 ^ 32)
    (hfuel : held.length < fuel) :
    ∃ c', trailerLoop fuel i c = some c' ∧ c'.out = c.out ++ held.map some := by
  induction fuel generalizing i c held with
  | zero => omega
  | succ fuel ih =>
    unfold trailerLoop
    cases held with
    | nil =>
      rw [List.length_nil] at hi
      rw [if_neg (by omega)]
      exact ⟨c, rfl, by simp⟩
    | cons a rest =>
      rw [List.length_cons] at hi hfuel
      rw [if_pos (by omega)]
      have hfront := hw.front_lt
      have hread : c.read (wrap c.readPtr) 1 = [some a] := by
        rw [read_eq hfront]
        exact hw.read (l := a :: rest) (Nat.succ_le_succ (Nat.zero_le _)) hfront
      have hnext : (i + 1).toNat = i.toNat + 1 := by
        rw [UInt32.toNat_add]
        exact Nat.mod_eq_of_lt (by show i.toNat + 1 < _; omega)
      have hw' := hw.drop 1
      rw [← wrap_eq hfront] at hw'
      obtain ⟨c', hc', hout⟩ := ih (i + 1)
        { c with out := c.out ++ c.read (wrap c.readPtr) 1, readPtr := wrap c.readPtr + 1 } rest
        hw' hfront (by rw [hnext]; show i.toNat + 1 + rest.length = c.cacheSizeTotal / 188; omega)
        hlt (by omega)
      refine ⟨c', hc', ?_⟩
      rw [hout]
      show c.out ++ c.read (wrap c.readPtr) 1 ++ rest.map some = _
      rw [hread, List.append_assoc]
      rfl

/-- **The trailer of a file** hands over the rest. -/
theorem Filed.writeTrailer (h : c.Filed generated held) (hlt : generated.length < 2 ^ 32) :
    ∃ c', c.writeTrailer .tsFile = some c' ∧ c'.out = generated.map some := by
  have htotal : c.cacheSizeTotal / 188 = generated.length := by
    rw [h.total]
    exact Nat.mul_div_cancel _ (by decide)
  have hfront := h.window.front_lt
  have hpages := h.pages
  have hw : Window cachePackets c.slots (wrap c.readPtr) held := by
    rw [wrap_eq (Nat.le_of_lt hfront), Nat.mod_eq_of_lt hfront]
    exact h.window
  have hstart : (UInt32.ofNat (c.cachePageNum * 128)).toNat = c.cachePageNum * 128 :=
    UInt32.toNat_ofNat_of_lt' (by show _ < 2 ^ 32; unfold cachePage at hpages; omega)
  obtain ⟨c', hc', hout⟩ := trailerLoop_eq (c.cacheSizeTotal / 188 + 1)
    (UInt32.ofNat (c.cachePageNum * 128)) c held hw (Nat.le_of_lt hfront)
    (by rw [hstart, htotal]; exact hpages) (by rw [htotal]; exact hlt)
    (by rw [htotal, ← hpages]; omega)
  refine ⟨c'.reset, ?_, ?_⟩
  · unfold TsCache.writeTrailer
    rw [if_neg (by decide), hc', Option.map_some]
  · show c'.out = _
    rw [hout, h.order]

/-! ### A call that does not fit -/

theorem pushAll_callback_size (packets : List α) (c : TsCache α) (hc : c.cacheSize < 2 ^ 32) :
    (c.pushAll .callbackBuffer packets).cacheSize =
      (c.cacheSize + packets.length * 188) % 2 ^ 32 := by
  induction packets generalizing c with
  | nil => exact (Nat.mod_eq_of_lt hc).symm
  | cons p ps ih =>
    have hstore : (c.store p).cacheSize < 2 ^ 32 := Nat.mod_lt _ (by decide)
    show (pushAll _ (c.push _ p) ps).cacheSize = _
    rw [push_callback, ih _ hstore, List.length_cons]
    show ((c.cacheSize + 188) % 2 ^ 32 + ps.length * 188) % 2 ^ 32 = _
    omega

/-- **More than the ring holds**: the callback is handed bytes from behind its end. -/
theorem none_mem_flush {packets : List α} (hempty : c.cacheSize = 0)
    (hmany : cachePackets < packets.length) (hsmall : packets.length * 188 < 2 ^ 32) :
    none ∈ (c.pushAll .callbackBuffer packets).flush.out := by
  have hsize := pushAll_callback_size packets c (by rw [hempty]; decide)
  rw [hempty, Nat.zero_add, Nat.mod_eq_of_lt hsmall] at hsize
  refine List.mem_append_right _ (List.mem_map.mpr ⟨cachePackets, ?_, ?_⟩)
  · rw [hsize, Nat.mul_div_cancel _ (by decide), List.mem_range]
    exact hmany
  · rw [if_neg]
    exact Nat.not_lt.mpr (Nat.le_add_left _ _)

end TsCache

end Maixii.Muxer
