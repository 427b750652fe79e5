import Mathlib.Data.Fin.VecNotation
import Mathlib.Data.List.FinRange
import Mathlib.Logic.Function.Basic
import Maixii.Lib.Machine
import Maixii.Lib.Regions

/-!
# `Net/MemoryManager.lean`: the memory pools

Three pools of blocks, each with a list of those that are free, and the heap for what is too large
or finds its pool empty. In front of the memory of a block is its header, a `MemoryBlock`: it says
which pool the block is from, and threads it into the list while it is free.

A pool has a mutex, and what is done under it is one step here; so is a call of `malloc` or `free`. A
call of `Alloc` that has found no block in a pool, and one of `Free` that has read the header and not
yet done what it says, are in `pending` meanwhile. `malloc` answers what it likes, as long as it is
memory that nobody has; where it answers `nullptr` the program goes no further, for the header is
written there.
-/

set_option autoImplicit false

namespace Maixii.Net

open Maixii.Lib

/-! ## The pools -/

/-- What the program is built for. -/
inductive Target
  | bits32
  | bits64
  deriving DecidableEq

namespace Target

/-- How many values a `size_t` has. -/
def sizeT : Target → Nat
  | bits32 => 2 ^ 32
  | bits64 => 2 ^ 64

/-- `sizeof(MemoryBlock)`. -/
def sizeofMemoryBlock : Target → Nat
  | bits32 => 12
  | bits64 => 24

end Target

/-- `kMaxMemoryPool`. -/
abbrev PoolId := Fin 3

/-- `MemoryBlock`. A pool is known by its index, and `next` is an address; 0 is `nullptr`. -/
structure MemoryBlock where
  block_id : UInt32
  pool : Option PoolId
  next : Nat
  deriving DecidableEq

/-- The header at an address. -/
abbrev Memory := Nat → MemoryBlock

/-- `MemoryPool`. -/
structure MemoryPool where
  memory_ : Nat
  block_size_ : Nat
  num_blocks_ : Nat
  head_ : Nat

/-- The loop of `MemoryPool::Init`: the headers from number `n` on. -/
def initBlocks (pool : PoolId) (memory_ stride : Nat) : Nat → Nat → Nat → Memory → Memory
  | 0, _, _, mem => mem
  | k + 1, n, current, mem =>
      let next := memory_ + n * stride
      let mem := Function.update mem next ⟨UInt32.ofNat (n + 1), some pool, 0⟩
      let mem := Function.update mem current { mem current with next := next }
      initBlocks pool memory_ stride k (n + 1) next mem

namespace MemoryPool

variable (t : Target)

/-- `Init`, with what `malloc` has answered. -/
def init (pool : PoolId) (size n memory_ : Nat) (mem : Memory) : MemoryPool × Memory :=
  let mem := Function.update mem memory_ ⟨1, some pool, 0⟩
  (⟨memory_, size, n, memory_⟩,
    initBlocks pool memory_ (size + t.sizeofMemoryBlock) (n - 1) 1 memory_ mem)

/-- `Alloc`. -/
def alloc (p : MemoryPool) (mem : Memory) : Option Nat × MemoryPool :=
  if p.head_ ≠ 0 then (some (p.head_ + t.sizeofMemoryBlock), { p with head_ := (mem p.head_).next })
  else (none, p)

/-- `Free`. -/
def free (p : MemoryPool) (mem : Memory) (ptr : Nat) : MemoryPool × Memory :=
  let block := ptr - t.sizeofMemoryBlock
  if (mem block).block_id ≠ 0 then
    ({ p with head_ := block }, Function.update mem block { mem block with next := p.head_ })
  else (p, mem)

/-- How far its blocks are apart. -/
def stride (p : MemoryPool) : Nat := p.block_size_ + t.sizeofMemoryBlock

/-- Its blocks. -/
def blocks (p : MemoryPool) : List Nat :=
  (List.range p.num_blocks_).map fun k => p.memory_ + k * p.stride t

/-- Its memory. -/
def region (p : MemoryPool) : Region := (p.memory_, p.num_blocks_ * p.stride t)

end MemoryPool

/-! ## The manager -/

/-- What `Alloc` has given: the pointer, the size that was asked for, the pool the block is from, if
it is from one, and how long the block is with its header. -/
structure Block where
  ptr : Nat
  size : UInt32
  origin : Option PoolId
  given : Nat
  deriving DecidableEq

/-- A call that is between two steps: `malloc` is to be called, or a block is to be given back as its
header has said. -/
inductive Pending
  | malloc (size : UInt32)
  | free (b : Block) (pool : Option PoolId) (block_id : UInt32)
  deriving DecidableEq

/-- The block it gives back. -/
def Pending.held : Pending → Option Block
  | .malloc _ => none
  | .free b _ _ => some b

/-- The pools and the headers; the blocks that are allocated; and the calls that are not over. -/
structure Manager where
  pools : PoolId → MemoryPool
  mem : Memory
  live : List Block
  pending : List Pending

/-- A step. What is freed is a block that is allocated; and what is not there does nothing. -/
inductive MemoryStep
  | alloc (size : UInt32)
  /-- `malloc` answers a pending call. -/
  | malloced (k memory : Nat)
  /-- A call of `Free`, which reads the header. -/
  | free (k : Nat)
  /-- It does what the header says. -/
  | freed (k : Nat)
  deriving DecidableEq

/-- The sizes of the pools, and how many blocks they have. -/
def poolSize : PoolId → Nat := ![4096, 40960, 102400]

def poolCount : PoolId → Nat := ![50, 10, 5]

namespace Manager

variable (t : Target)

/-- `MemoryManager`, with what `malloc` has answered. -/
def init (memory : PoolId → Nat) (mem : Memory) : Manager :=
  let (p₀, mem) := MemoryPool.init t 0 (poolSize 0) (poolCount 0) (memory 0) mem
  let (p₁, mem) := MemoryPool.init t 1 (poolSize 1) (poolCount 1) (memory 1) mem
  let (p₂, mem) := MemoryPool.init t 2 (poolSize 2) (poolCount 2) (memory 2) mem
  ⟨![p₀, p₁, p₂], mem, [], []⟩

/-- The blocks on their way back. -/
def freeing (w : Manager) : List Block := w.pending.filterMap Pending.held

/-- The blocks that are not back yet. -/
def out (w : Manager) : List Block := w.live ++ w.freeing

end Manager

namespace Block

variable (t : Target)

/-- Where its header is. -/
def block (b : Block) : Nat := b.ptr - t.sizeofMemoryBlock

/-- The header and what was asked for. -/
def used (b : Block) : Region := (b.block t, t.sizeofMemoryBlock + b.size.toNat)

/-- What has been given. -/
def region (b : Block) : Region := (b.block t, b.given)

end Block

namespace Manager

variable (t : Target)

/-- What `malloc` has given and not got back. -/
def regions (w : Manager) : List Region :=
  (List.finRange 3).map (fun i => (w.pools i).region t) ++
    (w.out.filter fun b => b.origin = none).map (Block.region t)

/-- `malloc` may answer this. -/
def Grants (w : Manager) (memory n : Nat) : Prop :=
  memory ≠ 0 ∧ ∀ r ∈ w.regions t, Apart (memory, n) r

instance (w : Manager) (memory n : Nat) : Decidable (w.Grants t memory n) :=
  inferInstanceAs (Decidable (memory ≠ 0 ∧ ∀ r ∈ w.regions t, Apart (memory, n) r))

/-- The pool `Alloc` tries: the first whose blocks are large enough. -/
def poolFor (w : Manager) (size : UInt32) : Option PoolId :=
  (List.finRange 3).find? fun n => size.toNat ≤ (w.pools n).block_size_

/-- A step of `MemoryManager::Alloc` or `MemoryManager::Free`. -/
def step (w : Manager) : MemoryStep → Manager
  | .alloc size =>
      match w.poolFor size with
      | some n =>
          match (w.pools n).alloc t w.mem with
          | (some ptr, p) =>
              { w with
                pools := Function.update w.pools n p
                live := w.live ++ [⟨ptr, size, some n, p.stride t⟩] }
          | (none, p) =>
              { w with
                pools := Function.update w.pools n p
                pending := w.pending ++ [.malloc size] }
      | none => { w with pending := w.pending ++ [.malloc size] }
  | .malloced k memory =>
      match w.pending[k]? with
      | some (.malloc size) =>
          -- The sum is a `size_t`.
          let n := (size.toNat + t.sizeofMemoryBlock) % t.sizeT
          if w.Grants t memory n then
            { w with
              mem := Function.update w.mem memory ⟨0, none, 0⟩
              live := w.live ++ [⟨memory + t.sizeofMemoryBlock, size, none, n⟩]
              pending := w.pending.eraseIdx k }
          else w
      | _ => w
  | .free k =>
      match w.live[k]? with
      | some b =>
          { w with
            live := w.live.eraseIdx k
            pending := w.pending ++
              [.free b (w.mem (b.block t)).pool (w.mem (b.block t)).block_id] }
      | none => w
  | .freed k =>
      match w.pending[k]? with
      | some (.free b (some i) block_id) =>
          if 0 < block_id then
            let (p, mem) := (w.pools i).free t w.mem b.ptr
            { w with
              pools := Function.update w.pools i p
              mem := mem
              pending := w.pending.eraseIdx k }
          else { w with pending := w.pending.eraseIdx k }
      | some (.free _ none _) => { w with pending := w.pending.eraseIdx k }
      | _ => w

/-- Where `malloc` has put the pools: nowhere is `nullptr`, and they are apart. -/
def Granted (memory : PoolId → Nat) : Prop :=
  ∀ i, memory i ≠ 0 ∧ ∀ j, i ≠ j →
    Apart (memory i, poolCount i * (poolSize i + t.sizeofMemoryBlock))
      (memory j, poolCount j * (poolSize j + t.sizeofMemoryBlock))

/-- The steps as a machine. -/
def next (w : Manager) (s : MemoryStep) : Unit × Manager := ((), w.step t s)

/-- The blocks of a pool that are not back yet. -/
def outOf (w : Manager) (i : PoolId) : List Nat :=
  (w.out.filter fun b => b.origin = some i).map (Block.block t)

/-- Where `Free` gives a block back: to a pool, or to the heap. -/
def goesTo (pool : Option PoolId) (block_id : UInt32) : Option PoolId :=
  if 0 < block_id then pool else none

/-- **The memory is shared out.** A block is as large as was asked for, and apart from all others,
headers included; the free list of a pool ends, and with the blocks that are not back yet it is all
blocks of the pool, each once; and a block goes back to where it came from. -/
structure Sound (w : Manager) : Prop where
  large : ∀ b ∈ w.out, t.sizeofMemoryBlock + b.size.toNat ≤ b.given
  disjoint : w.out.Pairwise fun b c => Apart (b.used t) (c.used t)
  headers : ∀ b ∈ w.out, ∀ i, ∀ a ∈ (w.pools i).blocks t, a ≠ b.block t →
    Apart (b.used t) (a, t.sizeofMemoryBlock)
  pools : ∀ i, ∃ free, Threaded (fun a => (w.mem a).next) 0 (w.pools i).head_ free ∧
    free.Nodup ∧ (free ++ w.outOf t i).Perm ((w.pools i).blocks t)
  live : ∀ b ∈ w.live, goesTo (w.mem (b.block t)).pool (w.mem (b.block t)).block_id = b.origin
  freeing : ∀ b pool block_id, .free b pool block_id ∈ w.pending → goesTo pool block_id = b.origin

end Manager

end Maixii.Net
