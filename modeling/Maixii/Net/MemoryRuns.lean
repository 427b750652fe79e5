import Mathlib.Data.List.Perm.Basic
import Maixii.Net.MemoryManager

/-!
# `Net/MemoryRuns.lean`: the memory is shared out

What the pools and the headers say is about the blocks that are not back yet, in any order, whoever
has them (`Shared`). Four lemmas say what is done to that: a block is taken from a pool or from
`malloc`, and goes back to its pool or to the heap. They are all a step can do.

A size that is added to the size of a header may be too large for a `size_t` of 32 bits. **The memory
is shared out if and only if `malloc` is never called for such a size** (`memory_is_shared_out`).
-/

set_option autoImplicit false

namespace Maixii.Net

open Maixii.Lib

/-! ## Blocks of a pool -/

namespace MemoryPool

variable {t : Target} {p : MemoryPool} {a b : Nat}

theorem stride_pos : 0 < p.stride t :=
  Nat.lt_of_lt_of_le (by cases t <;> decide) (Nat.le_add_left t.sizeofMemoryBlock p.block_size_)

theorem header_le_stride : t.sizeofMemoryBlock ≤ p.stride t := Nat.le_add_left _ _

theorem mem_blocks : a ∈ p.blocks t ↔ ∃ k < p.num_blocks_, p.memory_ + k * p.stride t = a := by
  unfold blocks
  rw [List.mem_map]
  simp only [List.mem_range]

theorem nodup_blocks : (p.blocks t).Nodup := by
  apply List.Nodup.map _ List.nodup_range
  intro i k heq
  exact Nat.eq_of_mul_eq_mul_right stride_pos (Nat.add_left_cancel heq)

theorem within_region (ha : a ∈ p.blocks t) : Within (a, p.stride t) (p.region t) := by
  obtain ⟨k, hk, rfl⟩ := mem_blocks.mp ha
  exact within_array hk

theorem apart_blocks (ha : a ∈ p.blocks t) (hb : b ∈ p.blocks t) (hne : a ≠ b) :
    Apart (a, p.stride t) (b, p.stride t) := by
  obtain ⟨i, -, rfl⟩ := mem_blocks.mp ha
  obtain ⟨k, -, rfl⟩ := mem_blocks.mp hb
  exact apart_array fun heq => hne (by rw [heq])

theorem ne_zero (hmemory : p.memory_ ≠ 0) (ha : a ∈ p.blocks t) : a ≠ 0 := by
  obtain ⟨k, -, rfl⟩ := mem_blocks.mp ha
  omega

end MemoryPool

/-! ## The blocks that are not back yet -/

/-- Those of a pool. -/
def ofPool (t : Target) (out : List Block) (i : PoolId) : List Nat :=
  (out.filter fun b => b.origin = some i).map (Block.block t)

section

variable {t : Target} {out out' : List Block} {b c : Block} {i : PoolId}

theorem ofPool_cons_self (hb : b.origin = some i) :
    ofPool t (b :: out) i = b.block t :: ofPool t out i := by
  unfold ofPool
  rw [List.filter_cons_of_pos (by simpa using hb), List.map_cons]

theorem ofPool_cons_ne (hb : b.origin ≠ some i) : ofPool t (b :: out) i = ofPool t out i := by
  unfold ofPool
  rw [List.filter_cons_of_neg (by simpa using hb)]

theorem mem_ofPool (hc : c ∈ out) (ho : c.origin = some i) : c.block t ∈ ofPool t out i :=
  List.mem_map_of_mem (List.mem_filter.mpr ⟨hc, decide_eq_true ho⟩)

theorem ofPool_perm (h : out.Perm out') (i : PoolId) : (ofPool t out i).Perm (ofPool t out' i) :=
  (h.filter _).map _

end

/-- **How the memory is shared out** between the free lists, which begin at `heads`, and the blocks
that are not back yet. -/
structure Shared (t : Target) (pools : PoolId → MemoryPool) (heads : PoolId → Nat) (mem : Memory)
    (out : List Block) : Prop where
  nonnull : ∀ i, (pools i).memory_ ≠ 0
  regions : ∀ i j, i ≠ j → Apart ((pools i).region t) ((pools j).region t)
  headers : ∀ i, ∀ a ∈ (pools i).blocks t, (mem a).pool = some i ∧ (mem a).block_id ≠ 0
  lists : ∀ i, ∃ free, Threaded (fun a => (mem a).next) 0 (heads i) free ∧
    (free ++ ofPool t out i).Perm ((pools i).blocks t)
  large : ∀ b ∈ out, t.sizeofMemoryBlock + b.size.toNat ≤ b.given
  given : ∀ b ∈ out, ∀ i, b.origin = some i → b.given = (pools i).stride t
  heap : ∀ b ∈ out, b.origin = none → (mem (b.block t)).pool = none ∧
    (mem (b.block t)).block_id = 0 ∧ ∀ i, Apart (b.region t) ((pools i).region t)
  apart : out.Pairwise fun b c => Apart (b.region t) (c.region t)

namespace Shared

variable {t : Target} {pools : PoolId → MemoryPool} {heads : PoolId → Nat} {mem : Memory}
  {out out' : List Block} {b c : Block} {i : PoolId} {a memory n : Nat} {size : UInt32}

/-- It does not matter who has them. -/
theorem perm (h : Shared t pools heads mem out) (hp : out.Perm out') :
    Shared t pools heads mem out' where
  nonnull := h.nonnull
  regions := h.regions
  headers := h.headers
  lists i := by
    obtain ⟨free, hlist, hall⟩ := h.lists i
    exact ⟨free, hlist, ((ofPool_perm hp i).symm.append_left free).trans hall⟩
  large b hb := h.large b (hp.mem_iff.mpr hb)
  given b hb := h.given b (hp.mem_iff.mpr hb)
  heap b hb := h.heap b (hp.mem_iff.mpr hb)
  apart := (hp.pairwise_iff fun hbc => hbc.symm).mp h.apart

theorem mem_blocks (h : Shared t pools heads mem out) (hc : c ∈ out) (ho : c.origin = some i) :
    c.block t ∈ (pools i).blocks t := by
  obtain ⟨free, -, hall⟩ := h.lists i
  exact hall.mem_iff.mp (List.mem_append_right _ (mem_ofPool hc ho))

theorem given_pos (h : Shared t pools heads mem out) (hc : c ∈ out) : 0 < c.given :=
  Nat.lt_of_lt_of_le (by cases t <;> decide)
    (Nat.le_trans (Nat.le_add_right t.sizeofMemoryBlock c.size.toNat) (h.large c hc))

/-- **A block of a pool is apart from every other that is not back yet.** -/
theorem apart_out (h : Shared t pools heads mem out) (ha : a ∈ (pools i).blocks t) (hc : c ∈ out)
    (hne : a ≠ c.block t) : Apart (a, (pools i).stride t) (c.region t) := by
  cases ho : c.origin with
  | none =>
    obtain ⟨-, -, hapart⟩ := h.heap c hc ho
    exact (hapart i).symm.mono (MemoryPool.within_region ha) (Within.refl _)
  | some j =>
    have hin := h.mem_blocks hc ho
    have hregion : c.region t = (c.block t, (pools j).stride t) := by
      rw [Block.region, h.given c hc j ho]
    rw [hregion]
    by_cases hij : i = j
    · subst hij
      exact MemoryPool.apart_blocks ha hin hne
    · exact (h.regions i j hij).mono (MemoryPool.within_region ha) (MemoryPool.within_region hin)

/-- What has been given is in what `malloc` has given. -/
theorem apart_of_regions (h : Shared t pools heads mem out) (hc : c ∈ out) {r : Region}
    (hpools : ∀ i, Apart r ((pools i).region t))
    (hheap : c.origin = none → Apart r (c.region t)) : Apart r (c.region t) := by
  cases ho : c.origin with
  | none => exact hheap ho
  | some j =>
    have hregion : c.region t = (c.block t, (pools j).stride t) := by
      rw [Block.region, h.given c hc j ho]
    rw [hregion]
    exact (hpools j).mono (Within.refl _) (MemoryPool.within_region (h.mem_blocks hc ho))

/-- **A block is taken from a pool.** -/
theorem take (h : Shared t pools heads mem out) (hne : heads i ≠ 0)
    (hsize : size.toNat ≤ (pools i).block_size_) :
    Shared t pools (Function.update heads i (mem (heads i)).next) mem
      (⟨heads i + t.sizeofMemoryBlock, size, some i, (pools i).stride t⟩ :: out) := by
  obtain ⟨free, hlist, hall⟩ := h.lists i
  obtain ⟨rest, rfl, hrest⟩ := hlist.pop hne
  obtain ⟨b, hb⟩ : ∃ b : Block,
    ⟨heads i + t.sizeofMemoryBlock, size, some i, (pools i).stride t⟩ = b := ⟨_, rfl⟩
  have hblock : b.block t = heads i := by
    rw [← hb]
    exact Nat.add_sub_cancel _ _
  have horigin : b.origin = some i := by rw [← hb]
  have hgiven : b.given = (pools i).stride t := by rw [← hb]
  have hbsize : b.size = size := by rw [← hb]
  have hhead : heads i ∈ (pools i).blocks t :=
    hall.mem_iff.mp (List.mem_append_left _ List.mem_cons_self)
  rw [hb]
  refine ⟨h.nonnull, h.regions, h.headers, ?_, ?_, ?_, ?_, ?_⟩
  · intro j
    by_cases hj : j = i
    · subst hj
      rw [Function.update_self, ofPool_cons_self horigin, hblock]
      exact ⟨rest, hrest, List.perm_middle.trans hall⟩
    · rw [Function.update_of_ne hj, ofPool_cons_ne (by rw [horigin]; simpa using Ne.symm hj)]
      exact h.lists j
  · rw [List.forall_mem_cons]
    refine ⟨?_, h.large⟩
    rw [hgiven, hbsize, MemoryPool.stride]
    omega
  · rw [List.forall_mem_cons]
    refine ⟨?_, h.given⟩
    intro j hj
    rw [horigin] at hj
    rw [hgiven, Option.some.inj hj]
  · rw [List.forall_mem_cons]
    exact ⟨fun hnone => absurd (horigin.symm.trans hnone) nofun, h.heap⟩
  · rw [List.pairwise_cons]
    refine ⟨fun c hc => ?_, h.apart⟩
    rw [Block.region, hblock, hgiven]
    by_cases heq : heads i = c.block t
    · -- A block that is not back yet is not in a free list, and a block of the heap in no pool.
      exfalso
      cases ho : c.origin with
      | none =>
        obtain ⟨-, -, hapart⟩ := h.heap c hc ho
        have hwithin := MemoryPool.within_region hhead
        have hstart := (((hapart i).symm.mono hwithin (Within.refl _))).start_ne
          MemoryPool.stride_pos (h.given_pos hc)
        exact hstart heq
      | some j =>
        have hin := h.mem_blocks hc ho
        rw [← heq] at hin
        have hsame : j = i := by
          have hj := (h.headers j _ hin).1
          rw [(h.headers i _ hhead).1] at hj
          exact (Option.some.inj hj).symm
        subst hsame
        have hnodup := hall.nodup_iff.mpr MemoryPool.nodup_blocks
        have hout := mem_ofPool (t := t) hc ho
        rw [← heq] at hout
        rw [List.cons_append, List.nodup_cons] at hnodup
        exact hnodup.1 (List.mem_append_right _ hout)
    · exact h.apart_out hhead hc heq

/-- **A block is taken from `malloc`.** -/
theorem grant (h : Shared t pools heads mem out) (hn : t.sizeofMemoryBlock + size.toNat ≤ n)
    (hpools : ∀ j, Apart (memory, n) ((pools j).region t))
    (hheap : ∀ c ∈ out, c.origin = none → Apart (memory, n) (c.region t)) :
    Shared t pools heads (Function.update mem memory ⟨0, none, 0⟩)
      (⟨memory + t.sizeofMemoryBlock, size, none, n⟩ :: out) := by
  have hpos : 0 < n := Nat.lt_of_lt_of_le (by cases t <;> decide)
    (Nat.le_trans (Nat.le_add_right t.sizeofMemoryBlock size.toNat) hn)
  have hblock : (⟨memory + t.sizeofMemoryBlock, size, none, n⟩ : Block).block t = memory :=
    Nat.add_sub_cancel _ _
  have hapart : ∀ c ∈ out, Apart (memory, n) (c.region t) := fun c hc =>
    h.apart_of_regions hc hpools (hheap c hc)
  -- The header is written nowhere else.
  have hblocks : ∀ j, ∀ a ∈ (pools j).blocks t, a ≠ memory := by
    intro j a ha heq
    have hstart := ((hpools j).mono (Within.refl _) (MemoryPool.within_region ha)).start_ne hpos
      MemoryPool.stride_pos
    exact hstart heq.symm
  have hout : ∀ c ∈ out, c.block t ≠ memory := by
    intro c hc heq
    exact (hapart c hc).start_ne hpos (h.given_pos hc) heq.symm
  refine ⟨h.nonnull, h.regions, ?_, ?_, ?_, ?_, ?_, ?_⟩
  · intro j a ha
    rw [Function.update_of_ne (hblocks j a ha)]
    exact h.headers j a ha
  · intro j
    obtain ⟨free, hlist, hall⟩ := h.lists j
    rw [ofPool_cons_ne (by exact nofun)]
    refine ⟨free, hlist.congr fun a ha => ?_, hall⟩
    rw [Function.update_of_ne (hblocks j a (hall.mem_iff.mp (List.mem_append_left _ ha)))]
  · rw [List.forall_mem_cons]
    exact ⟨hn, h.large⟩
  · rw [List.forall_mem_cons]
    exact ⟨fun j hj => absurd hj nofun, h.given⟩
  · rw [List.forall_mem_cons, hblock, Function.update_self]
    refine ⟨fun _ => ⟨rfl, rfl, fun j => ?_⟩, fun c hc ho => ?_⟩
    · rw [Block.region, hblock]
      exact hpools j
    · rw [Function.update_of_ne (hout c hc)]
      exact h.heap c hc ho
  · rw [List.pairwise_cons]
    refine ⟨fun c hc => ?_, h.apart⟩
    rw [Block.region, hblock]
    exact hapart c hc

/-- **A block goes back to its pool.** -/
theorem give (h : Shared t pools heads mem (b :: out)) (ho : b.origin = some i) :
    Shared t pools (Function.update heads i (b.block t))
      (Function.update mem (b.block t) { mem (b.block t) with next := heads i }) out := by
  obtain ⟨free, hlist, hall⟩ := h.lists i
  have hb := h.mem_blocks List.mem_cons_self ho
  have htag : ∀ a,
      (Function.update mem (b.block t) { mem (b.block t) with next := heads i } a).pool =
        (mem a).pool ∧
      (Function.update mem (b.block t) { mem (b.block t) with next := heads i } a).block_id =
        (mem a).block_id := by
    intro a
    by_cases ha : a = b.block t
    · subst ha
      rw [Function.update_self]
      exact ⟨rfl, rfl⟩
    · rw [Function.update_of_ne ha]
      exact ⟨rfl, rfl⟩
  rw [ofPool_cons_self ho] at hall
  have hnodup := hall.nodup_iff.mpr MemoryPool.nodup_blocks
  have hnot : b.block t ∉ free := by
    intro hmem
    exact (List.nodup_append.mp hnodup).2.2 _ hmem _ List.mem_cons_self rfl
  refine ⟨h.nonnull, h.regions, ?_, ?_, fun c hc => h.large c (List.mem_cons_of_mem _ hc),
    fun c hc => h.given c (List.mem_cons_of_mem _ hc), ?_, (List.pairwise_cons.mp h.apart).2⟩
  · intro j a ha
    rw [(htag a).1, (htag a).2]
    exact h.headers j a ha
  · intro j
    by_cases hj : j = i
    · subst hj
      rw [Function.update_self]
      refine ⟨b.block t :: free, hlist.push (MemoryPool.ne_zero (h.nonnull _) hb) ?_ ?_,
        List.perm_middle.symm.trans hall⟩
      · rw [Function.update_self]
      · intro a ha
        rw [Function.update_of_ne (by rintro rfl; exact hnot ha)]
    · obtain ⟨free, hlist, hall⟩ := h.lists j
      rw [ofPool_cons_ne (by rw [ho]; simpa using Ne.symm hj)] at hall
      rw [Function.update_of_ne hj]
      refine ⟨free, hlist.congr fun a ha => ?_, hall⟩
      rw [Function.update_of_ne]
      rintro rfl
      -- A block is in one pool only.
      have hin := hall.mem_iff.mp (List.mem_append_left _ ha)
      have hsame := (h.headers j _ hin).1
      rw [(h.headers i _ hb).1] at hsame
      exact hj (Option.some.inj hsame).symm
  · intro c hc hnone
    rw [(htag _).1, (htag _).2]
    exact h.heap c (List.mem_cons_of_mem _ hc) hnone

/-- **A block goes back to the heap.** -/
theorem drop (h : Shared t pools heads mem (b :: out)) (ho : b.origin = none) :
    Shared t pools heads mem out where
  nonnull := h.nonnull
  regions := h.regions
  headers := h.headers
  lists j := by
    obtain ⟨free, hlist, hall⟩ := h.lists j
    rw [ofPool_cons_ne (by rw [ho]; exact nofun)] at hall
    exact ⟨free, hlist, hall⟩
  large c hc := h.large c (List.mem_cons_of_mem _ hc)
  given c hc := h.given c (List.mem_cons_of_mem _ hc)
  heap c hc := h.heap c (List.mem_cons_of_mem _ hc)
  apart := (List.pairwise_cons.mp h.apart).2

/-- The heads of the lists are what `heads` says, and nothing else is said of them. -/
theorem heads_eq (h : Shared t pools heads mem out) (g : PoolId → Nat) :
    Shared t (fun i => { pools i with head_ := g i }) heads mem out :=
  ⟨h.nonnull, h.regions, h.headers, h.lists, h.large, h.given, h.heap, h.apart⟩

end Shared

/-! ## Steps -/

namespace Manager

variable {t : Target} {w : Manager}

/-- The heads of the free lists. -/
def heads (w : Manager) (i : PoolId) : Nat := (w.pools i).head_

theorem update_pool (w : Manager) (i : PoolId) (a : Nat) :
    Function.update w.pools i { w.pools i with head_ := a } =
      fun j => { w.pools j with head_ := Function.update w.heads i a j } := by
  funext j
  by_cases hj : j = i
  · subst hj
    rw [Function.update_self, Function.update_self]
  · rw [Function.update_of_ne hj, Function.update_of_ne hj]
    rfl

/-- **What is kept**: the memory is shared out, and who has read a header knows what it says. -/
structure Kept (t : Target) (w : Manager) : Prop where
  shared : Shared t w.pools w.heads w.mem w.out
  freeing : ∀ b pool block_id, .free b pool block_id ∈ w.pending →
    pool = (w.mem (b.block t)).pool ∧ block_id = (w.mem (b.block t)).block_id

/-- **`malloc` gives nothing for a size that is too large with its header.** -/
def Keeps (t : Target) (w : Manager) (s : MemoryStep) : Prop :=
  ∀ k memory size, s = .malloced k memory → w.pending[k]? = some (.malloc size) →
    w.Grants t memory ((size.toNat + t.sizeofMemoryBlock) % t.sizeT) →
    size.toNat + t.sizeofMemoryBlock < t.sizeT

theorem poolFor_le {size : UInt32} {i : PoolId} (h : w.poolFor size = some i) :
    size.toNat ≤ (w.pools i).block_size_ := by
  unfold poolFor at h
  simpa using List.find?_some h

/-- Who is freeing has the block. -/
theorem mem_freeing {b : Block} {pool : Option PoolId} {block_id : UInt32}
    (h : .free b pool block_id ∈ w.pending) : b ∈ w.freeing :=
  List.mem_filterMap.mpr ⟨_, h, rfl⟩

theorem Kept.alloc (h : w.Kept t) (size : UInt32) : (w.step t (.alloc size)).Kept t := by
  -- Nothing is out that was not, where `malloc` is to be called.
  have hmalloc : ∀ pools, Shared t pools (fun i => (pools i).head_) w.mem w.out →
      Kept t { w with pools := pools, pending := w.pending ++ [.malloc size] } := by
    intro pools hshared
    refine ⟨?_, ?_⟩
    · have hout : out { w with pools := pools, pending := w.pending ++ [.malloc size] } =
          w.out := by
        unfold out Manager.freeing
        dsimp only
        rw [List.filterMap_append]
        exact congrArg (w.live ++ ·) (List.append_nil _)
      rw [hout]
      exact hshared
    · intro b pool block_id hmem
      rcases List.mem_append.mp hmem with hmem | hmem
      · exact h.freeing b pool block_id hmem
      · exact absurd (List.mem_singleton.mp hmem) nofun
  unfold step
  dsimp only
  cases hpool : w.poolFor size with
  | none => exact hmalloc w.pools h.shared
  | some i =>
    dsimp only
    unfold MemoryPool.alloc
    by_cases hhead : (w.pools i).head_ ≠ 0
    · rw [if_pos hhead]
      dsimp only
      rw [update_pool]
      refine ⟨?_, h.freeing⟩
      refine ((h.shared.take hhead (poolFor_le hpool)).heads_eq _).perm ?_
      unfold out
      dsimp only
      rw [List.append_assoc]
      exact List.perm_middle.symm
    · rw [if_neg hhead]
      dsimp only
      rw [Function.update_eq_self]
      exact hmalloc w.pools h.shared

theorem out_malloced {k : Nat} {size : UInt32} (hk : w.pending[k]? = some (.malloc size))
    (b : Block) (mem : Memory) :
    (out { w with
      mem := mem, live := w.live ++ [b], pending := w.pending.eraseIdx k }).Perm (b :: w.out) := by
  obtain ⟨hlt, hget⟩ := List.getElem?_eq_some_iff.mp hk
  have hperm := (List.getElem_cons_eraseIdx_perm hlt).filterMap Pending.held
  rw [hget] at hperm
  unfold out freeing
  dsimp only
  rw [List.append_assoc]
  exact List.perm_middle.trans ((hperm.append_left w.live).cons b)

theorem Kept.malloced (h : w.Kept t) {k memory : Nat} (hkeeps : w.Keeps t (.malloced k memory)) :
    (w.step t (.malloced k memory)).Kept t := by
  unfold step
  dsimp only
  split
  · rename_i size hk
    by_cases hgrants : w.Grants t memory ((size.toNat + t.sizeofMemoryBlock) % t.sizeT)
    · rw [if_pos hgrants]
      have hfits := hkeeps k memory size rfl hk hgrants
      rw [Nat.mod_eq_of_lt hfits] at hgrants ⊢
      have hregions := hgrants.2
      have hpools : ∀ j, Apart (memory, size.toNat + t.sizeofMemoryBlock) ((w.pools j).region t) :=
        fun j => hregions _ (List.mem_append_left _
          (List.mem_map_of_mem (List.mem_finRange j)))
      have hheap : ∀ c ∈ w.out, c.origin = none →
          Apart (memory, size.toNat + t.sizeofMemoryBlock) (c.region t) := fun c hc ho =>
        hregions _ (List.mem_append_right _
          (List.mem_map_of_mem (List.mem_filter.mpr ⟨hc, decide_eq_true ho⟩)))
      have hgrant := h.shared.grant (Nat.le_of_eq (Nat.add_comm _ _)) hpools hheap
      refine ⟨hgrant.perm (out_malloced hk _ _).symm, ?_⟩
      intro b pool block_id hmem
      have hin := List.mem_of_mem_eraseIdx hmem
      have hb : b ∈ w.out := List.mem_append_right _ (mem_freeing hin)
      have hne : b.block t ≠ memory := by
        intro heq
        refine (h.shared.apart_of_regions hb hpools (hheap b hb)).start_ne ?_
          (h.shared.given_pos hb) heq.symm
        exact Nat.lt_of_lt_of_le (by cases t <;> decide) (Nat.le_add_left t.sizeofMemoryBlock _)
      dsimp only
      rw [Function.update_of_ne hne]
      exact h.freeing b pool block_id hin
    · rw [if_neg hgrants]
      exact h
  · exact h

theorem Kept.free (h : w.Kept t) (k : Nat) : (w.step t (.free k)).Kept t := by
  unfold step
  dsimp only
  split
  · rename_i b hk
    obtain ⟨hlt, hget⟩ := List.getElem?_eq_some_iff.mp hk
    refine ⟨h.shared.perm ?_, ?_⟩
    · have hperm := List.getElem_cons_eraseIdx_perm hlt
      rw [hget] at hperm
      unfold out Manager.freeing
      dsimp only
      rw [List.filterMap_append, ← List.append_assoc]
      have hmoved : (b :: (w.live.eraseIdx k ++ w.freeing)).Perm
          (w.live.eraseIdx k ++ w.freeing ++ [b]) := (List.perm_append_singleton _ _).symm
      exact (hperm.symm.append_right _).trans hmoved
    · intro c pool block_id hmem
      rcases List.mem_append.mp hmem with hmem | hmem
      · exact h.freeing c pool block_id hmem
      · cases List.mem_singleton.mp hmem
        exact ⟨rfl, rfl⟩
  · exact h

theorem out_freed {k : Nat} {b : Block} {pool : Option PoolId} {block_id : UInt32}
    (hk : w.pending[k]? = some (.free b pool block_id)) (pools : PoolId → MemoryPool)
    (mem : Memory) :
    w.out.Perm (b :: out { w with
      pools := pools, mem := mem, pending := w.pending.eraseIdx k }) := by
  obtain ⟨hlt, hget⟩ := List.getElem?_eq_some_iff.mp hk
  have hperm := (List.getElem_cons_eraseIdx_perm hlt).filterMap Pending.held
  rw [hget] at hperm
  unfold out freeing
  dsimp only
  exact (hperm.symm.append_left w.live).trans List.perm_middle

theorem Kept.freed (h : w.Kept t) (k : Nat) : (w.step t (.freed k)).Kept t := by
  -- What the header has said is where the block is from.
  have horigin : ∀ {b pool block_id}, w.pending[k]? = some (.free b pool block_id) →
      (pool = none → b.origin = none) ∧ (∀ i, pool = some i → b.origin = some i ∧ 0 < block_id) := by
    intro b pool block_id hk
    have hmem := List.mem_of_getElem? hk
    obtain ⟨hpool, hid⟩ := h.freeing b pool block_id hmem
    have hb : b ∈ w.out := List.mem_append_right _ (mem_freeing hmem)
    cases ho : b.origin with
    | none =>
      obtain ⟨hnone, -, -⟩ := h.shared.heap b hb ho
      rw [hpool, hnone]
      exact ⟨fun _ => rfl, nofun⟩
    | some j =>
      obtain ⟨hsome, hne⟩ := h.shared.headers j _ (h.shared.mem_blocks hb ho)
      rw [hpool, hsome, hid]
      refine ⟨nofun, fun i hi => ⟨hi, UInt32.pos_iff_ne_zero.mpr hne⟩⟩
  unfold step
  dsimp only
  split
  · rename_i b i block_id hk
    obtain ⟨ho, hid⟩ := (horigin hk).2 i rfl
    have hb : b ∈ w.out := List.mem_append_right _ (mem_freeing (List.mem_of_getElem? hk))
    have hne := (h.shared.headers i _ (h.shared.mem_blocks hb ho)).2
    rw [if_pos hid]
    unfold MemoryPool.free
    rw [Block.block] at hne
    dsimp only
    rw [if_pos hne]
    dsimp only
    rw [update_pool]
    have hgive := ((h.shared.perm (out_freed hk w.pools w.mem)).give ho).heads_eq
      (Function.update w.heads i (b.block t))
    refine ⟨hgive, ?_⟩
    intro c pool id hmem
    obtain ⟨hpool, hid⟩ := h.freeing c pool id (List.mem_of_mem_eraseIdx hmem)
    dsimp only
    rw [hpool, hid]
    by_cases hc : c.block t = b.ptr - t.sizeofMemoryBlock
    · rw [hc, Function.update_self]
      exact ⟨rfl, rfl⟩
    · rw [Function.update_of_ne hc]
      exact ⟨rfl, rfl⟩
  · rename_i b block_id hk
    have ho := (horigin hk).1 rfl
    exact ⟨(h.shared.perm (out_freed hk w.pools w.mem)).drop ho, fun c pool id hmem =>
      h.freeing c pool id (List.mem_of_mem_eraseIdx hmem)⟩
  · exact h

/-- **A step keeps it.** -/
theorem Kept.step (h : w.Kept t) {s : MemoryStep} (hs : w.Keeps t s) : (w.step t s).Kept t := by
  cases s with
  | alloc size => exact h.alloc size
  | malloced k memory => exact h.malloced hs
  | free k => exact h.free k
  | freed k => exact h.freed k

/-- A size that is too large gets too little. -/
theorem not_sound (s : MemoryStep) (hs : ¬ w.Keeps t s) : ¬ (w.step t s).Sound t := by
  unfold Keeps at hs
  push Not at hs
  obtain ⟨k, memory, size, rfl, hk, hgrants, hlarge⟩ := hs
  intro hsound
  have hpos : 0 < t.sizeT := by cases t <;> decide
  have hless := Nat.mod_lt (size.toNat + t.sizeofMemoryBlock) hpos
  have hroom := hsound.large ⟨memory + t.sizeofMemoryBlock, size, none,
    (size.toNat + t.sizeofMemoryBlock) % t.sizeT⟩ (by
      unfold Manager.step
      dsimp only
      rw [hk]
      dsimp only
      rw [if_pos hgrants]
      exact (out_malloced hk _ _).mem_iff.mpr List.mem_cons_self)
  dsimp only at hroom
  omega

/-! ## Runs -/

/-- **What is kept is that the memory is shared out.** -/
theorem Kept.sound (h : w.Kept t) : w.Sound t := by
  have hused : ∀ b ∈ w.out, Within (b.used t) (b.region t) := fun b hb =>
    ⟨Nat.le_refl _, Nat.add_le_add_left (h.shared.large b hb) _⟩
  have horigin : ∀ b ∈ w.out, goesTo (w.mem (b.block t)).pool (w.mem (b.block t)).block_id =
      b.origin := by
    intro b hb
    unfold goesTo
    cases ho : b.origin with
    | none =>
      obtain ⟨-, hid, -⟩ := h.shared.heap b hb ho
      rw [hid]
      rfl
    | some i =>
      obtain ⟨hpool, hid⟩ := h.shared.headers i _ (h.shared.mem_blocks hb ho)
      rw [if_pos (UInt32.pos_iff_ne_zero.mpr hid), hpool]
  constructor
  · exact h.shared.large
  · apply h.shared.apart.imp_of_mem
    intro b c hb hc hapart
    exact hapart.mono (hused b hb) (hused c hc)
  · intro b hb i a ha hne
    refine ((h.shared.apart_out ha hb hne).mono ?_ (hused b hb)).symm
    exact ⟨Nat.le_refl _, Nat.add_le_add_left MemoryPool.header_le_stride _⟩
  · intro i
    obtain ⟨free, hlist, hall⟩ := h.shared.lists i
    exact ⟨free, hlist,
      (List.nodup_append.mp (hall.nodup_iff.mpr MemoryPool.nodup_blocks)).1, hall⟩
  · intro b hb
    exact horigin b (List.mem_append_left _ hb)
  · intro b pool block_id hmem
    obtain ⟨rfl, rfl⟩ := h.freeing b pool block_id hmem
    exact horigin b (List.mem_append_right _ (mem_freeing hmem))

end Manager

/-! ## The beginning -/

/-- The first `n` blocks of a pool are linked, each to the next one. -/
def Linked (pool : PoolId) (memory_ stride : Nat) (mem : Memory) (n : Nat) : Prop :=
  ∀ j < n, (mem (memory_ + j * stride)).pool = some pool ∧
    (mem (memory_ + j * stride)).block_id ≠ 0 ∧
    (mem (memory_ + j * stride)).next = if j + 1 < n then memory_ + (j + 1) * stride else 0

section

variable {pool : PoolId} {memory_ stride : Nat} {mem : Memory} {n : Nat}

theorem place_ne (hstride : 0 < stride) {i j : Nat} (hne : i ≠ j) :
    memory_ + i * stride ≠ memory_ + j * stride := fun heq =>
  hne (Nat.eq_of_mul_eq_mul_right hstride (Nat.add_left_cancel heq))

theorem ofNat_ne_zero (hn : n + 1 < 2 ^ 32) : UInt32.ofNat (n + 1) ≠ 0 := by
  intro heq
  have hzero := congrArg UInt32.toNat heq
  rw [UInt32.toNat_ofNat_of_lt' hn] at hzero
  exact absurd hzero (Nat.succ_ne_zero n)

/-- One turn of the loop. -/
theorem Linked.next (h : Linked pool memory_ stride mem (n + 1)) (hstride : 0 < stride)
    (hn : n + 2 < 2 ^ 32) :
    Linked pool memory_ stride
      (Function.update
        (Function.update mem (memory_ + (n + 1) * stride) ⟨UInt32.ofNat (n + 1 + 1), some pool, 0⟩)
        (memory_ + n * stride)
        { mem (memory_ + n * stride) with next := memory_ + (n + 1) * stride }) (n + 2) := by
  intro j hj
  by_cases hlast : j = n + 1
  · subst hlast
    rw [Function.update_of_ne (place_ne hstride (Nat.succ_ne_self n)), Function.update_self,
      if_neg (Nat.lt_irrefl _)]
    exact ⟨rfl, ofNat_ne_zero hn, rfl⟩
  · obtain ⟨hpool, hid, hnext⟩ := h j (by omega)
    by_cases hcurrent : j = n
    · subst hcurrent
      rw [Function.update_self, if_pos (by omega)]
      exact ⟨hpool, hid, rfl⟩
    · rw [Function.update_of_ne (place_ne hstride hcurrent),
        Function.update_of_ne (place_ne hstride hlast), if_pos (by omega)]
      rw [if_pos (by omega)] at hnext
      exact ⟨hpool, hid, hnext⟩

/-- **What the loop does**, and that it does nothing elsewhere. -/
theorem initBlocks_spec (hstride : 0 < stride) {k : Nat} (hk : n + 1 + k < 2 ^ 32)
    (h : Linked pool memory_ stride mem (n + 1)) :
    Linked pool memory_ stride
        (initBlocks pool memory_ stride k (n + 1) (memory_ + n * stride) mem) (n + 1 + k) ∧
      ∀ a, (∀ j < n + 1 + k, a ≠ memory_ + j * stride) →
        initBlocks pool memory_ stride k (n + 1) (memory_ + n * stride) mem a = mem a := by
  induction k generalizing n mem with
  | zero => exact ⟨h, fun _ _ => rfl⟩
  | succ k ih =>
    have hcount : n + 1 + 1 + k = n + 1 + (k + 1) := by omega
    have hne : memory_ + n * stride ≠ memory_ + (n + 1) * stride :=
      place_ne hstride (Nat.succ_ne_self n).symm
    obtain ⟨hlinked, hframe⟩ := ih (by omega) (h.next hstride (by omega))
    rw [initBlocks]
    dsimp only
    rw [Function.update_of_ne hne]
    rw [hcount] at hlinked hframe
    refine ⟨hlinked, fun a ha => ?_⟩
    rw [hframe a ha, Function.update_of_ne (ha n (by omega)),
      Function.update_of_ne (ha (n + 1) (by omega))]

/-- Linked blocks are a threaded list. -/
theorem Linked.threaded (h : Linked pool memory_ stride mem n) (hmemory : memory_ ≠ 0) {j d : Nat}
    (hd : j + d = n) :
    Threaded (fun a => (mem a).next) 0 (if j < n then memory_ + j * stride else 0)
      ((List.range' j d).map fun k => memory_ + k * stride) := by
  induction d generalizing j with
  | zero =>
    rw [if_neg (by omega)]
    rfl
  | succ d ih =>
    rw [if_pos (by omega), List.range'_succ, List.map_cons]
    refine ⟨rfl, by omega, ?_⟩
    dsimp only
    rw [(h j (by omega)).2.2]
    exact ih (by omega)

end

/-- A pool whose blocks are all free. -/
structure Ready (t : Target) (pool : PoolId) (p : MemoryPool) (mem : Memory) : Prop where
  headers : ∀ a ∈ p.blocks t, (mem a).pool = some pool ∧ (mem a).block_id ≠ 0
  list : Threaded (fun a => (mem a).next) 0 p.head_ (p.blocks t)

theorem Ready.congr {t : Target} {pool : PoolId} {p : MemoryPool} {mem mem' : Memory}
    (h : Ready t pool p mem) (heq : ∀ a ∈ p.blocks t, mem' a = mem a) : Ready t pool p mem' where
  headers a ha := by
    rw [heq a ha]
    exact h.headers a ha
  list := h.list.congr fun a ha => by rw [heq a ha]

/-- **`Init` makes a pool whose blocks are all free**, and touches nothing else. -/
theorem ready_init (t : Target) (pool : PoolId) {size n memory_ : Nat} (mem : Memory)
    (hmemory : memory_ ≠ 0) (hn : 0 < n) (hsmall : n < 2 ^ 32) :
    Ready t pool (MemoryPool.init t pool size n memory_ mem).1
        (MemoryPool.init t pool size n memory_ mem).2 ∧
      ∀ a, a ∉ (MemoryPool.init t pool size n memory_ mem).1.blocks t →
        (MemoryPool.init t pool size n memory_ mem).2 a = mem a := by
  have hstride : 0 < size + t.sizeofMemoryBlock :=
    Nat.lt_of_lt_of_le (by cases t <;> decide) (Nat.le_add_left t.sizeofMemoryBlock size)
  have hfirst : Linked pool memory_ (size + t.sizeofMemoryBlock)
      (Function.update mem memory_ ⟨1, some pool, 0⟩) (0 + 1) := by
    intro j hj
    obtain rfl : j = 0 := by omega
    rw [Nat.zero_mul, Nat.add_zero, Function.update_self]
    exact ⟨rfl, (by decide : (1 : UInt32) ≠ 0), rfl⟩
  obtain ⟨hlinked, hframe⟩ := initBlocks_spec hstride (k := n - 1) (by omega) hfirst
  rw [Nat.zero_mul, Nat.add_zero, show 0 + 1 + (n - 1) = n by omega] at hlinked hframe
  refine ⟨⟨?_, ?_⟩, fun a ha => ?_⟩
  · intro a ha
    obtain ⟨k, hk, rfl⟩ := MemoryPool.mem_blocks.mp ha
    exact ⟨(hlinked k hk).1, (hlinked k hk).2.1⟩
  · have hlist := hlinked.threaded hmemory (Nat.zero_add n)
    rw [if_pos hn, Nat.zero_mul, Nat.add_zero, ← List.range_eq_range'] at hlist
    exact hlist
  · have hnot : ∀ j < n, a ≠ memory_ + j * (size + t.sizeofMemoryBlock) := by
      rintro j hj rfl
      exact ha (MemoryPool.mem_blocks.mpr ⟨j, hj, rfl⟩)
    have hhead := hnot 0 hn
    rw [Nat.zero_mul, Nat.add_zero] at hhead
    exact (hframe a hnot).trans (Function.update_of_ne hhead _ _)

namespace Manager

/-- Blocks of pools that are apart. -/
theorem blocks_ne {t : Target} {p q : MemoryPool} (h : Apart (p.region t) (q.region t)) {a : Nat}
    (ha : a ∈ p.blocks t) : a ∉ q.blocks t := by
  intro hb
  exact (h.mono (MemoryPool.within_region ha) (MemoryPool.within_region hb)).start_ne
    MemoryPool.stride_pos MemoryPool.stride_pos rfl

/-- A pool at the beginning. -/
def pool (memory : PoolId → Nat) (i : PoolId) : MemoryPool :=
  ⟨memory i, poolSize i, poolCount i, memory i⟩

/-- `Init` of a pool. -/
def made (t : Target) (memory : PoolId → Nat) (i : PoolId) (mem : Memory) : Memory :=
  (MemoryPool.init t i (poolSize i) (poolCount i) (memory i) mem).2

theorem init_pools (t : Target) (memory : PoolId → Nat) (mem : Memory) :
    (init t memory mem).pools = pool memory := by
  funext i
  match i with
  | 0 => rfl
  | 1 => rfl
  | 2 => rfl

theorem init_mem (t : Target) (memory : PoolId → Nat) (mem : Memory) :
    (init t memory mem).mem = made t memory 2 (made t memory 1 (made t memory 0 mem)) := by
  simp only [init, made]

/-- **Each pool is ready**, and stays so while the others are made. -/
theorem ready_pools (t : Target) {memory : PoolId → Nat} (h : Granted t memory) (mem : Memory)
    (i : PoolId) : Ready t i (pool memory i) (init t memory mem).mem := by
  have hmade : ∀ i mem, Ready t i (pool memory i) (made t memory i mem) ∧
      ∀ a, a ∉ (pool memory i).blocks t → made t memory i mem a = mem a := by
    intro i mem
    exact ready_init t i mem (h i).1 (by revert i; decide) (by revert i; decide)
  have hkeeps : ∀ i j, i ≠ j → ∀ mem, Ready t i (pool memory i) mem →
      Ready t i (pool memory i) (made t memory j mem) := by
    intro i j hij mem hready
    have hapart : Apart ((pool memory i).region t) ((pool memory j).region t) := (h i).2 j hij
    exact hready.congr fun a ha => (hmade j mem).2 a (blocks_ne hapart ha)
  rw [init_mem]
  match i with
  | 0 => exact hkeeps 0 2 (by decide) _ (hkeeps 0 1 (by decide) _ (hmade 0 mem).1)
  | 1 => exact hkeeps 1 2 (by decide) _ (hmade 1 _).1
  | 2 => exact (hmade 2 _).1

theorem kept_init (t : Target) {memory : PoolId → Nat} (h : Granted t memory) (mem : Memory) :
    (init t memory mem).Kept t := by
  have hready := ready_pools t h mem
  refine ⟨?_, fun b pool block_id hmem => absurd hmem List.not_mem_nil⟩
  unfold heads
  rw [init_pools]
  refine ⟨fun i => (h i).1, fun i j hij => (h i).2 j hij, fun i => (hready i).headers, fun i => ?_,
    fun b hb => absurd hb List.not_mem_nil, fun b hb => absurd hb List.not_mem_nil,
    fun b hb => absurd hb List.not_mem_nil, List.Pairwise.nil⟩
  refine ⟨(pool memory i).blocks t, (hready i).list, ?_⟩
  exact List.Perm.of_eq (List.append_nil _)

/-- **The memory is shared out in every state of a run when `malloc` gives nothing for a size that
is too large**, and only then. Where `malloc` puts a block is left to it, as long as the blocks are
apart; the two targets differ in the width of a size, and what is too large is what wraps when the
header is added. On 64 bits no size is, and the condition is met by every run. -/
theorem memory_is_shared_out (t : Target) (memory : PoolId → Nat) (h : Granted t memory)
    (mem : Memory) (steps : List MemoryStep) :
    Always (next t) (Sound t) (init t memory mem) steps ↔
      Guarded (next t) (Keeps t) (init t memory mem) steps := by
  constructor
  · apply guarded_of_always (Q := Kept t) (kept_init t h mem)
    · intro w s hw hs
      exact hw.step hs
    · intro w s _ hs
      exact not_sound s hs
  · apply always_of_guarded (Q := Kept t) (kept_init t h mem)
    · intro w s hw hs
      exact hw.step hs
    · intro w hw
      exact hw.sound

/-- The pools of the witness. -/
theorem memory_is_shared_out_once :
    Granted .bits32 ![4096, 1048576, 2097152] ∧
      (Always (next .bits32) (Sound .bits32)
          (init .bits32 ![4096, 1048576, 2097152] fun _ => ⟨0, none, 0⟩)
          [.alloc 100, .free 0, .freed 0] ↔
        Guarded (next .bits32) (Keeps .bits32)
          (init .bits32 ![4096, 1048576, 2097152] fun _ => ⟨0, none, 0⟩)
          [.alloc 100, .free 0, .freed 0]) := by
  have h : Granted .bits32 ![4096, 1048576, 2097152] := by
    unfold Granted
    decide
  exact ⟨h, memory_is_shared_out .bits32 _ h _ _⟩

/-- What is too large for every pool waits for `malloc`. -/
theorem alloc_large (t : Target) (memory : PoolId → Nat) (mem : Memory) {size : UInt32}
    (hsize : 102400 < size.toNat) :
    (init t memory mem).step t (.alloc size) =
      { init t memory mem with pending := [.malloc size] } := by
  have hnone : (init t memory mem).poolFor size = none := by
    unfold poolFor
    rw [init_pools, List.find?_eq_none]
    intro i _
    have hi : poolSize i ≤ 102400 := by
      revert i
      decide
    exact decide_eq_true_iff.not.mpr (Nat.not_le.mpr (Nat.lt_of_le_of_lt hi hsize))
  unfold step
  dsimp only
  rw [hnone]
  rfl

/-- A block of four bytes is given for 2³² − 8. -/
theorem too_large_is_not_sound :
    ¬ Always (next .bits32) (Sound .bits32)
      (init .bits32 ![4096, 1048576, 2097152] fun _ => ⟨0, none, 0⟩)
      [.alloc 4294967288, .malloced 0 4194304] := by
  obtain ⟨w, hw⟩ : ∃ w, (init .bits32 ![4096, 1048576, 2097152] fun _ => ⟨0, none, 0⟩).step
      .bits32 (.alloc 4294967288) = w := ⟨_, rfl⟩
  rintro ⟨-, -, hsound⟩
  unfold Always next at hsound
  dsimp only at hsound
  rw [hw] at hsound
  rw [alloc_large _ _ _ (by decide)] at hw
  refine not_sound (.malloced 0 4194304) (fun hkeeps => ?_) hsound
  have hpending : w.pending = [.malloc 4294967288] := by rw [← hw]
  have hgrants : w.Grants .bits32 4194304 4 := by
    rw [← hw]
    unfold Grants regions
    simp only [init_pools]
    decide
  have hsmall := hkeeps 0 4194304 4294967288 rfl (by rw [hpending]; rfl) hgrants
  exact absurd hsmall (by decide)

end Manager

end Maixii.Net
