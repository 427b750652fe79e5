import Maixii.Mp4.MovRings

/-!
# `Mp4/MovCaches.lean`: the seven tables together

`Caches` says of every table what its ring and its tmp file hold and how many pages its counter
tells of. The counter of the pages of `stsc` is kept by the other track (`Table.counter`): a chunk
ends when a packet of the other stream comes, and `mov_write_packet` counts with the track of that
packet.
-/

set_option autoImplicit false

namespace Maixii.Mp4

open Maixii.Lib

/-- The other stream. -/
def StreamType.other : StreamType → StreamType
  | .video => .audio
  | .audio => .video

/-- **Where the pages of a table are counted.** -/
def Table.counter : Table → Table
  | .stsc st => .stsc st.other
  | t => t

theorem Table.counter_injective : Function.Injective Table.counter := by
  intro t u h
  rcases t with (_ | _) | (_ | _) | (_ | _) | _ <;> rcases u with (_ | _) | (_ | _) | (_ | _) | _ <;>
    first
    | rfl
    | cases h

theorem StreamType.other_eq {st here : StreamType} (h : st ≠ here) : st.other = here := by
  cases st <;> cases here <;> first | rfl | exact absurd rfl h

/-- The pages of a table of `n` words that are in its file. -/
abbrev Table.gone (t : Table) (n : Nat) : Nat := pagesGone t.cacheSize tinyPageSize n

namespace MovContext

section

variable (mov : MovContext) (t trk : Table)

/-- Settling moves the ring, its file and the counter of its pages. -/
theorem settle_eq : mov.settle t trk = { mov with
    cache := (mov.settle t trk).cache
    fd := (mov.settle t trk).fd
    tinyPages := (mov.settle t trk).tinyPages } := by
  unfold settle spill
  dsimp only
  split <;> rfl

@[simp] theorem size_settle : (mov.settle t trk).size = mov.size := by
  rw [settle_eq]

@[simp] theorem stscCnt_settle : (mov.settle t trk).stscCnt = mov.stscCnt := by
  rw [settle_eq]

@[simp] theorem lastStreamIndex_settle : (mov.settle t trk).lastStreamIndex = mov.lastStreamIndex := by
  rw [settle_eq]

@[simp] theorem mdatSize_settle : (mov.settle t trk).mdatSize = mov.mdatSize := by
  rw [settle_eq]

@[simp] theorem pb_settle : (mov.settle t trk).pb = mov.pb := by
  rw [settle_eq]

@[simp] theorem cacheKeyframe_settle : (mov.settle t trk).cacheKeyframe = mov.cacheKeyframe := by
  rw [settle_eq]

@[simp] theorem keyFrameNum_settle : (mov.settle t trk).keyFrameNum = mov.keyFrameNum := by
  rw [settle_eq]

@[simp] theorem keyframeNum_settle : (mov.settle t trk).keyframeNum = mov.keyframeNum := by
  rw [settle_eq]

end

variable {mov mov' : MovContext} {t u : Table} {H : Table → List UInt32} {v w : UInt32}

/-- **Every table is in its place**, and its pages are counted. -/
structure Caches (mov : MovContext) (H : Table → List UInt32) : Prop where
  holds : ∀ t, mov.Holds t (H t)
  pages : ∀ t : Table, mov.tinyPages t.counter = t.gone (H t).length

/-- The same while a word of the table `t` waits to be settled. -/
structure CachesBut (mov : MovContext) (t : Table) (v : UInt32) (H : Table → List UInt32) :
    Prop where
  pending : mov.Pending t (H t) v
  holds : ∀ u, u ≠ t → mov.Holds u (H u)
  pages : ∀ u : Table, mov.tinyPages u.counter = u.gone (H u).length

theorem caches_opened (mem keys page : Nat → UInt32) :
    Caches (opened mem keys page) fun _ => [] where
  holds t := holds_opened mem keys page t
  pages t := by
    rw [List.length_nil, Table.gone, pagesGone, Nat.zero_div, Nat.zero_sub]
    rfl

/-- Nothing but the rings, the files and the counters matters. -/
theorem Caches.congr (h : Caches mov H) (hmem : mov'.movInfCache = mov.movInfCache)
    (hcache : mov'.cache = mov.cache) (hfd : mov'.fd = mov.fd)
    (hpages : mov'.tinyPages = mov.tinyPages) : Caches mov' H where
  holds t := by
    have hsame : SameRing mov mov' t :=
      ⟨fun a _ _ => congrFun hmem a, congrFun hcache t, congrFun hfd t⟩
    exact hsame.holds (h.holds t)
  pages t := by rw [hpages, h.pages t]

theorem CachesBut.congr (h : CachesBut mov t v H) (hmem : mov'.movInfCache = mov.movInfCache)
    (hcache : mov'.cache = mov.cache) (hfd : mov'.fd = mov.fd)
    (hpages : mov'.tinyPages = mov.tinyPages) : CachesBut mov' t v H := by
  have hsame : ∀ u, SameRing mov mov' u := fun u =>
    ⟨fun a _ _ => congrFun hmem a, congrFun hcache u, congrFun hfd u⟩
  refine ⟨(hsame t).pending h.pending, ?_, ?_⟩
  · intro u hu
    exact (hsame u).holds (h.holds u hu)
  · intro u
    rw [hpages, h.pages u]

/-- A word is stored and counted. -/
theorem Caches.store (h : Caches mov H) (t : Table) (v : UInt32) :
    CachesBut ((mov.stored t v).counted t) t v H where
  pending := (h.holds t).pending v
  holds u hu := by
    have hsame := ((h.holds t).sameRing_stored v hu).trans (sameRing_counted (mov.stored t v) hu)
    exact hsame.holds (h.holds u)
  pages := h.pages

/-- **The word that waits is settled.** -/
theorem CachesBut.settle (h : CachesBut mov t v H) :
    Caches (mov.settle t t.counter) (Function.update H t (H t ++ [v])) where
  holds := by
    intro u
    by_cases hu : u = t
    · subst hu
      rw [Function.update_self]
      exact h.pending.settle (h.pages u)
    · rw [Function.update_of_ne hu]
      exact (sameRing_settle mov t.counter hu).holds (h.holds u hu)
  pages := by
    intro u
    rw [h.pending.tinyPages_settle (h.pages t)]
    by_cases hu : u = t
    · subst hu
      rw [Function.update_self, Function.update_self, List.length_append, List.length_singleton]
    · rw [Function.update_of_ne hu,
        Function.update_of_ne (fun he => hu (Table.counter_injective he)), h.pages u]

/-- **While one word waits, another table gets one.** -/
theorem CachesBut.push (h : CachesBut mov t v H) (hu : u ≠ t) (w : UInt32) :
    CachesBut (((mov.stored u w).counted u).settle u u.counter) t v
      (Function.update H u (H u ++ [w])) := by
  have hpending := (h.holds u hu).pending w
  have hpages : ((mov.stored u w).counted u).tinyPages u.counter = u.gone (H u).length := h.pages u
  have hrest : ∀ r, r ≠ u →
      SameRing mov (((mov.stored u w).counted u).settle u u.counter) r := fun r hr =>
    (((h.holds u hu).sameRing_stored w hr).trans (sameRing_counted _ hr)).trans
      (sameRing_settle _ _ hr)
  refine ⟨?_, ?_, ?_⟩
  · rw [Function.update_of_ne hu.symm]
    exact (hrest t hu.symm).pending h.pending
  · intro r hr
    by_cases hru : r = u
    · subst hru
      rw [Function.update_self]
      exact hpending.settle hpages
    · rw [Function.update_of_ne hru]
      exact (hrest r hru).holds (h.holds r hr)
  · intro r
    rw [hpending.tinyPages_settle hpages]
    by_cases hru : r = u
    · subst hru
      rw [Function.update_self, Function.update_self, List.length_append, List.length_singleton]
    · rw [Function.update_of_ne hru,
        Function.update_of_ne (fun he => hru (Table.counter_injective he))]
      exact h.pages r

end MovContext

end Maixii.Mp4
