import Maixii.Mp4.MovSteps
import Maixii.Mp4.MovTables

/-!
# `Mp4/SampleTables.lean`: the tables describe the packets

The caches are read back as they were filled, so the tables that `mov_write_moov_tag` writes are
those of `Mp4/Chunks.lean` (`tables_described`). The exception is `stsc`: its pages are counted by
the other track, which is another number when one stream has ended 16384 chunks and the other one
less, and again every 2048 chunks.
-/

set_option autoImplicit false

namespace Maixii.Mp4

open Maixii.Lib

/-! ## Reading files -/

section

variable {page : Nat → UInt32} {file : List UInt32} {pos n left index : Nat}

theorem words_fread (h : pos + n ≤ file.length) :
    words (fread page file pos n) 0 n = (file.drop pos).take n := by
  have hlen : ((file.drop pos).take n).length = n := by
    rw [List.length_take, List.length_drop]
    omega
  refine List.ext_getElem (by rw [length_words, hlen]) ?_
  intro i hi hi'
  rw [length_words] at hi
  simp only [words, List.getElem_map, List.getElem_range, Nat.zero_add, fread]
  rw [List.getD_eq_getElem?_getD, List.getElem?_eq_getElem (by omega), Option.getD_some]

/-- **The pages come back**, -/
theorem readPages_eq (h : (index + left) * tinyPageSize ≤ file.length) :
    (readPages file left index page).1 =
      (file.drop (index * tinyPageSize)).take (left * tinyPageSize) := by
  induction left generalizing index page with
  | zero => rw [Nat.zero_mul, List.take_zero, readPages]
  | succ left ih =>
    have hfirst : index * tinyPageSize + tinyPageSize ≤ file.length := by
      refine Nat.le_trans ?_ h
      rw [← Nat.succ_mul]
      exact Nat.mul_le_mul_right _ (by omega)
    have hrest : (index + 1 + left) * tinyPageSize ≤ file.length := by
      rw [Nat.add_assoc, Nat.add_comm 1 left]
      exact h
    rw [readPages]
    dsimp only
    rw [words_fread hfirst, ih hrest, Nat.add_mul, Nat.one_mul, ← List.drop_drop, ← List.take_add,
      Nat.succ_mul, Nat.add_comm tinyPageSize]

/-- and so do the words. -/
theorem readWords_eq (h : index + left ≤ file.length) :
    (readWords file left index page).1 = (file.drop index).take left := by
  induction left generalizing index page with
  | zero => rw [List.take_zero, readWords]
  | succ left ih =>
    have hone : index + 1 ≤ file.length := by omega
    have hfirst : words (fread page file index 1) 0 1 = (file.drop index).take 1 := words_fread hone
    have hhead : fread page file index 1 0 :: [] = (file.drop index).take 1 := hfirst
    rw [readWords]
    dsimp only
    rw [ih (by omega), ← List.drop_drop, Nat.add_comm left 1, List.take_add, ← hhead]
    rfl

end

namespace MovContext

variable {mov : MovContext} {t : Table} {p : Nat} {l : List UInt32}

/-- The tiny page is all that reading a table changes. -/
def withPage (mov : MovContext) (page : Nat → UInt32) : MovContext :=
  { mov with cacheTinyPage := page }

theorem Readable.file_length (h : mov.Readable t p l) :
    (mov.fd t).length = p * tinyPageSize := by
  rw [h.spilled.file_eq, List.length_take, Nat.min_eq_left h.spilled.whole]

theorem Readable.inRing (h : mov.Readable t 0 l) (hsize : mov.size t = l.length) :
    mov.inRing t = l := by
  rw [MovContext.inRing, h.read_eq, hsize, Nat.zero_mul, Nat.zero_mod, Nat.add_zero]
  exact h.spilled.words

theorem Readable.behindPages (h : mov.Readable t p l) (hsize : mov.size t = l.length)
    (hpages : mov.tinyPages t = p) : mov.fd t ++ mov.behindPages t = l := by
  rw [MovContext.behindPages, h.start_eq, h.end_eq, h.read_eq, hsize, hpages]
  exact h.spilled.drain

/-- **A table is drained as it was filled.** -/
theorem Readable.drain (h : mov.Readable t p l) (hsize : mov.size t = l.length)
    (hpages : mov.tinyPages t = p) (page : Nat → UInt32) :
    ∃ page', (mov.withPage page).drain t = (l, mov.withPage page') := by
  unfold MovContext.drain
  by_cases hzero : p = 0
  · subst hzero
    rw [if_pos (show (mov.withPage page).tinyPages t = 0 from hpages)]
    refine ⟨page, ?_⟩
    show (mov.inRing t, mov.withPage page) = _
    rw [h.inRing hsize]
  · rw [if_neg (show ¬ (mov.withPage page).tinyPages t = 0 from
      fun he => hzero (hpages.symm.trans he))]
    refine ⟨_, Prod.ext ?_ rfl⟩
    show (readPages (mov.fd t) (mov.tinyPages t) 0 page).1 ++ mov.behindPages t = l
    have hlen := h.file_length
    rw [readPages_eq (by rw [Nat.zero_add, hpages, hlen]), Nat.zero_mul, List.drop_zero, hpages,
      ← hlen, List.take_length]
    exact h.behindPages hsize hpages

theorem Readable.drainWords (h : mov.Readable t p l) (hsize : mov.size t = l.length)
    (hpages : mov.tinyPages t = p) (page : Nat → UInt32) :
    ∃ page', (mov.withPage page).drainWords t = (l, mov.withPage page') := by
  unfold MovContext.drainWords
  by_cases hzero : p = 0
  · subst hzero
    rw [if_pos (show (mov.withPage page).tinyPages t = 0 from hpages)]
    refine ⟨page, ?_⟩
    show (mov.inRing t, mov.withPage page) = _
    rw [h.inRing hsize]
  · rw [if_neg (show ¬ (mov.withPage page).tinyPages t = 0 from
      fun he => hzero (hpages.symm.trans he))]
    refine ⟨_, Prod.ext ?_ rfl⟩
    show (readWords (mov.fd t) (mov.tinyPages t * tinyPageSize) 0 page).1 ++ mov.behindPages t = l
    have hlen := h.file_length
    rw [readWords_eq (by rw [Nat.zero_add, hpages, hlen]), List.drop_zero, hpages, ← hlen,
      List.take_length]
    exact h.behindPages hsize hpages

end MovContext

/-! ## When all is written -/

/-- The whole table: in the end the last chunk is over too. -/
def Table.final (s : AVFormatContext) (pkts : List AVPacket) : Table → List UInt32
  | .stsc st => (chunkCounts s st (chunkPackets pkts)).map UInt32.ofNat
  | t => t.history s pkts

/-- **After the last packet.** -/
structure Finished (s : AVFormatContext) (start : OutFile) (pkts : List AVPacket)
    (mov : MovContext) : Prop where
  readable : ∀ t : Table, mov.Readable t (t.gone (t.history s pkts).length) (t.final s pkts)
  sizes : ∀ st, mov.size (.stsz st) = sampleCounts s (packetsOf st pkts)
  size : ∀ t : Table, (∀ st, t ≠ .stsz st) → mov.size t = (t.final s pkts).length
  pages : ∀ t : Table, mov.tinyPages t.counter = t.gone (t.history s pkts).length
  keys : words mov.cacheKeyframe 0 mov.keyFrameNum = (keyNumbers s pkts).map UInt32.ofNat
  mdat : mov.mdatSize = (sampleData s pkts).length
  pb : mov.pb = start.write (sampleData s pkts)

variable {s : AVFormatContext} {start : OutFile} {pkts : List AVPacket} {mov : MovContext}

theorem final_of_ne {t : Table} {x : AVPacket} (hx : x ∈ pkts.getLast?)
    (ht : t ≠ .stsc x.streamIndex) : t.final s pkts = t.history s pkts := by
  cases t with
  | stsc st =>
    have hne : ¬ x.streamIndex = st := fun he => ht (he ▸ rfl)
    rw [Table.final, chunkCounts_last hx, if_neg hne, List.append_nil]
    rfl
  | stco st => rfl
  | stsz st => rfl
  | stts => rfl

/-- **The last packet ends the last chunk.** -/
theorem Recorded.finish (h : Recorded s start pkts mov) (hne : pkts ≠ []) :
    ∃ mov', movWriteLastPacket mov = some mov' ∧ Finished s start pkts mov' := by
  obtain ⟨x, hx⟩ : ∃ x, pkts.getLast? = some x := ⟨_, List.getLast?_eq_some_getLast hne⟩
  have hlast : mov.lastStreamIndex = some x.streamIndex := by
    rw [h.last, hx]
    rfl
  generalize ht : Table.stsc x.streamIndex = t
  have hholds := h.caches.holds t
  have hfinal : t.final s pkts = t.history s pkts ++ [UInt32.ofNat mov.stscCnt] := by
    subst ht
    rw [Table.final, chunkCounts_last hx, if_pos rfl, List.map_append, h.count]
    rfl
  refine ⟨{ mov.stored t (UInt32.ofNat mov.stscCnt) with
    size := Function.update mov.size t (mov.size t + 1) }, ?_, ?_, ?_, ?_, h.caches.pages, h.keys,
    h.mdat, h.pb⟩
  · unfold movWriteLastPacket
    rw [hlast]
    show (mov.store (.stsc x.streamIndex) (UInt32.ofNat mov.stscCnt)).bind _ = _
    rw [ht, hholds.store]
    rfl
  · intro u
    by_cases hu : u = t
    · subst hu
      have hread := hholds.readable_stored (UInt32.ofNat mov.stscCnt)
      rw [hfinal]
      exact ⟨hread.start_eq, hread.end_eq, hread.spilled, hread.read_eq⟩
    · have hsame := hholds.sameRing_stored (UInt32.ofNat mov.stscCnt) hu
      have hread := (hsame.holds (h.caches.holds u)).readable
      rw [final_of_ne hx (ht ▸ hu)]
      exact ⟨hread.start_eq, hread.end_eq, hread.spilled, hread.read_eq⟩
  · intro st
    have hu : Table.stsz st ≠ t := by
      subst ht
      exact nofun
    show Function.update mov.size t (mov.size t + 1) (.stsz st) = _
    rw [Function.update_of_ne hu, h.size]
    rfl
  · intro u hsz
    have hentries : mov.size u = (u.history s pkts).length := by
      rw [h.size]
      cases u with
      | stsz st => exact absurd rfl (hsz st)
      | stco st => rfl
      | stsc st => rfl
      | stts => rfl
    show Function.update mov.size t (mov.size t + 1) u = _
    by_cases hu : u = t
    · subst hu
      rw [Function.update_self, hentries, hfinal, List.length_append, List.length_singleton]
    · rw [Function.update_of_ne hu, final_of_ne hx (ht ▸ hu), hentries]

/-! ## The counters of `stsc` -/

/-- **The condition that goes wrong**: so many chunks that one stream has filled a page more of its
table than the other. -/
def Swapped (pkts : List AVPacket) : Prop :=
  32768 ≤ (chunkPackets pkts).length ∧ 4096 ∣ (chunkPackets pkts).length

instance (pkts : List AVPacket) : Decidable (Swapped pkts) := by
  unfold Swapped
  infer_instance

/-- The chunks of a stream that are over. -/
def closedOf (s : AVFormatContext) (st : StreamType) (pkts : List AVPacket) : Nat :=
  (chunkCounts s st (chunkPackets pkts).dropLast).length

theorem closedOf_same {p : AVPacket} (h : ¬ BeginsChunk pkts p) (st : StreamType) :
    closedOf s st (pkts ++ [p]) = closedOf s st pkts := by
  rw [closedOf, closed_same h, closedOf]

theorem closedOf_new {p x : AVPacket} (h : BeginsChunk pkts p) (hx : x ∈ pkts.getLast?)
    (st : StreamType) : closedOf s st (pkts ++ [p]) =
      closedOf s st pkts + if x.streamIndex = st then 1 else 0 := by
  rw [closedOf, closed_new h, chunkCounts_last hx, List.length_append, closedOf]
  split <;> rfl

/-- **The streams take turns**: of the stream of the last packet no more chunks are over than of the
other, and at most one less. -/
theorem closed_turns (s : AVFormatContext) (pkts : List AVPacket) :
    ∀ x ∈ pkts.getLast?, closedOf s x.streamIndex pkts ≤ closedOf s x.streamIndex.other pkts ∧
      closedOf s x.streamIndex.other pkts ≤ closedOf s x.streamIndex pkts + 1 ∧
      closedOf s x.streamIndex pkts + closedOf s x.streamIndex.other pkts + 1 =
        (chunkPackets pkts).length := by
  induction pkts using List.reverseRecOn with
  | nil =>
    intro x hx
    simp at hx
  | append_singleton pkts p ih =>
    intro x hx
    obtain rfl : p = x := by simpa using hx
    by_cases hbegin : BeginsChunk pkts p
    · rw [chunkPackets_new hbegin, List.length_append, List.length_singleton]
      cases hlast : pkts.getLast? with
      | none =>
        obtain rfl := List.getLast?_eq_none_iff.mp hlast
        exact ⟨Nat.le_refl _, Nat.zero_le _, rfl⟩
      | some y =>
        obtain ⟨hle, hge, hsum⟩ := ih y hlast
        have hne : y.streamIndex ≠ p.streamIndex := hbegin y hlast
        have hother : y.streamIndex.other = p.streamIndex := StreamType.other_eq hne
        have hback : p.streamIndex.other = y.streamIndex := StreamType.other_eq hne.symm
        rw [closedOf_new hbegin hlast, closedOf_new hbegin hlast, if_neg hne, if_pos hback.symm,
          hback]
        rw [hother] at hle hge hsum
        omega
    · obtain ⟨R, r, hR, hr, hsame, hsnoc⟩ := chunkPackets_same hbegin
      obtain ⟨y, hy⟩ : ∃ y, pkts.getLast? = some y := by
        cases hlast : pkts.getLast? with
        | none => exact absurd (fun x hx => by rw [hlast] at hx; exact absurd hx nofun) hbegin
        | some y => exact ⟨y, rfl⟩
      have hstream : y.streamIndex = p.streamIndex := by
        by_contra hne
        refine hbegin ?_
        intro z hz
        obtain rfl : y = z := Option.some.inj (hy.symm.trans hz)
        exact hne
      have hturns := ih y hy
      rw [hstream] at hturns
      rw [closedOf_same hbegin, closedOf_same hbegin, hsnoc, List.length_append,
        List.length_singleton]
      rw [hR, List.length_append, List.length_singleton] at hturns
      exact hturns

/-- **Otherwise both streams have filled as many pages.** -/
theorem pages_eq (s : AVFormatContext) (hne : pkts ≠ []) (hswap : ¬ Swapped pkts)
    (st : StreamType) :
    (Table.stsc st).gone (closedOf s st pkts) =
      (Table.stsc st.other).gone (closedOf s st.other pkts) := by
  obtain ⟨x, hx⟩ : ∃ x, pkts.getLast? = some x := ⟨_, List.getLast?_eq_some_getLast hne⟩
  obtain ⟨hle, hge, hsum⟩ := closed_turns s pkts x hx
  have hkey : ∀ a b : Nat, a ≤ b → b ≤ a + 1 → a + b + 1 = (chunkPackets pkts).length →
      pagesGone 16384 2048 a = pagesGone 16384 2048 b := by
    intro a b hab hba hab'
    have hnot : ¬ (32768 ≤ a + b + 1 ∧ 4096 ∣ a + b + 1) := by
      rw [hab']
      exact hswap
    unfold pagesGone
    omega
  have hpages := hkey _ _ hle hge hsum
  by_cases hst : st = x.streamIndex
  · subst hst
    exact hpages
  · have hother : st.other = x.streamIndex := StreamType.other_eq hst
    have hback : x.streamIndex.other = st := StreamType.other_eq (Ne.symm hst)
    rw [hother]
    rw [hback] at hpages
    exact hpages.symm

/-- So every counter is that of its own track. -/
theorem Finished.tinyPages_eq (h : Finished s start pkts mov) (hne : pkts ≠ [])
    (hswap : ¬ Swapped pkts) (t : Table) :
    mov.tinyPages t = t.gone (t.history s pkts).length := by
  cases t with
  | stsc st =>
    have hother : (Table.stsc st.other).counter = .stsc st := by cases st <;> rfl
    have hlen : ∀ r, ((Table.stsc r).history s pkts).length = closedOf s r pkts := fun r =>
      List.length_map _
    rw [← hother, h.pages, hlen, hother, hlen, pages_eq s hne hswap st]
  | stco st => exact h.pages (.stco st)
  | stsz st => exact h.pages (.stsz st)
  | stts => exact h.pages .stts

end Maixii.Mp4
