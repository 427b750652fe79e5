import Maixii.AudioLib.ADecoder
import Maixii.Lib.Ring

/-!
# `AudioLib/PcmLayout.lean`: where the frames lie in the PCM ring

The frames that are not given back lie end to end: from the read pointer to the write pointer, or
from the read pointer to where the PCM ends and from the start to the write pointer (`Layout`). Each
call keeps that, the skip of the end and the flush among them, and **what the decoder is given is
beside all of them**.
-/

set_option autoImplicit false

namespace Maixii.AudioLib

open Maixii.Lib

theorem maxFrameNum_pos : 0 < maxFrameNum := by decide

/-! ## Frames end to end -/

/-- Frames that lie end to end, from `s` to `e`, and none is empty. -/
def Laid : Nat → List Pcm → Nat → Prop
  | s, [], e => s = e
  | s, f :: fs, e => f.pOutReadPtr = s ∧ 0 < f.psize ∧ Laid (s + f.psize) fs e

section

variable {s e m n : Nat} {f : Pcm} {fs gs : List Pcm}

theorem Laid.sum (h : Laid s fs e) : s + (fs.map Pcm.psize).sum = e := by
  induction fs generalizing s with
  | nil => exact h
  | cons f fs ih =>
    rw [List.map_cons, List.sum_cons, ← Nat.add_assoc]
    exact ih h.2.2

theorem Laid.le (h : Laid s fs e) : s ≤ e := by
  rw [← h.sum]
  exact Nat.le_add_right _ _

/-- Each frame is between the ends. -/
theorem Laid.mem (h : Laid s fs e) (hf : f ∈ fs) :
    s ≤ f.pOutReadPtr ∧ f.pOutReadPtr + f.psize ≤ e ∧ 0 < f.psize := by
  induction fs generalizing s with
  | nil => exact absurd hf List.not_mem_nil
  | cons g fs ih =>
    obtain ⟨hstart, hpos, hrest⟩ := h
    rcases List.mem_cons.mp hf with rfl | hf
    · have hend := hrest.le
      exact ⟨Nat.le_of_eq hstart.symm, by rw [hstart]; exact hend, hpos⟩
    · obtain ⟨hlo, hhi, hsize⟩ := ih hrest hf
      exact ⟨by omega, hhi, hsize⟩

theorem Laid.eq_nil (h : Laid s fs s) : fs = [] := by
  cases fs with
  | nil => rfl
  | cons f fs =>
    have hle := h.2.2.le
    have hpos := h.2.1
    omega

theorem Laid.lt (h : Laid s fs e) (hne : fs ≠ []) : s < e := by
  rcases Nat.eq_or_lt_of_le h.le with rfl | hlt
  · exact absurd h.eq_nil hne
  · exact hlt

/-- One more behind them. -/
theorem Laid.snoc (h : Laid s fs e) (hn : 0 < n) : Laid s (fs ++ [⟨e, n⟩]) (e + n) := by
  induction fs generalizing s with
  | nil => exact ⟨h.symm, hn, by rw [Laid, h]⟩
  | cons g fs ih => exact ⟨h.1, h.2.1, ih h.2.2⟩

end

/-! ## The ring -/

namespace OutputPcmBuf

/-- **Where the frames lie** that are not given back, and what the sizes say. -/
structure Layout (b : OutputPcmBuf) (live : List Pcm) : Prop where
  total : b.nAOutBufferTotalSize = b.pAOutBufferEnd + 1
  small : b.nMaxFrameSizeArox ≤ b.pAOutBufferEnd
  writ : b.pAOutBufferWritePtr ≤ b.pAOutBufferEnd
  valid : b.nAOutBufferValidSize = ((live.map Pcm.psize).sum : Nat)
  lies :
    (b.pAOutPcmEndPtr = b.pAOutBufferEnd + 1 ∧
      Laid b.pAOutBufferReadPtr live b.pAOutBufferWritePtr ∧
      b.nAOutBufferEmptySize =
        b.pAOutBufferEnd + 1 - (b.pAOutBufferWritePtr - b.pAOutBufferReadPtr : Int)) ∨
    (b.pAOutPcmEndPtr ≤ b.pAOutBufferEnd ∧
      (∃ first second, live = first ++ second ∧ first ≠ [] ∧
        Laid b.pAOutBufferReadPtr first b.pAOutPcmEndPtr ∧
        Laid 0 second b.pAOutBufferWritePtr) ∧
      b.nAOutBufferEmptySize = (b.pAOutBufferReadPtr - b.pAOutBufferWritePtr : Int) ∧
      b.pAOutBufferWritePtr ≤ b.pAOutBufferReadPtr)

/-- There is room for a frame behind the write pointer. -/
def Roomy (b : OutputPcmBuf) : Prop :=
  b.pAOutBufferWritePtr + b.nMaxFrameSizeArox ≤ b.pAOutBufferEnd ∧
    (b.pAOutPcmEndPtr ≤ b.pAOutBufferEnd →
      b.pAOutBufferWritePtr + b.nMaxFrameSizeArox < b.pAOutBufferReadPtr)

variable {b : OutputPcmBuf} {live : List Pcm}

/-- With nothing in it, the ring does not go round. -/
theorem Layout.straight_of_nil (h : b.Layout []) :
    b.pAOutPcmEndPtr = b.pAOutBufferEnd + 1 ∧ b.nAOutBufferEmptySize = b.pAOutBufferEnd + 1 := by
  rcases h.lies with ⟨hend, hlaid, hempty⟩ | ⟨-, ⟨first, second, heq, hne, -, -⟩, -⟩
  · have hsame : b.pAOutBufferReadPtr = b.pAOutBufferWritePtr := hlaid
    exact ⟨hend, by omega⟩
  · exact absurd (List.append_eq_nil_iff.mp heq.symm).1 hne

theorem Layout.eq_nil (h : b.Layout live) (hvalid : b.nAOutBufferValidSize = 0) : live = [] := by
  have hsum := h.valid
  cases live with
  | nil => rfl
  | cons f fs =>
    exfalso
    have hpos : 0 < f.psize := by
      rcases h.lies with ⟨-, hlaid, -⟩ | ⟨-, ⟨first, second, heq, hne, hlaid, -⟩, -⟩
      · exact hlaid.2.1
      · obtain ⟨g, gs, rfl⟩ := List.exists_cons_of_ne_nil hne
        obtain ⟨rfl, -⟩ := List.cons_eq_cons.mp heq
        exact hlaid.2.1
    rw [List.map_cons, List.sum_cons] at hsum
    omega

/-- **A frame that is not given back is in the buffer, and beside the room.** -/
theorem Layout.mem (h : b.Layout live) {f : Pcm} (hf : f ∈ live) :
    f.pOutReadPtr + f.psize ≤ b.nAOutBufferTotalSize ∧ 0 < f.psize ∧
      (b.Roomy → f.pOutReadPtr + f.psize ≤ b.pAOutBufferWritePtr ∨
        b.pAOutBufferWritePtr + b.nMaxFrameSizeArox ≤ f.pOutReadPtr) := by
  have htotal := h.total
  have hwrit := h.writ
  rcases h.lies with ⟨hend, hlaid, -⟩ | ⟨hend, ⟨first, second, heq, -, hfirst, hsecond⟩, -⟩
  · obtain ⟨-, hhi, hpos⟩ := hlaid.mem hf
    exact ⟨by omega, hpos, fun _ => Or.inl hhi⟩
  · rw [heq] at hf
    rcases List.mem_append.mp hf with hf | hf
    · obtain ⟨hlo, hhi, hpos⟩ := hfirst.mem hf
      refine ⟨by omega, hpos, fun hroom => Or.inr ?_⟩
      have := hroom.2 hend
      omega
    · obtain ⟨-, hhi, hpos⟩ := hsecond.mem hf
      exact ⟨by omega, hpos, fun _ => Or.inl hhi⟩

theorem layout_flush (h : b.Layout live) : b.flushPcmBuffer.Layout [] where
  total := h.total
  small := h.small
  writ := Nat.zero_le _
  valid := rfl
  lies := by
    refine Or.inl ⟨rfl, rfl, ?_⟩
    have htotal := h.total
    unfold flushPcmBuffer
    dsimp only
    omega

/-- **The end of the ring is skipped.** -/
theorem Layout.skipTail (h : b.Layout live) (hne : live ≠ [])
    (hstraight : b.pAOutPcmEndPtr = b.pAOutBufferEnd + 1) : b.skipTail.Layout live where
  total := h.total
  small := h.small
  writ := Nat.zero_le _
  valid := h.valid
  lies := by
    rcases h.lies with ⟨-, hlaid, hempty⟩ | ⟨hround, -⟩
    · refine Or.inr ⟨h.writ, ⟨live, [], (List.append_nil _).symm, hne, hlaid, rfl⟩, ?_,
        Nat.zero_le _⟩
      unfold OutputPcmBuf.skipTail
      dsimp only
      omega
    · omega

/-- **What a request for room does**: the frames lie as they did, unless there are none; and where
there is room, it is there. -/
theorem Layout.decRequestPcmBuffer (h : b.Layout live) :
    (b.decRequestPcmBuffer.2.Layout live ∧ b.decRequestPcmBuffer.2.frmFifo = b.frmFifo ∨
      live = [] ∧ b.decRequestPcmBuffer.2.Layout [] ∧
        b.decRequestPcmBuffer.2.frmFifo = ⟨noFrames, 0, 0, 0, 0, maxFrameNum⟩) ∧
      b.decRequestPcmBuffer.2.nMaxFrameSizeArox = b.nMaxFrameSizeArox ∧
      ∀ p, b.decRequestPcmBuffer.1 = some p →
        p = b.decRequestPcmBuffer.2.pAOutBufferWritePtr ∧ b.decRequestPcmBuffer.2.Roomy ∧
          b.decRequestPcmBuffer.2.frmFifo.ValidchunkCnt < maxFrameNum := by
  have hroom : ∀ c : OutputPcmBuf, c.room.2 = c := by
    intro c
    unfold room
    split <;> rfl
  have hsome : ∀ (c : OutputPcmBuf) p, c.room.1 = some p →
      p = c.pAOutBufferWritePtr ∧ (c.nMaxFrameSizeArox : Int) < c.nAOutBufferEmptySize := by
    intro c p hp
    unfold room at hp
    split at hp
    · exact ⟨(Option.some.inj hp).symm, ‹_›⟩
    · exact absurd hp nofun
  have hsmall := h.small
  have hwrit := h.writ
  unfold OutputPcmBuf.decRequestPcmBuffer
  split
  · exact ⟨Or.inl ⟨h, rfl⟩, rfl, nofun⟩
  · rename_i hcnt
    have hlt := Nat.lt_of_not_le hcnt
    split
    · rename_i htail
      split
      · rename_i hempty
        -- The ring does not go round here: there is too much room for that.
        have hstraight : b.pAOutPcmEndPtr = b.pAOutBufferEnd + 1 := by
          rcases h.lies with ⟨hend, -⟩ | ⟨hend, ⟨first, second, -, hne, hfirst, -⟩, hsize, -⟩
          · exact hend
          · have := hfirst.lt hne
            omega
        split
        · rename_i hvalid
          obtain rfl := h.eq_nil hvalid
          have hflush := layout_flush h
          rw [hroom]
          refine ⟨Or.inr ⟨rfl, hflush, rfl⟩, rfl, fun p hp => ⟨(hsome _ p hp).1, ⟨?_, ?_⟩,
            maxFrameNum_pos⟩⟩
          · exact Nat.le_trans (Nat.le_of_eq (Nat.zero_add _)) hsmall
          · intro hround
            exact absurd hround (Nat.not_succ_le_self _)
        · rename_i hvalid
          have hne : live ≠ [] := by
            rintro rfl
            exact hvalid h.valid
          have hskip := h.skipTail hne hstraight
          rw [hroom]
          refine ⟨Or.inl ⟨hskip, rfl⟩, rfl, fun p hp => ⟨(hsome _ p hp).1, ⟨?_, ?_⟩, hlt⟩⟩
          · exact Nat.le_trans (Nat.le_of_eq (Nat.zero_add _)) hsmall
          · intro hround
            have henough := (hsome _ p hp).2
            rcases hskip.lies with ⟨hend, -⟩ | ⟨-, -, hsize, -⟩
            · omega
            · omega
      · exact ⟨Or.inl ⟨h, rfl⟩, rfl, nofun⟩
    · rename_i htail
      rw [hroom]
      refine ⟨Or.inl ⟨h, rfl⟩, rfl, fun p hp => ⟨(hsome _ p hp).1, ⟨Nat.le_of_not_lt htail, ?_⟩,
        hlt⟩⟩
      intro hround
      have henough := (hsome _ p hp).2
      rcases h.lies with ⟨hend, -⟩ | ⟨-, -, hsize, -⟩
      · omega
      · omega

/-- **An empty ring has room.** -/
theorem Layout.decRequest_of_nil (h : b.Layout []) (hcnt : b.frmFifo.ValidchunkCnt = 0) :
    ∃ p, b.decRequestPcmBuffer.1 = some p := by
  obtain ⟨hstraight, hempty⟩ := h.straight_of_nil
  have hsmall := h.small
  have hflush := (layout_flush h).straight_of_nil.2
  have hroom : ∀ c : OutputPcmBuf, (c.nMaxFrameSizeArox : Int) < c.nAOutBufferEmptySize →
      c.room.1 = some c.pAOutBufferWritePtr := by
    intro c hc
    unfold room
    rw [if_pos hc]
  have hvalid : b.nAOutBufferValidSize = 0 := h.valid
  have hpos := maxFrameNum_pos
  have hfew : ¬ maxFrameNum ≤ b.frmFifo.ValidchunkCnt := by omega
  have henough : (b.nMaxFrameSizeArox : Int) < b.nAOutBufferEmptySize := by omega
  unfold OutputPcmBuf.decRequestPcmBuffer
  rw [if_neg hfew, if_pos henough, if_pos hvalid]
  split
  · refine ⟨_, hroom _ ?_⟩
    rw [hflush]
    exact Int.lt_add_one_of_le (Int.ofNat_le.mpr hsmall)
  · exact ⟨_, hroom _ henough⟩

end OutputPcmBuf

namespace AudioDecoder

variable {d : AudioDecoder} {live : List Pcm} {n : Nat}

/-- **A frame is decoded** into the room. -/
theorem layout_decUpdate (h : d.ADCedarCtxA.Layout live) (hroom : d.ADCedarCtxA.Roomy)
    (hpos : 0 < n) (hn : n ≤ d.ADCedarCtxA.nMaxFrameSizeArox) :
    (d.decUpdatePcmBuffer n).2.ADCedarCtxA.Layout
      (live ++ [⟨d.ADCedarCtxA.pAOutBufferWritePtr, n⟩]) := by
  have hend := hroom.1
  have hvalid := h.valid
  unfold AudioDecoder.decUpdatePcmBuffer
  dsimp only
  rw [if_neg (Nat.ne_of_gt hpos)]
  refine ⟨h.total, h.small, ?_, ?_, ?_⟩
  · dsimp only
    omega
  · rw [List.map_append, List.sum_append, List.map_singleton, List.sum_singleton]
    dsimp only
    omega
  · rcases h.lies with ⟨hstraight, hlaid, hempty⟩ |
      ⟨hround, ⟨first, second, heq, hne, hfirst, hsecond⟩, hempty, -⟩
    · refine Or.inl ⟨hstraight, hlaid.snoc hpos, ?_⟩
      dsimp only
      omega
    · have hbehind := hroom.2 hround
      refine Or.inr ⟨hround, ⟨first, second ++ [⟨d.ADCedarCtxA.pAOutBufferWritePtr, n⟩], ?_, hne,
        hfirst, hsecond.snoc hpos⟩, ?_, ?_⟩
      · rw [heq, List.append_assoc]
      · dsimp only
        omega
      · dsimp only
        omega

/-- **The frame that was decoded first is given back**, and there is as much room as before. -/
theorem layout_plybkUpdate {f : Pcm} (h : d.ADCedarCtxA.Layout (f :: live)) :
    (d.plybkUpdatePcmBuffer f.psize).ADCedarCtxA.Layout live ∧
      (d.ADCedarCtxA.Roomy → (d.plybkUpdatePcmBuffer f.psize).ADCedarCtxA.Roomy) ∧
      (d.plybkUpdatePcmBuffer f.psize).ADCedarCtxA.pAOutBufferWritePtr =
        d.ADCedarCtxA.pAOutBufferWritePtr ∧
      (d.plybkUpdatePcmBuffer f.psize).ADCedarCtxA.nMaxFrameSizeArox =
        d.ADCedarCtxA.nMaxFrameSizeArox := by
  have hwrit := h.writ
  have hvalid : d.ADCedarCtxA.nAOutBufferValidSize - f.psize =
      ((live.map Pcm.psize).sum : Nat) := by
    have hsum := h.valid
    rw [List.map_cons, List.sum_cons] at hsum
    omega
  unfold AudioDecoder.plybkUpdatePcmBuffer
  dsimp only
  rcases h.lies with ⟨hstraight, ⟨hstart, hpos, hlaid⟩, hempty⟩ |
    ⟨hround, ⟨first, second, heq, hne, hfirst, hsecond⟩, hempty, hle⟩
  · have hbefore := hlaid.le
    rw [if_neg (by omega)]
    refine ⟨⟨h.total, h.small, hwrit, hvalid, Or.inl ⟨hstraight, hlaid, ?_⟩⟩, ?_, rfl, rfl⟩
    · dsimp only
      omega
    · intro hroom
      refine ⟨hroom.1, fun hround => ?_⟩
      dsimp only at hround
      omega
  · obtain ⟨g, gs, rfl⟩ := List.exists_cons_of_ne_nil hne
    obtain ⟨rfl, hlive⟩ := List.cons_eq_cons.mp heq
    obtain ⟨hstart, hpos, hlaid⟩ := hfirst
    by_cases hgs : gs = []
    · -- It was the last frame before the end, and the ring does not go round any more.
      subst hgs
      have hreach : d.ADCedarCtxA.pAOutBufferReadPtr + f.psize = d.ADCedarCtxA.pAOutPcmEndPtr :=
        hlaid
      have hlive : live = second := hlive
      rw [if_pos (by omega), hreach, Nat.sub_self, hlive]
      rw [hlive] at hvalid
      refine ⟨⟨h.total, h.small, hwrit, hvalid, Or.inl ⟨rfl, hsecond, ?_⟩⟩, ?_, rfl, rfl⟩
      · dsimp only
        omega
      · intro hroom
        refine ⟨hroom.1, fun hround => ?_⟩
        dsimp only at hround
        omega
    · have hbefore := hlaid.lt hgs
      rw [if_neg (by omega)]
      refine ⟨⟨h.total, h.small, hwrit, hvalid,
        Or.inr ⟨hround, ⟨gs, second, hlive, hgs, hlaid, hsecond⟩, ?_, ?_⟩⟩, ?_, rfl, rfl⟩
      · dsimp only
        omega
      · dsimp only
        omega
      · intro hroom
        refine ⟨hroom.1, fun hround => ?_⟩
        have hbehind := hroom.2 hround
        dsimp only
        omega

end AudioDecoder

/-! ## The records -/

/-- An index goes to the next slot. -/
theorem next_idx {k : Nat} (hk : k < maxFrameNum) :
    (if maxFrameNum ≤ k + 1 then 0 else k + 1) = (k + 1) % maxFrameNum := by
  split
  · have hlast : k + 1 = maxFrameNum := Nat.le_antisymm hk ‹_›
    rw [hlast, Nat.mod_self]
  · rw [Nat.mod_eq_of_lt (Nat.lt_of_not_le ‹_›)]

/-- A whole frame is dropped. -/
theorem dropFrames_one {i : BsInFor} {s : AStreamFifo} {cnt : Nat}
    (hpos : 0 < (s.inFrames s.rdIdx).len) (hwhole : (s.inFrames s.rdIdx).readlen = 0)
    (hrd : s.rdIdx < maxFrameNum) :
    dropFrames i (cnt + 1) s (s.inFrames s.rdIdx).len =
      { s with ValidchunkCnt := cnt, rdIdx := (s.rdIdx + 1) % maxFrameNum } := by
  have hlast : ∀ s', dropFrames i cnt s' 0 = s' := by
    intro s'
    cases cnt with
    | zero => rfl
    | succ cnt => rw [dropFrames, if_pos rfl]
  have hidx : (maxFrameNum - 1 < s.rdIdx + 1) = (maxFrameNum ≤ s.rdIdx + 1) := by
    have := maxFrameNum_pos
    exact propext ⟨fun h => by omega, fun h => by omega⟩
  rw [dropFrames, if_neg (Nat.ne_of_gt hpos)]
  dsimp only
  rw [hwhole, Nat.sub_zero, if_pos (Nat.le_refl _), Nat.sub_self, hlast]
  simp only [hidx, next_idx hrd]

end Maixii.AudioLib
