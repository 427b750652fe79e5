import Maixii.AudioLib.PcmLayout
import Maixii.Lib.Zones

/-!
# `AudioLib/PcmPlayback.lean`: decoding and playing

The frames lie in the ring as `AudioLib/PcmLayout.lean` says. Their records are one of three zones
(`Lib/Zones.lean`); it starts anew where the ring is flushed. **All this holds in every run**
(`Ringed`). But when the records are all used and none has been requested, the player is refused as
if all had been, and the decoder is refused too, for good (`Stuck`): so the ring can be played **if
and only if the last record is not used while the player holds nothing**.
-/

set_option autoImplicit false

namespace Maixii.AudioLib

open Maixii.Lib

/-! ## Runs -/

namespace DecWorld

/-- **The frames and their records**: `gone` are the frames before the last flush, and `places` says
where the player has what he holds. -/
structure Ringed (w : DecWorld) (gone all : List Pcm) (out : Nat) (places : List (Nat × Pcm)) :
    Prop where
  decoded : w.decoded = gone ++ all
  given : w.given = gone ++ all.take out
  held : w.held = places.map Prod.snd
  zones : Zones maxFrameNum (fun i => (w.dec.ADCedarCtxA.frmFifo.inFrames i).pcm) all out places
  cnt : w.dec.ADCedarCtxA.frmFifo.ValidchunkCnt + out = all.length
  rd : w.dec.ADCedarCtxA.frmFifo.rdIdx = out % maxFrameNum
  prefetch : w.dec.ADCedarCtxA.frmFifo.prefetchIdx = (out + places.length) % maxFrameNum
  wt : w.dec.ADCedarCtxA.frmFifo.wtIdx = all.length % maxFrameNum
  max : w.dec.ADCedarCtxA.frmFifo.maxchunkNum = maxFrameNum
  whole : ∀ i, (w.dec.ADCedarCtxA.frmFifo.inFrames i).readlen = 0
  layout : w.dec.ADCedarCtxA.Layout (all.drop out)
  busy : ∀ p, w.decoding = some p → p = w.dec.ADCedarCtxA.pAOutBufferWritePtr ∧
    w.dec.ADCedarCtxA.Roomy ∧ w.dec.ADCedarCtxA.frmFifo.ValidchunkCnt < maxFrameNum

theorem ringed_init (ape : Bool) (ape_file_num : Int) (pBsInFor : BsInFor) :
    (init (initializeAudioDecoder ape ape_file_num pBsInFor)).Ringed [] [] 0 [] where
  decoded := rfl
  given := rfl
  held := rfl
  zones := zones_nil maxFrameNum_pos
  cnt := rfl
  rd := rfl
  prefetch := rfl
  wt := rfl
  max := rfl
  whole _ := rfl
  layout := by
    unfold init initializeAudioDecoder
    dsimp only
    cases ape && decide (ape_file_num < 3930) with
    | false => exact ⟨rfl, by decide, Nat.zero_le _, rfl, Or.inl ⟨rfl, rfl, by decide⟩⟩
    | true => exact ⟨rfl, by decide, Nat.zero_le _, rfl, Or.inl ⟨rfl, rfl, by decide⟩⟩
  busy p hp := by simp [init] at hp

/-- **All records are used and none is requested**: for the player this is as if all were. -/
def Stuck (w : DecWorld) : Prop :=
  w.dec.ADCedarCtxA.frmFifo.ValidchunkCnt = maxFrameNum ∧ w.held = []

section

variable {w : DecWorld} {gone all : List Pcm} {out : Nat} {places : List (Nat × Pcm)}

theorem Ringed.length_held (h : w.Ringed gone all out places) :
    w.held.length = places.length := by rw [h.held, List.length_map]

/-- There are frames and records for them. -/
def Consistent (w : DecWorld) : Prop := ∃ gone all out places, w.Ringed gone all out places

theorem call_decRequest {p : Option Nat} {b : OutputPcmBuf} (hdec : w.decoding = none)
    (hb : w.dec.ADCedarCtxA.decRequestPcmBuffer = (p, b)) :
    (w.call .decRequestPcmBuffer).2 = { w with dec.ADCedarCtxA := b, decoding := p } := by
  unfold DecWorld.call
  rw [hdec]
  dsimp only
  rw [hb]
  cases p with
  | none => rfl
  | some p => rfl

theorem call_decUpdate {p n : Nat} (hdec : w.decoding = some p) (hn : n ≤ w.maxSize) :
    (w.call (.decUpdatePcmBuffer n)).2 =
      { w with
        dec := (w.dec.decUpdatePcmBuffer n).2
        decoding := none
        decoded := if n = 0 then w.decoded else w.decoded ++ [⟨p, n⟩] } := by
  unfold DecWorld.call
  rw [hdec]
  dsimp only
  rw [if_neg (Nat.not_lt.mpr hn)]

/-- **Room for a frame is requested.** -/
theorem Ringed.decRequestPcmBuffer (h : w.Ringed gone all out places) :
    (w.call .decRequestPcmBuffer).2.Consistent ∧
      ((w.call .decRequestPcmBuffer).2.Stuck → w.Stuck) := by
  cases hdec : w.decoding with
  | some p =>
    unfold DecWorld.call
    rw [hdec]
    exact ⟨⟨_, _, _, _, h⟩, id⟩
  | none =>
    obtain ⟨hlayout, -, hroom⟩ := h.layout.decRequestPcmBuffer
    obtain ⟨p, b, hb⟩ : ∃ p b, w.dec.ADCedarCtxA.decRequestPcmBuffer = (p, b) := ⟨_, _, rfl⟩
    rw [hb] at hlayout hroom
    rw [call_decRequest hdec hb]
    rcases hlayout with ⟨hlayout, hfifo⟩ | ⟨hnil, hlayout, hfifo⟩
    · dsimp only at hfifo
      refine ⟨⟨gone, all, out, places, h.decoded, h.given, h.held, ?_, ?_, ?_, ?_, ?_, ?_, ?_,
        hlayout, hroom⟩, ?_⟩
      · simpa only [hfifo] using h.zones
      · simpa only [hfifo] using h.cnt
      · simpa only [hfifo] using h.rd
      · simpa only [hfifo] using h.prefetch
      · simpa only [hfifo] using h.wt
      · simpa only [hfifo] using h.max
      · simpa only [hfifo] using h.whole
      · unfold Stuck
        dsimp only
        rw [hfifo]
        exact id
    · -- Nothing is left that is not given back, and all begins anew.
      dsimp only at hfifo
      have hle := h.zones.le
      have hshort := List.drop_eq_nil_iff.mp hnil
      have hplaces : places = [] := List.eq_nil_of_length_eq_zero (by omega)
      refine ⟨⟨gone ++ all, [], 0, [], ?_, ?_, ?_, zones_nil maxFrameNum_pos, ?_, ?_, ?_, ?_, ?_,
        ?_, hlayout, hroom⟩, ?_⟩
      · dsimp only
        rw [h.decoded, List.append_nil]
      · dsimp only
        rw [h.given, List.take_of_length_le hshort, List.take_nil, List.append_nil]
      · dsimp only
        rw [h.held, hplaces]
      · dsimp only
        rw [hfifo]
        rfl
      · dsimp only
        rw [hfifo]
        rfl
      · dsimp only
        rw [hfifo]
        rfl
      · dsimp only
        rw [hfifo]
        rfl
      · dsimp only
        rw [hfifo]
      · dsimp only
        rw [hfifo]
        exact fun _ => rfl
      · unfold Stuck
        dsimp only
        rw [hfifo]
        intro hstuck
        exact absurd hstuck.1.symm (Nat.ne_of_gt maxFrameNum_pos)

/-- **A frame is decoded**, and has the next record. -/
theorem Ringed.decUpdatePcmBuffer (h : w.Ringed gone all out places) {p n : Nat}
    (hdec : w.decoding = some p) (hn : n ≤ w.maxSize) (hpos : 0 < n) :
    (w.call (.decUpdatePcmBuffer n)).2.Ringed gone (all ++ [⟨p, n⟩]) out places ∧
      (w.call (.decUpdatePcmBuffer n)).2.held = w.held ∧
      (w.call (.decUpdatePcmBuffer n)).2.dec.ADCedarCtxA.frmFifo.ValidchunkCnt =
        w.dec.ADCedarCtxA.frmFifo.ValidchunkCnt + 1 := by
  obtain ⟨hp, hroom, hfew⟩ := h.busy p hdec
  have hlayout := AudioDecoder.layout_decUpdate h.layout hroom hpos hn
  have hle := h.zones.le
  have hcnt := h.cnt
  have hne : n ≠ 0 := Nat.ne_of_gt hpos
  have hout : out ≤ all.length := by omega
  have hgrows : (all ++ [(⟨p, n⟩ : Pcm)]).length = all.length + 1 := List.length_append
  rw [call_decUpdate hdec hn]
  dsimp only
  rw [if_neg hne]
  unfold AudioDecoder.decUpdatePcmBuffer at hlayout ⊢
  dsimp only at hlayout ⊢
  rw [if_neg hne] at hlayout ⊢
  refine ⟨⟨?_, ?_, h.held, ?_, ?_, h.rd, h.prefetch, ?_, h.max, ?_, ?_, ?_⟩, rfl, rfl⟩
  · dsimp only
    rw [h.decoded, List.append_assoc]
  · dsimp only
    rw [h.given, List.take_append_of_le_length hout]
  · apply h.zones.put (by omega)
    · dsimp only
      rw [← h.wt, if_pos rfl, hp]
      exact congrArg (Pcm.mk · n) (Nat.add_sub_cancel _ _)
    · intro i hi
      rw [← h.wt] at hi
      dsimp only
      rw [if_neg hi]
  · dsimp only
    omega
  · dsimp only
    rw [next_idx (by rw [h.wt]; exact Nat.mod_lt _ maxFrameNum_pos), h.wt, Nat.mod_add_mod, hgrows]
  · intro i
    dsimp only
    split
    · rfl
    · exact h.whole i
  · rw [List.drop_append_of_le_length hout, hp]
    exact hlayout
  · intro q hq
    exact absurd hq nofun

/-- The indices of the records are in order. -/
theorem Ringed.inOrder (h : w.Ringed gone all out places) (hsome : out < all.length) :
    w.dec.ADCedarCtxA.frmFifo.inOrder = true := by
  have hcnt := h.cnt
  have hle := h.zones.le
  have hfull := h.zones.length_le
  unfold AStreamFifo.inOrder
  by_cases hall : w.dec.ADCedarCtxA.frmFifo.ValidchunkCnt = maxFrameNum
  · have hsame : w.dec.ADCedarCtxA.frmFifo.wtIdx = w.dec.ADCedarCtxA.frmFifo.rdIdx := by
      rw [h.wt, h.rd, show all.length = out + maxFrameNum by omega, Nat.add_mod_right]
    rw [hsame, if_neg (Nat.lt_irrefl _), if_neg (Nat.lt_irrefl _), h.max]
    exact decide_eq_true hall
  · obtain ⟨hne, hup, hdown⟩ := ring_between (h := places.length) (u := all.length - out)
      h.zones.window.front_lt (by omega) (by omega) (by omega)
    rw [Nat.mod_add_mod, Nat.add_sub_cancel' (by omega), ← h.rd, ← h.wt] at hne hup hdown
    rw [h.rd, Nat.mod_add_mod, ← h.prefetch, ← h.rd] at hup hdown
    split
    · exact decide_eq_true (hup ‹_›)
    · split
      · exact decide_eq_true (hdown ‹_›)
      · omega

/-- **A frame that waits is given out**, unless the records are all used and none is requested. -/
theorem Ringed.request (h : w.Ringed gone all out places)
    (hwaits : out + places.length < all.length) (hstuck : ¬ w.Stuck) :
    (w.call .plybkRequestPcmBuffer).1 = 0 ∧
      (w.call .plybkRequestPcmBuffer).2.Consistent ∧
      ¬ (w.call .plybkRequestPcmBuffer).2.Stuck := by
  have hcnt := h.cnt
  have hfull := h.zones.length_le
  have hlive : all.drop out ≠ [] := by
    rw [ne_eq, List.drop_eq_nil_iff]
    omega
  have hvalid : ¬ w.dec.ADCedarCtxA.nAOutBufferValidSize ≤ 0 := by
    intro hnone
    have hsum := h.layout.valid
    exact hlive (h.layout.eq_nil (by omega))
  have hne : w.dec.ADCedarCtxA.frmFifo.prefetchIdx ≠ w.dec.ADCedarCtxA.frmFifo.wtIdx := by
    rw [h.prefetch, h.wt]
    by_cases hall : w.dec.ADCedarCtxA.frmFifo.ValidchunkCnt = maxFrameNum
    · -- The ring is full, and some frame of it is requested.
      have hheld : places.length ≠ 0 := by
        intro hnone
        exact hstuck ⟨hall, List.eq_nil_of_length_eq_zero (h.length_held.trans hnone)⟩
      rw [show all.length = out + 0 + maxFrameNum by omega, Nat.add_mod_right]
      intro heq
      exact hheld (ring_inj (by omega) maxFrameNum_pos heq)
    · exact h.zones.next_ne (by omega) (Nat.le_add_right _ _) hwaits
  have hzero : w.dec.ADCedarCtxA.frmFifo.ValidchunkCnt ≠ 0 := by omega
  unfold DecWorld.call OutputPcmBuf.plybkRequestPcmBuffer
  dsimp only
  rw [if_neg hvalid, if_neg hzero, if_neg (by rw [h.inOrder (by omega)]; exact not_not_intro rfl),
    if_neg hne]
  have hlayout := h.layout
  refine ⟨rfl, ⟨gone, all, out, _, h.decoded, h.given, ?_, h.zones.take hwaits, h.cnt, h.rd, ?_,
    h.wt, h.max, h.whole, ⟨hlayout.total, hlayout.small, hlayout.writ, hlayout.valid,
    hlayout.lies⟩, h.busy⟩, ?_⟩
  · dsimp only
    rw [h.held, List.map_append, ← h.prefetch]
    rfl
  · dsimp only
    rw [h.prefetch, Nat.mod_add_mod, List.length_append, List.length_singleton, Nat.add_assoc]
  · intro hnext
    exact List.append_ne_nil_of_right_ne_nil _ (List.cons_ne_nil _ _) hnext.2

/-- Otherwise the player is refused. -/
theorem Ringed.refused (h : w.Ringed gone all out places)
    (hnone : all.length = out + places.length ∨ w.Stuck) :
    w.call .plybkRequestPcmBuffer = (-1, w) := by
  have heq : w.dec.ADCedarCtxA.frmFifo.prefetchIdx = w.dec.ADCedarCtxA.frmFifo.wtIdx := by
    rw [h.prefetch, h.wt]
    rcases hnone with hnone | ⟨hall, hheld⟩
    · rw [hnone]
    · have hcnt := h.cnt
      have hlen := h.length_held
      rw [hheld, List.length_nil] at hlen
      rw [show all.length = out + places.length + maxFrameNum by omega, Nat.add_mod_right]
  have hsame : w.dec.ADCedarCtxA.plybkRequestPcmBuffer = (none, w.dec.ADCedarCtxA) := by
    unfold OutputPcmBuf.plybkRequestPcmBuffer
    dsimp only
    rw [if_pos heq, ite_self, ite_self, ite_self]
  unfold DecWorld.call
  dsimp only
  rw [hsame]

/-- **The frame that is held longest is given back.** -/
theorem Ringed.plybkUpdatePcmBuffer (h : w.Ringed gone all out places) :
    (w.call .plybkUpdatePcmBuffer).2.Consistent ∧
      ((w.call .plybkUpdatePcmBuffer).2.Stuck → w.Stuck) := by
  cases hplaces : places with
  | nil =>
    have hheld : w.held = [] := by rw [h.held, hplaces, List.map_nil]
    unfold DecWorld.call
    rw [hheld]
    exact ⟨⟨_, _, _, _, h⟩, id⟩
  | cons x rest =>
    have hheld : w.held = x.2 :: rest.map Prod.snd := by rw [h.held, hplaces, List.map_cons]
    have hzones := h.zones
    rw [hplaces] at hzones
    obtain ⟨hat, hslot⟩ := hzones.give_eq
    have hout := (List.getElem?_eq_some_iff.mp hat).1
    have hcnt := h.cnt
    have hlive : all.drop out = x.2 :: all.drop (out + 1) := by
      rw [List.drop_eq_getElem_cons hout]
      rw [List.getElem?_eq_getElem hout] at hat
      rw [Option.some.inj hat]
    have hlayout := h.layout
    rw [hlive] at hlayout
    obtain ⟨hafter, hroomy, hwrit, hmax⟩ := AudioDecoder.layout_plybkUpdate hlayout
    have hpcm : (w.dec.ADCedarCtxA.frmFifo.inFrames w.dec.ADCedarCtxA.frmFifo.rdIdx).pcm = x.2 := by
      rw [h.rd, ← hslot]
      exact hzones.intact x List.mem_cons_self
    have hsize : x.2.psize =
        (w.dec.ADCedarCtxA.frmFifo.inFrames w.dec.ADCedarCtxA.frmFifo.rdIdx).len := by
      rw [← hpcm]
      rfl
    obtain ⟨k, hk⟩ : ∃ k, w.dec.ADCedarCtxA.frmFifo.ValidchunkCnt = k + 1 :=
      ⟨_, (Nat.succ_pred_eq_of_pos (by omega)).symm⟩
    have hpos : 0 < x.2.psize := (hlayout.mem List.mem_cons_self).2.1
    have hfifo : (w.dec.plybkUpdatePcmBuffer x.2.psize).ADCedarCtxA.frmFifo =
        { w.dec.ADCedarCtxA.frmFifo with
          ValidchunkCnt := k
          rdIdx := (w.dec.ADCedarCtxA.frmFifo.rdIdx + 1) % maxFrameNum } := by
      have hdrop : dropFrames w.dec.pBsInFor (k + 1) w.dec.ADCedarCtxA.frmFifo
          (w.dec.ADCedarCtxA.frmFifo.inFrames w.dec.ADCedarCtxA.frmFifo.rdIdx).len =
          { w.dec.ADCedarCtxA.frmFifo with
            ValidchunkCnt := k
            rdIdx := (w.dec.ADCedarCtxA.frmFifo.rdIdx + 1) % maxFrameNum } :=
        dropFrames_one (by rwa [← hsize]) (h.whole w.dec.ADCedarCtxA.frmFifo.rdIdx)
          (by rw [h.rd]; exact Nat.mod_lt _ maxFrameNum_pos)
      rw [← hsize] at hdrop
      unfold AudioDecoder.plybkUpdatePcmBuffer
      dsimp only
      rw [← hdrop, ← hk]
      split <;> rfl
    have hone : out + (rest.length + 1) = out + 1 + rest.length := by omega
    unfold DecWorld.call
    rw [hheld]
    dsimp only
    refine ⟨⟨gone, all, out + 1, rest, h.decoded, ?_, rfl, ?_, ?_, ?_, ?_, ?_, ?_, ?_, hafter, ?_⟩,
      ?_⟩
    · dsimp only
      rw [h.given, hzones.take_add_one, List.append_assoc]
    · simpa only [hfifo] using hzones.give
    · dsimp only
      rw [hfifo]
      dsimp only
      omega
    · dsimp only
      rw [hfifo, h.rd]
      exact Nat.mod_add_mod _ _ _
    · dsimp only
      rw [hfifo, ← hone, ← List.length_cons, ← hplaces]
      exact h.prefetch
    · simpa only [hfifo] using h.wt
    · simpa only [hfifo] using h.max
    · simpa only [hfifo] using h.whole
    · intro p hp
      obtain ⟨hwp, hroom, hfew⟩ := h.busy p hp
      refine ⟨hwp.trans hwrit.symm, hroomy hroom, ?_⟩
      dsimp only
      rw [hfifo]
      dsimp only
      omega
    · intro hstuck
      have hfull := hstuck.1
      have hlength := h.zones.length_le
      dsimp only at hfull
      rw [hfifo] at hfull
      dsimp only at hfull
      omega

theorem Consistent.call (h : w.Consistent) (c : PcmCall) : (w.call c).2.Consistent := by
  obtain ⟨gone, all, out, places, h⟩ := h
  cases c with
  | decRequestPcmBuffer => exact h.decRequestPcmBuffer.1
  | decUpdatePcmBuffer n =>
    cases hdec : w.decoding with
    | none =>
      unfold DecWorld.call
      rw [hdec]
      exact ⟨_, _, _, _, h⟩
    | some p =>
      by_cases hn : w.maxSize < n
      · unfold DecWorld.call
        rw [hdec]
        dsimp only
        rw [if_pos hn]
        exact ⟨_, _, _, _, h⟩
      · cases n with
        | zero =>
          unfold DecWorld.call
          rw [hdec]
          exact ⟨gone, all, out, places, h.decoded, h.given, h.held, h.zones, h.cnt, h.rd,
            h.prefetch, h.wt, h.max, h.whole, h.layout, nofun⟩
        | succ n =>
          exact ⟨_, _, _, _,
            (h.decUpdatePcmBuffer hdec (Nat.le_of_not_lt hn) (Nat.succ_pos n)).1⟩
  | plybkRequestPcmBuffer =>
    by_cases hwaits : out + places.length < all.length ∧ ¬ w.Stuck
    · exact (h.request hwaits.1 hwaits.2).2.1
    · have hle := h.zones.le
      rw [h.refused]
      · exact ⟨_, _, _, _, h⟩
      · by_cases hstuck : w.Stuck
        · exact Or.inr hstuck
        · have hnone : ¬ out + places.length < all.length := fun hlt => hwaits ⟨hlt, hstuck⟩
          exact Or.inl (by omega)
  | plybkUpdatePcmBuffer => exact h.plybkUpdatePcmBuffer.1

theorem consistent_answers (h : w.Consistent) (calls : List PcmCall) :
    (answers DecWorld.call w calls).2.Consistent := by
  induction calls generalizing w with
  | nil => exact h
  | cons c calls ih => exact ih (h.call c)

/-- **The last record is not used while the player holds nothing.** -/
def Keeps (w : DecWorld) (c : PcmCall) : Prop :=
  ∀ n, c = .decUpdatePcmBuffer n → w.decoding ≠ none → 0 < n → n ≤ w.maxSize → w.held = [] →
    w.dec.ADCedarCtxA.frmFifo.ValidchunkCnt + 1 ≠ maxFrameNum

theorem Consistent.not_stuck (h : w.Consistent) (hstuck : ¬ w.Stuck) {c : PcmCall}
    (hc : w.Keeps c) : ¬ (w.call c).2.Stuck := by
  obtain ⟨gone, all, out, places, h⟩ := h
  cases c with
  | decRequestPcmBuffer => exact fun hnext => hstuck (h.decRequestPcmBuffer.2 hnext)
  | decUpdatePcmBuffer n =>
    cases hdec : w.decoding with
    | none =>
      unfold DecWorld.call
      rw [hdec]
      exact hstuck
    | some p =>
      by_cases hn : w.maxSize < n
      · unfold DecWorld.call
        rw [hdec]
        dsimp only
        rw [if_pos hn]
        exact hstuck
      · cases n with
        | zero =>
          unfold DecWorld.call
          rw [hdec]
          exact hstuck
        | succ n =>
          have hle := Nat.le_of_not_lt hn
          obtain ⟨-, hheld, hcnt⟩ := h.decUpdatePcmBuffer hdec hle (Nat.succ_pos n)
          rintro ⟨hfull, hnone⟩
          refine hc _ rfl (by rw [hdec]; exact nofun) (Nat.succ_pos n) hle (hheld ▸ hnone) ?_
          rw [← hcnt]
          exact hfull
  | plybkRequestPcmBuffer =>
    by_cases hwaits : out + places.length < all.length
    · exact (h.request hwaits hstuck).2.2
    · have hle := h.zones.le
      rw [h.refused (Or.inl (by omega))]
      exact hstuck
  | plybkUpdatePcmBuffer => exact fun hnext => hstuck (h.plybkUpdatePcmBuffer.2 hnext)

theorem Consistent.stuck (h : w.Consistent) {c : PcmCall} (hc : ¬ w.Keeps c) :
    (w.call c).2.Stuck := by
  obtain ⟨gone, all, out, places, h⟩ := h
  unfold Keeps at hc
  push Not at hc
  obtain ⟨n, rfl, hdec, hpos, hn, hheld, hlast⟩ := hc
  obtain ⟨p, hp⟩ := Option.ne_none_iff_exists'.mp hdec
  obtain ⟨-, hsame, hcnt⟩ := h.decUpdatePcmBuffer hp hn hpos
  exact ⟨hcnt.trans hlast, hsame.trans hheld⟩

/-! ## Decoder and player -/

/-- **Frames with records for them can be played**, unless the run is stuck. -/
theorem Consistent.playable (h : w.Consistent) (hstuck : ¬ w.Stuck) : w.Playable := by
  obtain ⟨gone, all, out, places, h⟩ := h
  have hcnt := h.cnt
  have hle := h.zones.le
  have hlen := h.length_held
  have hn : out + places.length +
      (w.dec.ADCedarCtxA.frmFifo.ValidchunkCnt - w.held.length) = all.length := by omega
  have hwaiting : w.waiting = all.drop (out + places.length) := by
    rw [← h.zones.waiting_eq hn]
    unfold waiting
    dsimp only
    rw [h.prefetch]
    simp only [Nat.mod_add_mod]
  have hlive : w.live = all.drop out := by
    unfold live
    rw [h.held, h.zones.held_eq, hwaiting, ← List.drop_drop, List.take_append_drop]
  have htotal := h.layout.total
  constructor
  · intro p hp
    obtain ⟨rfl, hroom, -⟩ := h.busy p hp
    refine ⟨?_, fun f hf => ?_⟩
    · rw [htotal]
      exact Nat.le_trans hroom.1 (Nat.le_succ _)
    · rw [hlive] at hf
      exact (h.layout.mem hf).2.2 hroom
  · intro f hf
    rw [hlive] at hf
    exact (h.layout.mem hf).1
  · rw [h.decoded, h.given, List.append_assoc (gone ++ _), ← live, hlive, List.append_assoc,
      List.take_append_drop]
  · rw [hlive]
    exact h.layout.valid
  · intro hsome
    refine (h.request ?_ hstuck).1
    rw [hwaiting, ne_eq, List.drop_eq_nil_iff] at hsome
    omega
  · intro hdec hnone
    have hlayout := h.layout
    rw [← hlive, hnone] at hlayout
    rw [hlive, List.drop_eq_nil_iff] at hnone
    obtain ⟨p, hp⟩ := hlayout.decRequest_of_nil (by omega)
    obtain ⟨b, hb⟩ : ∃ b, w.dec.ADCedarCtxA.decRequestPcmBuffer = (some p, b) :=
      ⟨_, Prod.ext hp rfl⟩
    unfold DecWorld.call
    rw [hdec]
    dsimp only
    rw [hb]

/-- The player is refused while all frames wait. -/
theorem Consistent.not_playable (h : w.Consistent) (hstuck : w.Stuck) : ¬ w.Playable := by
  obtain ⟨gone, all, out, places, h⟩ := h
  intro hplay
  have hwaits : w.waiting ≠ [] := by
    intro hnone
    have hlength := congrArg List.length hnone
    unfold waiting at hlength
    dsimp only at hlength
    rw [List.length_map, List.length_range, hstuck.1, hstuck.2] at hlength
    exact absurd hlength (Nat.ne_of_gt maxFrameNum_pos)
  have hok := hplay.requestable hwaits
  rw [h.refused (Or.inr hstuck)] at hok
  exact absurd hok (show (-1 : Int) ≠ 0 by decide)

/-- **Decoder and player share the ring of PCM in every state of a run when the run does not use the
last record while the player holds nothing**, and only then. When all records are used and none has
been requested, the player is refused as if all had been, and the decoder for want of a record, so
that neither goes on; bytes and records are in order even then, and what fails is that a waiting
frame can be requested. -/
theorem pcm_ring_is_playable (ape : Bool) (ape_file_num : Int) (pBsInFor : BsInFor)
    (calls : List PcmCall) :
    Always DecWorld.call Playable (init (initializeAudioDecoder ape ape_file_num pBsInFor)) calls ↔
      Guarded DecWorld.call Keeps (init (initializeAudioDecoder ape ape_file_num pBsInFor))
        calls := by
  have hinit : (init (initializeAudioDecoder ape ape_file_num pBsInFor)).Consistent ∧
      ¬ (init (initializeAudioDecoder ape ape_file_num pBsInFor)).Stuck :=
    ⟨⟨_, _, _, _, ringed_init ape ape_file_num pBsInFor⟩,
      fun hstuck => absurd hstuck.1.symm (Nat.ne_of_gt maxFrameNum_pos)⟩
  constructor
  · apply guarded_of_always (Q := fun w => w.Consistent ∧ ¬ w.Stuck) hinit
    · rintro w c ⟨h, hstuck⟩ hc
      exact ⟨h.call c, h.not_stuck hstuck hc⟩
    · rintro w c ⟨h, -⟩ hc
      exact (h.call c).not_playable (h.stuck hc)
  · apply always_of_guarded (Q := fun w => w.Consistent ∧ ¬ w.Stuck) hinit
    · rintro w c ⟨h, hstuck⟩ hc
      exact ⟨h.call c, h.not_stuck hstuck hc⟩
    · rintro w ⟨h, hstuck⟩
      exact h.playable hstuck

/-- Frames of one byte are decoded, and none is requested. -/
def fill : Nat → List PcmCall
  | 0 => []
  | k + 1 => fill k ++ [.decRequestPcmBuffer, .decUpdatePcmBuffer 1]

/-- What the ring is then. -/
structure Filled (k : Nat) (w : DecWorld) : Prop where
  decoding : w.decoding = none
  held : w.held = []
  cnt : w.dec.ADCedarCtxA.frmFifo.ValidchunkCnt = k
  prefetch : w.dec.ADCedarCtxA.frmFifo.prefetchIdx = 0
  wt : w.dec.ADCedarCtxA.frmFifo.wtIdx = k % maxFrameNum
  writ : w.dec.ADCedarCtxA.pAOutBufferWritePtr = k
  empty : w.dec.ADCedarCtxA.nAOutBufferEmptySize = audioPcmBufferSize - k
  last : w.dec.ADCedarCtxA.pAOutBufferEnd = audioPcmBufferSize - 1
  size : w.dec.ADCedarCtxA.nMaxFrameSizeArox = maxAudioFrameSize

theorem Filled.next {k : Nat} (h : w.Filled k) (hk : k < maxFrameNum) :
    (answers DecWorld.call w [.decRequestPcmBuffer, .decUpdatePcmBuffer 1]).2.Filled (k + 1) := by
  have hlast := h.last
  have hsize := h.size
  have hwrit := h.writ
  have hempty := h.empty
  have hmany := h.cnt
  have hroom : w.dec.ADCedarCtxA.decRequestPcmBuffer =
      (some w.dec.ADCedarCtxA.pAOutBufferWritePtr, w.dec.ADCedarCtxA) := by
    unfold maxFrameNum at hk
    unfold audioPcmBufferSize at hlast hempty
    unfold maxAudioFrameSize at hsize
    unfold OutputPcmBuf.decRequestPcmBuffer OutputPcmBuf.room maxFrameNum
    rw [if_neg (by omega), if_neg (by omega), if_pos (by omega)]
  rw [answers, answers, answers]
  dsimp only
  have hone : 1 ≤ w.maxSize := by
    rw [maxSize, hsize]
    decide
  rw [call_decRequest h.decoding hroom, call_decUpdate (w := { w with
    dec.ADCedarCtxA := w.dec.ADCedarCtxA
    decoding := some w.dec.ADCedarCtxA.pAOutBufferWritePtr }) rfl hone]
  unfold AudioDecoder.decUpdatePcmBuffer
  dsimp only
  rw [if_neg (by decide)]
  refine ⟨rfl, h.held, congrArg (· + 1) hmany, h.prefetch, ?_, congrArg (· + 1) hwrit, ?_, hlast,
    hsize⟩
  · dsimp only
    rw [h.wt, Nat.mod_eq_of_lt hk, next_idx hk]
  · dsimp only
    omega

theorem filled {k : Nat} (hk : k ≤ maxFrameNum) (pBsInFor : BsInFor) :
    (answers DecWorld.call (init (initializeAudioDecoder false 0 pBsInFor)) (fill k)).2.Filled k := by
  induction k with
  | zero => exact ⟨rfl, rfl, rfl, rfl, rfl, rfl, rfl, rfl, rfl⟩
  | succ k ih =>
    rw [fill, answers_append]
    exact (ih (Nat.le_of_succ_le hk)).next hk

/-- When all records are used so, the player is refused the first of the frames. -/
theorem not_always_fill {k : Nat} (hk : k = maxFrameNum) (pBsInFor : BsInFor) :
    ¬ Always DecWorld.call Playable (init (initializeAudioDecoder false 0 pBsInFor)) (fill k) := by
  intro halways
  have hfilled := filled (Nat.le_of_eq hk) pBsInFor
  have hconsistent := consistent_answers ⟨_, _, _, _, ringed_init false 0 pBsInFor⟩ (fill k)
  exact hconsistent.not_playable ⟨hfilled.cnt.trans hk, hfilled.held⟩ halways.last

theorem pcm_ring_gets_stuck :
    ¬ Always DecWorld.call Playable (init (initializeAudioDecoder false 0 ⟨0, 16, 2, 44100⟩))
      (fill maxFrameNum) :=
  not_always_fill rfl ⟨0, 16, 2, 44100⟩

end

end DecWorld

end Maixii.AudioLib
