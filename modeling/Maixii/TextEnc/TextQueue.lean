import Maixii.Lib.Zones
import Maixii.TextEnc.TextEncApi

/-!
# `TextEnc/TextQueue.lean`: the output queue of the text encoder

The second ring is one of three zones (`Lib/Zones.lean`), and its numbers say how many packets have
been encoded, requested and released (`Numbered`). Every call keeps that
but one: `ReturnTextEncBuf` takes `read_id` back and leaves `prefetch_cnt` as it is. **The output is
one queue in every run without it, and in no other** (`text_queue`).
-/

set_option autoImplicit false

namespace Maixii.TextEnc

open Maixii.Lib

theorem packetCnt_pos : 0 < packetCnt := by decide

namespace World

/-- Where a packet is that is held, and what it is. -/
def places (w : World) : List (Nat × EncPacket) := w.held.map fun h => (h.outbuf, h.packet)

/-- **What the numbers say.** -/
structure Numbered (w : World) : Prop where
  zones : Zones packetCnt w.mgr.out_buf_mgr.out_pkt w.encoded w.released.length w.places
  released : w.released = w.encoded.take w.released.length
  ids : ∀ h ∈ w.held, h.bufId = h.packet.buf_id ∧ h.timeStamp = h.packet.pts
  used : w.mgr.out_buf_mgr.buf_used + w.released.length = w.encoded.length
  waits : w.mgr.out_buf_mgr.prefetch_cnt + w.held.length + w.released.length = w.encoded.length
  write : w.mgr.out_buf_mgr.write_id = w.encoded.length % packetCnt
  read : w.mgr.out_buf_mgr.read_id = (w.released.length + w.held.length) % packetCnt

theorem numbered_init (flag : UInt32) : (init flag).Numbered where
  zones := zones_nil packetCnt_pos
  released := rfl
  ids := by
    intro h hh
    simp [init] at hh
  used := rfl
  waits := rfl
  write := rfl
  read := rfl

section

variable {w : World}

@[simp] theorem length_places : w.places.length = w.held.length := List.length_map _

/-! ## Calls -/

/-- What is written waits for the encoder. -/
theorem Numbered.requestWriteBuf (h : w.Numbered) (pInBuf : Option Bytes) (size : Int) :
    (w.call (.requestWriteBuf pInBuf size)).2.Numbered := by
  have hsame : (w.mgr.requestWriteBuf pInBuf size).2.out_buf_mgr = w.mgr.out_buf_mgr := by
    unfold TextEncDataManager.requestWriteBuf
    dsimp only
    split <;> rfl
  have hslots : ∀ i, (w.call (.requestWriteBuf pInBuf size)).2.mgr.out_buf_mgr.out_pkt i =
      w.mgr.out_buf_mgr.out_pkt i :=
    fun i => congrArg (fun o => OutFrameManager.out_pkt o i) hsame
  constructor
  · exact h.zones.congr hslots
  · exact h.released
  · exact h.ids
  · exact (congrArg (fun o => OutFrameManager.buf_used o + w.released.length) hsame).trans h.used
  · exact (congrArg (fun o => OutFrameManager.prefetch_cnt o + w.held.length + w.released.length)
      hsame).trans h.waits
  · exact (congrArg OutFrameManager.write_id hsame).trans h.write
  · exact (congrArg OutFrameManager.read_id hsame).trans h.read

/-- **A packet is encoded** into the slot behind all that are not released. -/
theorem Numbered.textEncodePro (h : w.Numbered) : (w.call .textEncodePro).2.Numbered := by
  unfold World.call TextEncDataManager.textEncodePro
  dsimp only
  by_cases hin : w.mgr.in_buf_mgr.buf_used = 0
  · rw [if_pos hin]
    exact h
  · by_cases hfull : packetCnt ≤ w.mgr.out_buf_mgr.buf_used
    · rw [if_neg hin, if_pos hfull]
      exact h
    · rw [if_neg hin, if_neg hfull]
      obtain ⟨p, hp⟩ : ∃ p : EncPacket, p =
        ⟨w.mgr.fillOneFrame.1, w.mgr.out_buf_mgr.write_id, w.mgr.fillOneFrame.2.pts⟩ := ⟨_, rfl⟩
      have hused := h.used
      have hwaits := h.waits
      have hnew : setSlot w.mgr.out_buf_mgr.out_pkt w.mgr.out_buf_mgr.write_id p
          w.mgr.out_buf_mgr.write_id = p := if_pos rfl
      have hgrows : (w.encoded ++ [p]).length = w.encoded.length + 1 := List.length_append
      dsimp only [TextEncDataManager.fillOneFrame] at hp ⊢
      rw [if_pos rfl, ← hp, hnew]
      constructor
      · apply h.zones.put (by omega)
        · rw [← h.write]
          exact hnew
        · intro i hi
          rw [← h.write] at hi
          exact if_neg hi
      · dsimp only
        rw [List.take_append_of_le_length (by omega)]
        exact h.released
      · exact h.ids
      · dsimp only
        omega
      · dsimp only
        omega
      · dsimp only
        rw [hgrows, h.write, Nat.mod_add_mod]
      · exact h.read

/-- **The packet that has waited longest is given out.** -/
theorem Numbered.request (h : w.Numbered) (hsome : 0 < w.mgr.out_buf_mgr.prefetch_cnt) :
    (w.call .requestTextEncBuf).2.Numbered ∧
      (w.call .requestTextEncBuf).2.encoded = w.encoded ∧
      (w.call .requestTextEncBuf).2.held.length = w.held.length + 1 ∧
      (w.call .requestTextEncBuf).2.mgr.out_buf_mgr.prefetch_cnt + 1 =
        w.mgr.out_buf_mgr.prefetch_cnt := by
  have hne : w.mgr.out_buf_mgr.prefetch_cnt ≠ 0 := Nat.ne_of_gt hsome
  have hwaits := h.waits
  have hgrows : ∀ x : Held, (w.held ++ [x]).length = w.held.length + 1 :=
    fun x => List.length_append
  unfold World.call TextEncDataManager.requestTextEncBuf
  dsimp only
  rw [if_neg hne]
  dsimp only
  refine ⟨⟨?_, h.released, ?_, h.used, ?_, h.write, ?_⟩, rfl, hgrows _, by omega⟩
  · have htake := h.zones.take (by rw [length_places]; omega)
    rw [length_places, ← h.read] at htake
    unfold places
    dsimp only
    rw [List.map_append]
    exact htake
  · intro x hx
    rcases List.mem_append.mp hx with hx | hx
    · exact h.ids x hx
    · obtain rfl := List.mem_singleton.mp hx
      exact ⟨rfl, rfl⟩
  · dsimp only
    rw [hgrows]
    omega
  · dsimp only
    rw [hgrows, h.read, Nat.mod_add_mod, Nat.add_assoc]

theorem Numbered.requestTextEncBuf (h : w.Numbered) :
    (w.call .requestTextEncBuf).2.Numbered := by
  by_cases hnone : w.mgr.out_buf_mgr.prefetch_cnt = 0
  · unfold World.call TextEncDataManager.requestTextEncBuf
    dsimp only
    rw [if_pos hnone]
    exact h
  · exact (h.request (Nat.pos_of_ne_zero hnone)).1

/-- **The buffer that is held longest is given back**, with what was in it. -/
theorem Numbered.release (h : w.Numbered) (hsome : 0 < w.held.length) :
    (w.call .releaseTextEncBuf).2.Numbered ∧
      (w.call .releaseTextEncBuf).2.encoded = w.encoded ∧
      (w.call .releaseTextEncBuf).2.held.length + 1 = w.held.length ∧
      (w.call .releaseTextEncBuf).2.mgr.out_buf_mgr.prefetch_cnt =
        w.mgr.out_buf_mgr.prefetch_cnt := by
  have hwaits := h.waits
  have hused := h.used
  obtain ⟨x, held, hheld⟩ := List.exists_cons_of_length_pos hsome
  have hcount : w.held.length = held.length + 1 := by rw [hheld, List.length_cons]
  have hplaces : w.places = (x.outbuf, x.packet) :: held.map fun h => (h.outbuf, h.packet) := by
    rw [places, hheld, List.map_cons]
  have hne : w.mgr.out_buf_mgr.buf_used ≠ 0 := by omega
  have hzones := h.zones
  rw [hplaces] at hzones
  have hpacket : w.mgr.out_buf_mgr.out_pkt x.outbuf = x.packet :=
    hzones.intact _ (List.mem_cons_self ..)
  have hlen : (w.released ++ [x.packet]).length = w.released.length + 1 := List.length_append
  unfold World.call TextEncDataManager.releaseTextEncBuf
  rw [hheld]
  dsimp only
  rw [if_neg hne]
  dsimp only
  rw [if_pos rfl, hpacket]
  refine ⟨⟨?_, ?_, ?_, ?_, ?_, h.write, ?_⟩, rfl, rfl, rfl⟩
  · dsimp only
    rw [hlen]
    exact hzones.give
  · dsimp only
    rw [hlen, hzones.take_add_one, ← h.released]
  · intro y hy
    exact h.ids y (by rw [hheld]; exact List.mem_cons_of_mem _ hy)
  · dsimp only
    omega
  · dsimp only
    omega
  · dsimp only
    rw [hlen, h.read, hcount]
    congr 1
    omega

theorem Numbered.releaseTextEncBuf (h : w.Numbered) :
    (w.call .releaseTextEncBuf).2.Numbered := by
  cases hw : w.held with
  | nil =>
    unfold World.call
    rw [hw]
    exact h
  | cons x held => exact (h.release (by rw [hw]; exact Nat.succ_pos _)).1

/-- Every call but `ReturnTextEncBuf`, and that where there is nothing to return. -/
def Keeps (w : World) (c : TextCall) : Prop := c = .returnTextEncBuf → w.held = []

theorem Numbered.call (h : w.Numbered) {c : TextCall} (hc : w.Keeps c) :
    (w.call c).2.Numbered := by
  cases c with
  | requestWriteBuf pInBuf size => exact h.requestWriteBuf pInBuf size
  | textEncodePro => exact h.textEncodePro
  | requestTextEncBuf => exact h.requestTextEncBuf
  | returnTextEncBuf =>
    unfold World.call
    rw [hc rfl]
    exact h
  | releaseTextEncBuf => exact h.releaseTextEncBuf

/-! ## The queue -/

/-- All that waits can be requested. -/
theorem Numbered.requests (h : w.Numbered) {k : Nat}
    (hk : k ≤ w.mgr.out_buf_mgr.prefetch_cnt) :
    (answers World.call w (List.replicate k .requestTextEncBuf)).2.Numbered ∧
      (answers World.call w (List.replicate k .requestTextEncBuf)).2.encoded = w.encoded ∧
      (answers World.call w (List.replicate k .requestTextEncBuf)).2.held.length =
        w.held.length + k ∧
      (answers World.call w (List.replicate k .requestTextEncBuf)).2.mgr.out_buf_mgr.prefetch_cnt
        + k = w.mgr.out_buf_mgr.prefetch_cnt := by
  induction k generalizing w with
  | zero => exact ⟨h, rfl, rfl, rfl⟩
  | succ k ih =>
    obtain ⟨hnext, hencoded, hheld, hcount⟩ := h.request (Nat.zero_lt_of_lt hk)
    obtain ⟨hend, hall, hlen, hleft⟩ := ih hnext (by omega)
    refine ⟨hend, hall.trans hencoded, hlen.trans (by omega), ?_⟩
    rw [← hcount, ← hleft]
    exact (Nat.add_assoc _ _ _).symm

/-- All that is held can be released. -/
theorem Numbered.releases (h : w.Numbered) {k : Nat} (hk : k = w.held.length) :
    (answers World.call w (List.replicate k .releaseTextEncBuf)).2.Numbered ∧
      (answers World.call w (List.replicate k .releaseTextEncBuf)).2.encoded = w.encoded ∧
      (answers World.call w (List.replicate k .releaseTextEncBuf)).2.held = [] ∧
      (answers World.call w (List.replicate k .releaseTextEncBuf)).2.mgr.out_buf_mgr.prefetch_cnt =
        w.mgr.out_buf_mgr.prefetch_cnt := by
  induction k generalizing w with
  | zero => exact ⟨h, rfl, List.eq_nil_of_length_eq_zero hk.symm, rfl⟩
  | succ k ih =>
    obtain ⟨hnext, hencoded, hheld, hcount⟩ := h.release (by omega)
    obtain ⟨hend, hall, hnone, hwait⟩ := ih hnext (by omega)
    exact ⟨hend, hall.trans hencoded, hnone, hwait.trans hcount⟩

/-- **What the numbers say is one queue.** -/
theorem Numbered.queue (h : w.Numbered) : w.Queue := by
  have hused := h.used
  have hwaits := h.waits
  have hwrite := h.write
  have hslot : ∀ i, (w.mgr.out_buf_mgr.read_id + i) % packetCnt =
      (w.released.length + w.places.length + i) % packetCnt := by
    intro i
    rw [h.read, Nat.mod_add_mod, length_places]
  have hcount : w.released.length + w.places.length + w.mgr.out_buf_mgr.prefetch_cnt =
      w.encoded.length := by
    rw [length_places]
    omega
  constructor
  · omega
  · rw [hslot, hcount, hwrite]
  · have hall := h.zones.inOrder hcount
    rw [← h.released, places, List.map_map] at hall
    unfold waiting
    simp only [hslot]
    exact hall
  · intro x hx
    exact h.zones.intact _ (List.mem_map_of_mem hx)
  · intro hroom
    obtain ⟨hheld, hwaiting⟩ := h.zones.fresh (by omega)
    rw [hwrite]
    refine ⟨fun x hx => hheld _ (List.mem_map_of_mem hx), fun i hi => ?_⟩
    rw [hslot]
    exact hwaiting i (by omega)
  · obtain ⟨hnext, hencoded, hheld, hleft⟩ := h.requests (Nat.le_refl _)
    obtain ⟨hend, hall, hnone, hwait⟩ :=
      hnext.releases (k := w.held.length + w.mgr.out_buf_mgr.prefetch_cnt) hheld.symm
    unfold World.drain
    rw [answers_append]
    have hrest := hend.waits
    rw [hwait, hnone, List.length_nil, hall, hencoded] at hrest
    rw [hend.released, hall, hencoded]
    refine List.take_of_length_le ?_
    omega

/-! ## The return -/

/-- **What is returned is taken back, and not counted.** -/
theorem Numbered.not_returned (h : w.Numbered) (hheld : w.held ≠ []) :
    ¬ (w.call .returnTextEncBuf).2.Queue := by
  obtain ⟨x, hx⟩ : ∃ x, w.held.getLast? = some x :=
    ⟨_, List.getLast?_eq_some_getLast hheld⟩
  have hpos := List.length_pos_iff.mpr hheld
  have hused := h.used
  have hwaits := h.waits
  have hmem := List.mem_of_getLast? hx
  have hlast : w.places[w.held.length - 1]? = some (x.outbuf, x.packet) := by
    rw [places, List.getElem?_map, ← List.getLast?_eq_getElem?, hx]
    rfl
  obtain ⟨hat, -⟩ := h.zones.heldAt _ _ hlast
  obtain ⟨hid, hpts⟩ := h.ids x hmem
  have hrid : (w.mgr.out_buf_mgr.read_id + packetCnt - 1) % packetCnt =
      (w.released.length + (w.held.length - 1)) % packetCnt := by
    rw [h.read, Nat.add_sub_assoc packetCnt_pos, Nat.mod_add_mod,
      show w.released.length + w.held.length + (packetCnt - 1) =
        w.released.length + (w.held.length - 1) + packetCnt by
          have := packetCnt_pos
          omega, Nat.add_mod_right]
  have hslot := h.zones.slot (Nat.le_add_right _ _) hat
  intro hqueue
  have hcount := hqueue.used
  unfold World.call TextEncDataManager.returnTextEncBuf at hcount
  rw [hx] at hcount
  dsimp only at hcount
  rw [hrid, hslot, if_neg (by rw [hid, hpts]; simp)] at hcount
  dsimp only at hcount
  rw [if_pos rfl, List.length_dropLast] at hcount
  omega

/-- **The output is one queue in every state of a run when the run returns nothing**, and only then.
Both sides speak of the whole run from the initial state, call by call: the first call that returns
a buffer while one is held breaks the queue, because `prefetch_cnt` is not taken back, and without
such a call nothing can. -/
theorem text_queue (enc_type_enable_flag : UInt32) (calls : List TextCall) :
    Always World.call Queue (init enc_type_enable_flag) calls ↔
      Guarded World.call Keeps (init enc_type_enable_flag) calls := by
  constructor
  · apply guarded_of_always (Q := Numbered) (numbered_init enc_type_enable_flag)
    · intro w c h hc
      exact h.call hc
    · intro w c h hc
      obtain ⟨rfl, hheld⟩ := Classical.not_imp.mp hc
      exact h.not_returned hheld
  · apply always_of_guarded (Q := Numbered) (numbered_init enc_type_enable_flag)
    · intro w c h hc
      exact h.call hc
    · intro w h
      exact h.queue

/-- A packet that is returned is lost to the one who requests. -/
theorem returned_packet_is_lost :
    ¬ Always World.call Queue (init 1) [.requestWriteBuf (some [7]) 1, .textEncodePro,
      .requestTextEncBuf, .returnTextEncBuf] := by
  intro h
  have hcount := h.2.2.2.2.used
  revert hcount
  decide

end

end World

end Maixii.TextEnc
