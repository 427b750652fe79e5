import Maixii.AudioLib.AEncoder
import Maixii.Lib.ByteRing
import Maixii.Lib.Zones

/-!
# `AudioLib/AudioPipeline.lean`: the audio encoder loses no PCM

Two invariants, one for each ring. The bytes that are written and not encoded are in the first, from
the read pointer on (`Pending`): its write pointer may rest on the end, where its read pointer never
is. The frames that are encoded and not given back are in the second, one of three zones
(`Lib/Zones.lean`), and its three indices say which; one slot of it stays free, so that an empty ring
and a full one have different indices (`Piped`).
-/

set_option autoImplicit false

namespace Maixii.AudioLib

open Maixii.Lib

/-! ## The PCM ring -/

/-- **What is in the ring.** -/
structure PcmBufManager.Pending (m : PcmBufManager) (data : Bytes) : Prop where
  ring : ByteRing m.uBufTotalLen m.buf m.pBufReadPtr data
  len : m.uDataLen = data.length
  free : m.uDataLen + m.uFreeBufSize = m.uBufTotalLen
  writ_le : m.pBufWritPtr ≤ m.uBufTotalLen
  writ : m.pBufWritPtr % m.uBufTotalLen = (m.pBufReadPtr + data.length) % m.uBufTotalLen

namespace PcmBufManager

variable {m : PcmBufManager} {data : Bytes} {n : Nat}

theorem Pending.pending_eq (h : m.Pending data) : m.pending = data := by
  unfold pending
  rw [h.len]
  exact h.ring.readAt_append_self

/-- **A write that is taken is behind what is there**, and one that is refused changes nothing. -/
theorem Pending.requestWriteBuf (h : m.Pending data) (pInbuf : Bytes) :
    (m.requestWriteBuf pInbuf).2.Pending
      (if (m.requestWriteBuf pInbuf).1 = 0 then data ++ pInbuf else data) := by
  have hlen := h.len
  have hfree := h.free
  have hle := h.writ_le
  have hwrit := h.writ
  have hall : (data ++ pInbuf).length = data.length + pInbuf.length := List.length_append
  unfold PcmBufManager.requestWriteBuf
  dsimp only
  by_cases hroom : m.uFreeBufSize < pInbuf.length
  · rw [if_pos hroom]
    exact h
  · rw [if_neg hroom]
    dsimp only
    rw [if_pos rfl]
    by_cases hround : m.uBufTotalLen < m.pBufWritPtr + pInbuf.length
    · have hboth := h.ring.write_round hwrit hle (by omega : _ + pInbuf.length ≤ _)
        (Nat.le_of_lt hround)
      -- Where the pointer rests on the end, the copy up to the end is of nothing.
      have hguard : (if 0 < m.uBufTotalLen - m.pBufWritPtr then
          patch m.buf m.pBufWritPtr (pInbuf.take (m.uBufTotalLen - m.pBufWritPtr)) else m.buf) =
          patch m.buf m.pBufWritPtr (pInbuf.take (m.uBufTotalLen - m.pBufWritPtr)) := by
        split
        · rfl
        · rename_i hrests
          rw [Nat.eq_zero_of_not_pos hrests, List.take_zero,
            patch_nil (by rw [h.ring.length]; exact hle)]
      rw [if_pos hround, hguard]
      constructor
      · exact hboth
      · dsimp only
        omega
      · dsimp only
        omega
      · dsimp only
        omega
      · dsimp only
        rw [← Nat.mod_eq_sub_mod (Nat.le_of_lt hround), hall, ← Nat.add_assoc, Nat.add_mod, hwrit,
          ← Nat.add_mod]
    · rw [if_neg hround]
      constructor
      · exact h.ring.write hwrit (by omega) (by omega)
      · dsimp only
        omega
      · dsimp only
        omega
      · dsimp only
        omega
      · dsimp only
        rw [hall, ← Nat.add_assoc, Nat.add_mod, hwrit, ← Nat.add_mod]

/-- **What is read is what was written first.** -/
theorem Pending.readPcmDataForEnc (h : m.Pending data) (hn : n ≤ data.length) :
    (m.readPcmDataForEnc n).1 = (n, data.take n) ∧
      (m.readPcmDataForEnc n).2.Pending (data.drop n) := by
  have hlen := h.len
  have hfree := h.free
  have hfront := h.ring.window.front_lt
  have hrest : (data.drop n).length = data.length - n := List.length_drop
  have hcopy : (if m.uBufTotalLen < m.pBufReadPtr + n then
      readAt m.buf m.pBufReadPtr (m.uBufTotalLen - m.pBufReadPtr) ++
        readAt m.buf 0 (n - (m.uBufTotalLen - m.pBufReadPtr))
      else readAt m.buf m.pBufReadPtr n) = data.take n := by
    split
    · rename_i hround
      exact h.ring.read_round hn (Nat.le_of_lt hround)
    · rename_i hstraight
      exact h.ring.read hn (Nat.le_of_not_lt hstraight)
  have hnext : (if m.uBufTotalLen ≤ m.pBufReadPtr + n then m.pBufReadPtr + n - m.uBufTotalLen
      else m.pBufReadPtr + n) = (m.pBufReadPtr + n) % m.uBufTotalLen := by
    split
    · rename_i hround
      rw [Nat.mod_eq_sub_mod hround, Nat.mod_eq_of_lt]
      omega
    · rename_i hstraight
      rw [Nat.mod_eq_of_lt (Nat.lt_of_not_le hstraight)]
  unfold PcmBufManager.readPcmDataForEnc
  dsimp only
  rw [if_neg (by omega), hcopy, hnext]
  refine ⟨rfl, ?_, ?_, ?_, h.writ_le, ?_⟩
  · exact h.ring.drop n
  · dsimp only
    omega
  · dsimp only
    omega
  · dsimp only
    rw [Nat.mod_add_mod, hrest, Nat.add_assoc, Nat.add_sub_cancel' hn]
    exact h.writ

end PcmBufManager

/-! ## A frame -/

/-- **A frame of the plain style is what was written first**, or there is none. -/
theorem AudioEnc.pcmFrameEnc_spec {p : AudioEnc} {data : Bytes}
    (h : p.pPcmBufManager.Pending data) (hplain : p.AudioBsEncInf.frame_style ≠ 2)
    (OutBuffer : Bytes) :
    ∃ n, n ≤ data.length ∧ n ≤ outEncodeBufferSize ∧
      (p.pcmFrameEnc OutBuffer).1.2 = (patch OutBuffer 0 (data.take n), n) ∧
      (p.pcmFrameEnc OutBuffer).2.pPcmBufManager.Pending (data.drop n) ∧
      (p.pcmFrameEnc OutBuffer).2.AudioBsEncInf = p.AudioBsEncInf := by
  have hnone : patch OutBuffer 0 (data.take 0) = OutBuffer := patch_nil (Nat.zero_le _)
  have hlen := h.len
  unfold AudioEnc.pcmFrameEnc
  split
  · exact ⟨0, Nat.zero_le _, Nat.zero_le _, by rw [hnone], h, rfl⟩
  · dsimp only
    split
    · exact ⟨0, Nat.zero_le _, Nat.zero_le _, by rw [hnone], h, rfl⟩
    · rename_i henough
      unfold AudioEnc.needed at henough
      rw [if_neg hplain] at henough
      unfold AudioEnc.plainFrame
      dsimp only
      obtain ⟨n, hn⟩ : ∃ n, n = (if (outEncodeBufferSize : Int) <
          AudioEnc.frameSize p.AudioBsEncInf then (outEncodeBufferSize : Int)
          else AudioEnc.frameSize p.AudioBsEncInf).toNat := ⟨_, rfl⟩
      have hle : n ≤ data.length ∧ n ≤ outEncodeBufferSize := by
        split at hn <;> omega
      obtain ⟨hread, hrest⟩ := h.readPcmDataForEnc hle.1
      rw [← hn]
      refine ⟨n, hle.1, hle.2, ?_, hrest, rfl⟩
      exact Prod.ext (congrArg (patch OutBuffer 0) (congrArg Prod.snd hread))
        (congrArg Prod.fst hread)

/-- What `AudioEncPro` does with what the encoder gives. -/
theorem AudioEncData.audioEncPro_eq {e : AudioEncData} {enc : AudioEnc} {ret : Int} {buf : Bytes}
    {size : Nat} (hfree : ¬ e.gOutBufManager.buf_unused ≤ 1)
    (henc : e.pAudioEnc.pcmFrameEnc (e.gOutBufManager.out_buf e.gOutBufManager.write_id).buf =
      ((ret, buf, size), enc)) :
    e.audioEncPro =
      if size = 0 then
        (ret, ⟨enc, { e.gOutBufManager with
          out_buf := Function.update e.gOutBufManager.out_buf e.gOutBufManager.write_id
            { e.gOutBufManager.out_buf e.gOutBufManager.write_id with buf } }⟩)
      else
        (ret, ⟨enc, { e.gOutBufManager with
          out_buf := Function.update e.gOutBufManager.out_buf e.gOutBufManager.write_id
            ⟨buf, size, enc.EncoderCom.ulNowTimeMS⟩
          buf_unused := e.gOutBufManager.buf_unused - 1
          write_id := (e.gOutBufManager.write_id + 1) % e.gOutBufManager.mBufCnt }⟩) := by
  unfold AudioEncData.audioEncPro
  dsimp only
  rw [if_neg hfree, henc]

/-! ## The pipeline -/

namespace World

/-- Where a frame is that is held, and what it is. -/
def places (w : World) : List (Nat × Bytes) := w.held.map fun f => (f.pOutbuf, f.data)

/-- **What the two rings hold.** -/
structure Piped (w : World) : Prop where
  plain : w.enc.pAudioEnc.AudioBsEncInf.frame_style ≠ 2
  pcm : ∃ data, w.enc.pAudioEnc.pPcmBufManager.Pending data ∧
    w.written = w.encoded.flatten ++ data
  zones : Zones w.enc.gOutBufManager.mBufCnt (fun i => (w.enc.gOutBufManager.out_buf i).frame)
    w.encoded w.returned.length w.places
  returned : w.returned.map Frame.data = w.encoded.take w.returned.length
  ids : ∀ f ∈ w.held, f.bufId = f.pOutbuf
  unused : w.enc.gOutBufManager.buf_unused + w.encoded.length =
    w.enc.gOutBufManager.mBufCnt + w.returned.length
  spare : 0 < w.enc.gOutBufManager.buf_unused
  read : w.enc.gOutBufManager.read_id = w.returned.length % w.enc.gOutBufManager.mBufCnt
  prefetch : w.enc.gOutBufManager.prefetch_id =
    (w.returned.length + w.held.length) % w.enc.gOutBufManager.mBufCnt
  write : w.enc.gOutBufManager.write_id = w.encoded.length % w.enc.gOutBufManager.mBufCnt

theorem piped_init {audio_inf : AudioEncInf} (hplain : audio_inf.frame_style ≠ 2)
    (nInBufSize nOutBufCnt : Int) (memory : Nat → UInt8) (out_buf : Nat → AudioOutBuf) :
    (init (audioEncInit audio_inf nInBufSize nOutBufCnt memory out_buf)).Piped := by
  have hpcm : 0 < if 0 < nInBufSize then nInBufSize.toNat else bsBufferSize := by
    split
    · omega
    · decide
  have hcnt : 0 < if 0 < nOutBufCnt then nOutBufCnt.toNat else fifoLevel := by
    split
    · omega
    · decide
  constructor
  · exact hplain
  · refine ⟨[], ⟨byteRing_nil ?_ hpcm, rfl, Nat.zero_add _, Nat.zero_le _, rfl⟩, rfl⟩
    exact (List.length_map _).trans List.length_range
  · exact zones_nil hcnt
  · rfl
  · intro f hf
    simp [init] at hf
  · rfl
  · exact hcnt
  · exact (Nat.zero_mod _).symm
  · exact (Nat.zero_mod _).symm
  · exact (Nat.zero_mod _).symm

section

variable {w : World}

@[simp] theorem length_places : w.places.length = w.held.length := List.length_map _

/-! ## Calls -/

theorem Piped.writeAudioStreamBuffer (h : w.Piped) (pBuf : Bytes) :
    (w.call (.writeAudioStreamBuffer pBuf)).2.Piped := by
  obtain ⟨data, hpending, hwritten⟩ := h.pcm
  have hnext := hpending.requestWriteBuf pBuf
  refine ⟨h.plain, ⟨_, hnext, ?_⟩, h.zones, h.returned, h.ids, h.unused, h.spare, h.read,
    h.prefetch, h.write⟩
  unfold World.call
  dsimp only
  rw [hwritten]
  split
  · rw [List.append_assoc]
  · rfl

/-- **A frame is encoded** into the buffer behind all that are not given back. -/
theorem Piped.encodeAudioStream (h : w.Piped) : (w.call .encodeAudioStream).2.Piped := by
  obtain ⟨data, hpending, hwritten⟩ := h.pcm
  have hunused := h.unused
  have hspare := h.spare
  by_cases hfull : w.enc.gOutBufManager.buf_unused ≤ 1
  · unfold World.call AudioEncData.audioEncPro
    dsimp only
    rw [if_pos hfull]
    dsimp only
    rw [if_pos rfl]
    exact h
  · obtain ⟨out, hout⟩ : ∃ out, w.enc.gOutBufManager.out_buf w.enc.gOutBufManager.write_id = out :=
      ⟨_, rfl⟩
    obtain ⟨n, hn, -, hresult, hrest, hinf⟩ :=
      AudioEnc.pcmFrameEnc_spec hpending h.plain out.buf
    obtain ⟨ret, result, enc, henc⟩ : ∃ ret result enc,
      w.enc.pAudioEnc.pcmFrameEnc out.buf = ((ret, result), enc) := ⟨_, _, _, rfl⟩
    rw [henc] at hresult hrest hinf
    dsimp only at hresult hrest hinf
    rw [hresult, ← hout] at henc
    have hpro := AudioEncData.audioEncPro_eq hfull henc
    rw [hout] at hpro
    unfold World.call
    dsimp only
    rw [hpro]
    by_cases hn0 : n = 0
    · -- There is no frame, and the buffer is as it was.
      have hsame : Function.update w.enc.gOutBufManager.out_buf w.enc.gOutBufManager.write_id
          { out with buf := patch out.buf 0 (data.take n) } = w.enc.gOutBufManager.out_buf := by
        rw [hn0, List.take_zero, patch_nil (Nat.zero_le _), ← hout]
        exact Function.update_eq_self _ _
      rw [if_pos hn0, hsame]
      dsimp only
      rw [if_pos rfl]
      rw [hn0, List.drop_zero] at hrest
      exact ⟨by rw [hinf]; exact h.plain, ⟨data, hrest, hwritten⟩, h.zones, h.returned, h.ids,
        h.unused, h.spare, h.read, h.prefetch, h.write⟩
    · rw [if_neg hn0]
      dsimp only
      rw [if_neg (by omega), Function.update_self]
      have hframe : (AudioOutBuf.mk (patch out.buf 0 (data.take n)) n
          enc.EncoderCom.ulNowTimeMS).frame = data.take n := by
        unfold AudioOutBuf.frame
        rw [patch_eq (Nat.zero_le _), List.take_zero, List.nil_append]
        exact List.take_left' (List.length_take_of_le hn)
      rw [hframe]
      have hgrows : (w.encoded ++ [data.take n]).length = w.encoded.length + 1 :=
        List.length_append
      have hle := h.zones.le
      constructor
      · rw [hinf]
        exact h.plain
      · refine ⟨data.drop n, hrest, ?_⟩
        rw [hwritten, List.flatten_append, List.flatten_singleton, List.append_assoc,
          List.take_append_drop]
      · apply h.zones.put (by omega)
        · dsimp only
          rw [← h.write, Function.update_self, hframe]
        · intro i hi
          rw [← h.write] at hi
          dsimp only
          rw [Function.update_of_ne hi]
      · dsimp only
        rw [List.take_append_of_le_length (by omega)]
        exact h.returned
      · exact h.ids
      · dsimp only
        omega
      · dsimp only
        omega
      · exact h.read
      · exact h.prefetch
      · dsimp only
        rw [hgrows, h.write, Nat.mod_add_mod]

/-- The indices of a ring with one slot more than it holds are in order. -/
theorem Piped.inOrder (h : w.Piped) (hsome : w.returned.length < w.encoded.length) :
    w.enc.gOutBufManager.inOrder = true := by
  have hunused := h.unused
  have hspare := h.spare
  have hle := h.zones.le
  rw [length_places] at hle
  have hall : w.returned.length + (w.encoded.length - w.returned.length) = w.encoded.length :=
    Nat.add_sub_cancel' (Nat.le_of_lt hsome)
  obtain ⟨hne, hup, hdown⟩ := ring_between (h := w.held.length)
    (u := w.encoded.length - w.returned.length) h.zones.window.front_lt (by omega) (by omega)
    (by omega)
  rw [Nat.mod_add_mod, hall, ← h.read, ← h.write] at hne hup hdown
  rw [h.read, Nat.mod_add_mod, ← h.prefetch, ← h.read] at hup hdown
  unfold OutBufManager.inOrder
  split
  · exact decide_eq_true (hup ‹_›)
  · split
    · exact decide_eq_true (hdown ‹_›)
    · omega

/-- **The frame that has waited longest is given out.** -/
theorem Piped.request (h : w.Piped)
    (hsome : w.returned.length + w.held.length < w.encoded.length) :
    (w.call .requestAudioFrameBuffer).1 = 0 ∧ (w.call .requestAudioFrameBuffer).2.Piped := by
  have hunused := h.unused
  have hspare := h.spare
  have hne : w.enc.gOutBufManager.prefetch_id ≠ w.enc.gOutBufManager.write_id := by
    rw [h.prefetch, h.write]
    exact h.zones.next_ne (by omega) (Nat.le_add_right _ _) hsome
  have hgrows : ∀ x : Frame, (w.held ++ [x]).length = w.held.length + 1 :=
    fun x => List.length_append
  unfold World.call OutBufManager.getAudioEncBuf
  dsimp only
  rw [if_neg (by omega), if_neg (by rw [h.inOrder (by omega)]; exact not_not_intro rfl),
    if_neg hne]
  dsimp only
  refine ⟨rfl, h.plain, h.pcm, ?_, h.returned, ?_, h.unused, h.spare, h.read, ?_, h.write⟩
  · have htake := h.zones.take (by rw [length_places]; exact hsome)
    rw [length_places, ← h.prefetch] at htake
    unfold places
    dsimp only
    rw [List.map_append]
    exact htake
  · intro x hx
    rcases List.mem_append.mp hx with hx | hx
    · exact h.ids x hx
    · obtain rfl := List.mem_singleton.mp hx
      rfl
  · dsimp only
    rw [hgrows, h.prefetch, Nat.mod_add_mod, Nat.add_assoc]

theorem Piped.requestAudioFrameBuffer (h : w.Piped) :
    (w.call .requestAudioFrameBuffer).2.Piped := by
  have hle := h.zones.le
  rw [length_places] at hle
  by_cases hsome : w.returned.length + w.held.length < w.encoded.length
  · exact (h.request hsome).2
  · have heq : w.enc.gOutBufManager.prefetch_id = w.enc.gOutBufManager.write_id := by
      rw [h.prefetch, h.write, Nat.le_antisymm hle (Nat.le_of_not_lt hsome)]
    have hnone : w.enc.gOutBufManager.getAudioEncBuf = (none, w.enc.gOutBufManager) := by
      unfold OutBufManager.getAudioEncBuf
      rw [if_pos heq, ite_self, ite_self]
    unfold World.call
    dsimp only
    rw [hnone]
    exact h

/-- **The frame that is held longest is given back.** -/
theorem Piped.returnAudioFrameBuffer (h : w.Piped) :
    (w.call .returnAudioFrameBuffer).2.Piped := by
  cases hheld : w.held with
  | nil =>
    unfold World.call
    rw [hheld]
    exact h
  | cons x held =>
    have hcount : w.held.length = held.length + 1 := by rw [hheld, List.length_cons]
    have hplaces : w.places = (x.pOutbuf, x.data) :: held.map fun f => (f.pOutbuf, f.data) := by
      rw [places, hheld, List.map_cons]
    have hunused := h.unused
    have hle := h.zones.le
    rw [length_places] at hle
    have hzones := h.zones
    rw [hplaces] at hzones
    have hid : x.bufId = w.enc.gOutBufManager.read_id := by
      rw [h.ids x (by rw [hheld]; exact List.mem_cons_self), h.read]
      exact hzones.give_eq.2
    have hlen : (w.returned ++ [x]).length = w.returned.length + 1 := List.length_append
    have hne : w.enc.gOutBufManager.buf_unused ≠ w.enc.gOutBufManager.mBufCnt := by omega
    unfold World.call OutBufManager.releaseAudioEncBuf
    rw [hheld]
    dsimp only
    rw [if_neg hne, if_neg (not_not_intro hid)]
    dsimp only
    rw [if_pos rfl]
    refine ⟨h.plain, h.pcm, ?_, ?_, ?_, ?_, ?_, ?_, ?_, h.write⟩
    · dsimp only
      rw [hlen]
      exact hzones.give
    · dsimp only
      rw [hlen, hzones.take_add_one, List.map_append, h.returned]
      rfl
    · intro y hy
      exact h.ids y (by rw [hheld]; exact List.mem_cons_of_mem _ hy)
    · dsimp only
      omega
    · exact Nat.succ_pos _
    · dsimp only
      rw [hlen, h.read, Nat.mod_add_mod]
    · dsimp only
      rw [hlen, h.prefetch, hcount]
      congr 1
      omega

theorem Piped.call (h : w.Piped) (c : AudioCall) : (w.call c).2.Piped := by
  cases c with
  | writeAudioStreamBuffer pBuf => exact h.writeAudioStreamBuffer pBuf
  | encodeAudioStream => exact h.encodeAudioStream
  | requestAudioFrameBuffer => exact h.requestAudioFrameBuffer
  | returnAudioFrameBuffer => exact h.returnAudioFrameBuffer

/-! ## No loss -/

/-- **What the two rings hold is all that was written.** -/
theorem Piped.lossless (h : w.Piped) : w.Lossless := by
  obtain ⟨data, hpending, hwritten⟩ := h.pcm
  have hunused := h.unused
  have hspare := h.spare
  have hle := h.zones.le
  have hfull := h.zones.length_le
  rw [length_places] at hle
  have hused : w.returned.length + w.used = w.encoded.length := by
    unfold used
    omega
  have hcount : w.returned.length + w.places.length + (w.used - w.held.length) =
      w.encoded.length := by
    rw [length_places]
    omega
  have hslot : ∀ i, (w.enc.gOutBufManager.prefetch_id + i) % w.enc.gOutBufManager.mBufCnt =
      (w.returned.length + w.places.length + i) % w.enc.gOutBufManager.mBufCnt := by
    intro i
    rw [h.prefetch, Nat.mod_add_mod, length_places]
  have honce : w.encoded = w.requested.map Frame.data ++ w.waiting := by
    have hall := h.zones.inOrder hcount
    rw [← h.returned, places, List.map_map] at hall
    unfold requested waiting waitingIds
    rw [List.map_append, List.map_map]
    simp only [Function.comp_def, hslot]
    exact hall
  have hlossless : w.written = (w.requested.map Frame.data).flatten ++ w.waiting.flatten ++
      w.enc.pAudioEnc.pPcmBufManager.pending := by
    rw [hpending.pending_eq, ← List.flatten_append, ← honce]
    exact hwritten
  constructor
  · rw [hlossless, List.append_assoc]
    exact List.prefix_append _ _
  · exact hlossless
  · exact honce
  · intro f hf
    exact h.zones.intact _ (List.mem_map_of_mem hf)
  · intro hroom hmem
    obtain ⟨hheld, hwaiting⟩ := h.zones.fresh (by omega)
    rw [h.write] at hmem
    rcases List.mem_append.mp hmem with hmem | hmem
    · obtain ⟨f, hf, heq⟩ := List.mem_map.mp hmem
      exact hheld _ (List.mem_map_of_mem hf) heq
    · obtain ⟨i, hi, heq⟩ := List.mem_map.mp hmem
      rw [hslot] at heq
      exact hwaiting i (by rw [List.mem_range] at hi; omega) heq
  · intro hsome
    refine (h.request ?_).1
    by_contra hnone
    apply hsome
    rw [waiting, waitingIds, Nat.sub_eq_zero_of_le (by omega)]
    rfl
  · exact hpending.free
  · rw [h.write, h.read, Nat.mod_add_mod, hused]
  · refine ⟨?_, by omega⟩
    rw [h.prefetch, h.read, Nat.mod_add_mod]

/-- **The audio encoder loses no PCM**, whatever its settings are and the sizes of its rings, if the
frames are of the plain style. It is said after every call of any sequence, for a call that is
refused must not lose anything either. The bytes written are compared as one string with the frames
requested, those that wait and what the ring holds, and the frames as a list, so that neither a gap
nor a repetition goes unnoticed. -/
theorem audio_encoder_loses_no_pcm (audio_inf : AudioEncInf) (hplain : audio_inf.frame_style ≠ 2)
    (nInBufSize nOutBufCnt : Int) (memory : Nat → UInt8) (out_buf : Nat → AudioOutBuf)
    (calls : List AudioCall) :
    Always World.call Lossless
      (init (audioEncInit audio_inf nInBufSize nOutBufCnt memory out_buf)) calls := by
  apply always_of_guarded (Q := Piped) (G := fun _ _ => True)
    (piped_init hplain nInBufSize nOutBufCnt memory out_buf)
  · intro w c h _
    exact h.call c
  · intro w h
    exact h.lossless
  · exact guarded_of_inv (P := fun _ => True) (p := fun _ => True) trivial
      (fun _ _ _ _ => ⟨trivial, trivial⟩) (fun _ _ => trivial)

/-- 8-bit mono, so that a frame has 1024 bytes, with a ring of 1500 and three frame buffers. -/
def monoStart : World :=
  init (audioEncInit ⟨8000, 1, 8, 0⟩ 1500 3 (fun _ => 0) (fun _ => ⟨[], 0, 0⟩))

/-- Two frames, the second over the end of the ring; for a third there is no PCM left. -/
def monoCalls : List AudioCall :=
  [.writeAudioStreamBuffer (List.replicate 1100 7), .encodeAudioStream, .requestAudioFrameBuffer,
    .writeAudioStreamBuffer (List.replicate 1300 9), .encodeAudioStream, .returnAudioFrameBuffer,
    .encodeAudioStream, .requestAudioFrameBuffer, .returnAudioFrameBuffer]

/-- Both frames are written, encoded, requested and given back. -/
theorem audio_encoder_loses_no_pcm_mono :
    (answers World.call monoStart monoCalls).1 = [0, 0, 0, 0, 0, 0, 1, 0, 0] ∧
      (answers World.call monoStart monoCalls).2.returned.map Frame.data =
        [List.replicate 1024 7, List.replicate 76 7 ++ List.replicate 948 9] ∧
      Always World.call Lossless monoStart monoCalls := by
  refine ⟨by decide +kernel, by decide +kernel, ?_⟩
  exact audio_encoder_loses_no_pcm ⟨8000, 1, 8, 0⟩ (by decide) 1500 3 (fun _ => 0)
    (fun _ => ⟨[], 0, 0⟩) monoCalls

end

end World

end Maixii.AudioLib
