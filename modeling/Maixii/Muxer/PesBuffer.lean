import Maixii.Lib.OutFile
import Maixii.Muxer.Mpeg2tsMuxer

/-!
# `Muxer/PesBuffer.lean`: one packet in its buffer

`TsPackets.lean` says what a packet of a PES consists of. The code makes it in one array of 188
bytes that it uses again for every packet: the headers are stored at the front, moved back to make
room for an adaptation field, the field is stored in the gap, and the payload is copied to the end.
Here are these stores, and **they leave the packet, whatever the array held before** (`fill_eq`,
`pesLoop_eq`).
-/

set_option autoImplicit false

namespace Maixii.Muxer

open Maixii.Lib

/-! ## Stores into an array -/

/-- `memmove(buf + dst, buf + src, n)`. -/
def memmove (buf : Bytes) (dst src n : Nat) : Bytes := patch buf dst (readAt buf src n)

/-- `memset(buf + p, val, n)`. -/
def memset (buf : Bytes) (p : Nat) (val : UInt8) (n : Nat) : Bytes :=
  patch buf p (List.replicate n val)

/-- The adaptation field that fills a packet up. -/
def addStuffing (buf : Bytes) (headerLen stuffingLen : Nat) : Bytes :=
  if buf.getD 3 0 &&& 0x20 ≠ 0 then
    -- There is a field already, and it grows.
    let afcLen := (buf.getD 4 0).toNat + 1
    let buf := memmove buf (4 + afcLen + stuffingLen) (4 + afcLen) (headerLen - (4 + afcLen))
    let buf := patch buf 4 [buf.getD 4 0 + UInt8.ofNat stuffingLen]
    memset buf (4 + afcLen) 0xff stuffingLen
  else
    let buf := memmove buf (4 + stuffingLen) 4 (headerLen - 4)
    let buf := patch buf 3 [buf.getD 3 0 ||| 0x20]
    let buf := patch buf 4 [UInt8.ofNat (stuffingLen - 1)]
    if 2 ≤ stuffingLen then memset (patch buf 5 [0x00]) 6 0xff (stuffingLen - 2) else buf

/-- One round of the loop of `mpegts_write_pes`: the array, and how much of the payload it has
taken. No packet has a clock (`write_pcr` is 0). -/
def fillPacket (buf : Bytes) (pid : Nat) (isStart : Bool) (cc : Nat) (head payload : Bytes) :
    Bytes × Nat :=
  let buf := patch buf 0 (header pid isStart cc 0 ++ head)
  let headerLen := 4 + head.length
  let len := min (tsPacketSize - headerLen) payload.length
  let stuffingLen := tsPacketSize - headerLen - len
  let buf := if 0 < stuffingLen then addStuffing buf headerLen stuffingLen else buf
  (patch buf (tsPacketSize - len) (payload.take len), len)

/-- The loop of `mpegts_write_pes`, with the counter it leaves; `n` is as large as what is left is
long. -/
def pesLoop (pid : Nat) (codec : CodecID) (pts : Int) :
    Nat → Bytes → Bool → Nat → Bytes → List Bytes × Nat
  | 0, _, _, cc, _ => ([], cc)
  | n + 1, buf, isStart, cc, payload =>
      if payload = [] then ([], cc)
      else
        let cc := (cc + 1) % 16
        let head := if isStart then pesHeader codec pts payload.length else []
        let (buf, len) := fillPacket buf pid isStart cc head payload
        let (ps, cc') := pesLoop pid codec pts n buf false cc (payload.drop len)
        (buf :: ps, cc')

/-! ## The adaptation field -/

/-- The counter leaves the bit of the adaptation field alone. -/
theorem header_afc (cc : Fin 16) : (0x10 ||| UInt8.ofNat cc.val ||| 0 : UInt8) &&& 0x20 = 0 := by
  revert cc
  decide +kernel

/-- Headers, and whatever is behind them. -/
theorem patch_front (buf h : Bytes) : patch buf 0 h = h ++ buf.drop h.length := by
  rw [patch_eq (Nat.zero_le _), List.take_zero, List.nil_append, Nat.zero_add]

/-- **The field is put between the headers** of the packet and of the PES. -/
theorem addStuffing_eq (pid : Nat) (isStart : Bool) (head rest : Bytes) {cc n : Nat}
    (hcc : cc < 16) (hn : 0 < n) (hroom : n ≤ rest.length) :
    ∃ rest', addStuffing (header pid isStart cc 0 ++ head ++ rest) (4 + head.length) n =
      header pid isStart cc 0x20 ++ adaptation n ++ head ++ rest' ∧
        rest'.length = rest.length - n := by
  obtain ⟨b0, b1, b2, hheader⟩ : ∃ b0 b1 b2, ∀ afc,
      header pid isStart cc afc = [b0, b1, b2] ++ [0x10 ||| UInt8.ofNat cc ||| afc] :=
    ⟨_, _, _, fun _ => rfl⟩
  have hbit : ¬ ((header pid isStart cc 0 ++ head ++ rest).getD 3 0 &&& 0x20 ≠ 0) :=
    not_not.mpr (header_afc ⟨cc, hcc⟩)
  -- What is between the headers and the end, cut where the moved header goes.
  obtain ⟨gap, moved, hcut, hgap⟩ : ∃ gap moved, head ++ rest = gap ++ moved ∧ gap.length = n := by
    refine ⟨(head ++ rest).take n, (head ++ rest).drop n, (List.take_append_drop n _).symm, ?_⟩
    rw [List.length_take, List.length_append]
    omega
  have hmoved : head.length + (rest.length - n) = moved.length := by
    have := congrArg List.length hcut
    simp only [List.length_append] at this
    omega
  have hmemmove : memmove (header pid isStart cc 0 ++ head ++ rest) (4 + n) 4
      (4 + head.length - 4) =
      header pid isStart cc 0 ++ gap ++ head ++ moved.drop head.length := by
    have hread : readAt (header pid isStart cc 0 ++ head ++ rest) 4 (4 + head.length - 4) = head :=
      readAt_middle _ head rest rfl (by omega)
    have hlen : 4 + n = (header pid isStart cc 0 ++ gap).length + 0 := by
      rw [List.length_append, hgap, length_header, Nat.add_zero]
    rw [memmove, hread, List.append_assoc, hcut, ← List.append_assoc, hlen,
      patch_append_right (Nat.zero_le _), patch_front]
    simp only [List.append_assoc]
  refine ⟨moved.drop head.length, ?_, by rw [List.length_drop]; omega⟩
  unfold addStuffing
  rw [if_neg hbit]
  dsimp only
  rw [hmemmove]
  -- Byte 3 has the new bit, and byte 4 the length.
  have hthree : patch (header pid isStart cc 0 ++ gap ++ head ++ moved.drop head.length) 3
      [(header pid isStart cc 0 ++ gap ++ head ++ moved.drop head.length).getD 3 0 ||| 0x20] =
      header pid isStart cc 0x20 ++ gap ++ head ++ moved.drop head.length := by
    have hget : (header pid isStart cc 0 ++ gap ++ head ++ moved.drop head.length).getD 3 0 =
        0x10 ||| UInt8.ofNat cc ||| 0 := rfl
    rw [hget, hheader, hheader]
    simp only [List.append_assoc]
    have hmiddle := patch_middle [b0, b1, b2] [0x10 ||| UInt8.ofNat cc ||| (0 : UInt8)]
      (gap ++ (head ++ moved.drop head.length)) (p := 3)
      (d := [0x10 ||| UInt8.ofNat cc ||| 0 ||| 0x20]) rfl rfl
    simpa using hmiddle
  rw [hthree]
  cases gap with
  | nil => exact absurd hgap (Nat.ne_of_lt hn)
  | cons g gap =>
    have hfour : patch (header pid isStart cc 0x20 ++ (g :: gap) ++ head ++
        moved.drop head.length) 4 [UInt8.ofNat (n - 1)] =
        header pid isStart cc 0x20 ++ (UInt8.ofNat (n - 1) :: gap) ++ head ++
          moved.drop head.length := by
      have hmiddle := patch_middle (header pid isStart cc 0x20) [g]
        (gap ++ (head ++ moved.drop head.length)) (p := 4) (d := [UInt8.ofNat (n - 1)]) rfl rfl
      simpa using hmiddle
    rw [hfour]
    cases gap with
    | nil =>
      -- A field of one byte is its length alone.
      obtain rfl : n = 1 := hgap.symm
      rfl
    | cons z gap =>
      have htwo : 2 ≤ n := by
        rw [← hgap]
        simp
      have hstuff : (List.replicate (n - 2) (0xff : UInt8)).length = gap.length := by
        rw [List.length_replicate, ← hgap]
        rfl
      rw [if_pos htwo]
      have hfive : patch (header pid isStart cc 0x20 ++ (UInt8.ofNat (n - 1) :: z :: gap) ++ head ++
          moved.drop head.length) 5 [0x00] =
          header pid isStart cc 0x20 ++ (UInt8.ofNat (n - 1) :: 0x00 :: gap) ++ head ++
            moved.drop head.length := by
        have hmiddle := patch_middle (header pid isStart cc 0x20 ++ [UInt8.ofNat (n - 1)]) [z]
          (gap ++ (head ++ moved.drop head.length)) (p := 5) (d := [0x00]) rfl rfl
        simpa using hmiddle
      rw [hfive, memset]
      have hmiddle := patch_middle (header pid isStart cc 0x20 ++ [UInt8.ofNat (n - 1), 0x00]) gap
        (head ++ moved.drop head.length) (p := 6) rfl hstuff
      have hfield : adaptation n =
          UInt8.ofNat (n - 1) :: 0x00 :: List.replicate (n - 2) 0xff := by
        unfold adaptation
        rw [if_neg (by omega), if_neg (by omega)]
      rw [hfield]
      simpa using hmiddle

/-! ## The packet -/

/-- **The array holds the packet**, whatever it held before. -/
theorem fill_eq (pid : Nat) (isStart : Bool) (head payload : Bytes) {buf : Bytes} {cc : Nat}
    (hbuf : buf.length = tsPacketSize) (hcc : cc < 16) (hlen : head.length ≤ 16) :
    fillPacket buf pid isStart cc head payload =
      ((pesPacket pid isStart cc head payload hlen).bytes,
        min (tsPacketSize - (4 + head.length)) payload.length) := by
  have hfront : patch buf 0 (header pid isStart cc 0 ++ head) =
      header pid isStart cc 0 ++ head ++ buf.drop (header pid isStart cc 0 ++ head).length :=
    patch_front buf _
  have hrest : (buf.drop (header pid isStart cc 0 ++ head).length).length =
      184 - head.length := by
    rw [List.length_drop, List.length_append, length_header, hbuf]
    unfold tsPacketSize
    omega
  have htake : payload.take (min (tsPacketSize - (4 + head.length)) payload.length) =
      payload.take (tsPacketSize - 4 - head.length) := by
    rw [Nat.sub_add_eq, List.take_eq_take_iff]
    omega
  have hpart : (payload.take (tsPacketSize - 4 - head.length)).length =
      min (184 - head.length) payload.length := by
    rw [List.length_take]
    unfold tsPacketSize
    omega
  unfold fillPacket
  dsimp only
  refine Prod.ext ?_ rfl
  show patch _ _ _ = _
  rw [hfront, htake]
  show _ = header pid isStart cc (if 0 < tsPacketSize - 4 - head.length -
      (payload.take (tsPacketSize - 4 - head.length)).length then 0x20 else 0) ++
    adaptation (tsPacketSize - 4 - head.length -
      (payload.take (tsPacketSize - 4 - head.length)).length) ++ head ++
    payload.take (tsPacketSize - 4 - head.length)
  rw [hpart]
  generalize hpartEq : payload.take (tsPacketSize - 4 - head.length) = part at hpart ⊢
  generalize buf.drop (header pid isStart cc 0 ++ head).length = rest at hrest ⊢
  unfold tsPacketSize
  by_cases hstuff : 0 < 184 - head.length - min (184 - head.length) payload.length
  · obtain ⟨rest', hadd, hrest'⟩ := addStuffing_eq pid isStart head rest hcc hstuff
      (by omega)
    have hcond : 188 - (4 + head.length) - min (188 - (4 + head.length)) payload.length =
        184 - head.length - min (184 - head.length) payload.length := by omega
    have hcond' : 188 - 4 - head.length - min (184 - head.length) payload.length =
        184 - head.length - min (184 - head.length) payload.length := by omega
    rw [hcond, hcond', if_pos hstuff, if_pos hstuff, hadd]
    have hmiddle := patch_middle (header pid isStart cc 0x20 ++
      adaptation (184 - head.length - min (184 - head.length) payload.length) ++ head) rest' []
      (p := 188 - min (188 - (4 + head.length)) payload.length) (d := part)
      (by
        simp only [List.length_append, length_header, length_adaptation]
        omega)
      (by omega)
    simpa only [List.append_nil] using hmiddle
  · have hcond : 188 - (4 + head.length) - min (188 - (4 + head.length)) payload.length = 0 := by
      omega
    have hcond' : 188 - 4 - head.length - min (184 - head.length) payload.length = 0 := by omega
    rw [hcond, hcond', if_neg (Nat.lt_irrefl 0), if_neg (Nat.lt_irrefl 0)]
    have hmiddle := patch_middle (header pid isStart cc 0 ++ head) rest []
      (p := 188 - min (188 - (4 + head.length)) payload.length) (d := part)
      (by
        simp only [List.length_append, length_header]
        omega)
      (by omega)
    have hnone : adaptation 0 = [] := rfl
    rw [hnone]
    simpa only [List.append_nil] using hmiddle

/-- The rounds behind the first. -/
theorem pesLoop_rest (pid : Nat) (codec : CodecID) (pts : Int) (n : Nat) {buf : Bytes} {cc : Nat}
    (hbuf : buf.length = tsPacketSize) (payload : Bytes) :
    pesLoop pid codec pts n buf false cc payload =
      ((pesRest pid n cc payload).1.map TsPacket.bytes, (pesRest pid n cc payload).2) := by
  induction n generalizing buf cc payload with
  | zero => rfl
  | succ n ih =>
    unfold pesLoop pesRest
    split
    · rfl
    · have hfill := fill_eq pid false [] payload hbuf
        (Nat.mod_lt (cc + 1) (by decide : 0 < 16)) (Nat.zero_le _)
      have hdrop : payload.drop (min (tsPacketSize - (4 + 0)) payload.length) =
          payload.drop (tsPacketSize - 4) := by
        by_cases hle : tsPacketSize - (4 + 0) ≤ payload.length
        · rw [Nat.min_eq_left hle]
        · rw [Nat.min_eq_right (by omega), List.drop_length, List.drop_eq_nil_of_le (by omega)]
      dsimp only
      rw [if_neg Bool.false_ne_true, hfill]
      dsimp only [List.length_nil]
      rw [ih (pesPacket pid false ((cc + 1) % 16) [] payload (Nat.zero_le _)).length_eq, hdrop]
      rfl

/-- **The loop makes the packets of the PES**, whatever the array held before. -/
theorem pesLoop_eq (pid : Nat) (codec : CodecID) (pts : Int) {buf : Bytes}
    (hbuf : buf.length = tsPacketSize) (payload : Bytes) (hne : payload ≠ []) :
    (pesLoop pid codec pts (payload.length + 1) buf true 0 payload).1 =
      (pesPackets pid codec pts payload).1.map TsPacket.bytes := by
  have hhead := length_pesHeader codec pts payload.length
  have hfill := fill_eq pid true (pesHeader codec pts payload.length) payload hbuf
    (by decide : 1 < 16) hhead
  have hdrop : payload.drop (min (tsPacketSize - (4 + (pesHeader codec pts payload.length).length))
      payload.length) =
      payload.drop (tsPacketSize - 4 - (pesHeader codec pts payload.length).length) := by
    rw [Nat.sub_add_eq]
    by_cases hle : tsPacketSize - 4 - (pesHeader codec pts payload.length).length ≤ payload.length
    · rw [Nat.min_eq_left hle]
    · rw [Nat.min_eq_right (by omega), List.drop_length, List.drop_eq_nil_of_le (by omega)]
  unfold pesLoop pesPackets
  rw [if_neg hne, if_neg hne]
  dsimp only
  rw [if_pos rfl, Nat.zero_add, Nat.mod_eq_of_lt (by decide : 1 < 16), hfill]
  dsimp only
  rw [pesLoop_rest _ _ _ _ (pesPacket pid true 1 (pesHeader codec pts payload.length) payload
    hhead).length_eq, hdrop]
  rfl

/-- What `mpegts_write_pes` adds to the stream of packets is what its loop has made. -/
theorem generated_cutPes (s : Mpeg2tsMuxer) (i : Nat) (st : AVStream) (payload : Bytes) (pts : Int)
    {buf : Bytes} (hbuf : buf.length = tsPacketSize) (hne : payload ≠ []) :
    (s.cutPes i st payload pts).generated.map TsPacket.bytes =
      s.generated.map TsPacket.bytes ++
        (pesLoop st.pid st.codec pts (payload.length + 1) buf true 0 payload).1 := by
  rw [pesLoop_eq st.pid st.codec pts hbuf payload hne, (Mpeg2tsMuxer.grew_cutPes s i st payload
    pts).generated, List.map_append]

end Maixii.Muxer
