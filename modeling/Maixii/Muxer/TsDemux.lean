import Maixii.Muxer.TsContinuity
import Maixii.Muxer.TsSections

/-!
# `Muxer/TsDemux.lean`: a demultiplexer

What a player does with a transport stream: it sorts the packets by their identifier, cuts what it
finds on each one at the marks, and reads the units as they come (`demux`): as an association table,
as the map of a program, or as a PES packet with its time.

* `oneUnit_sectionPackets`, `oneUnit_pesPackets`: the packets that are made at once are one unit,
  and read as what they were made of;
* `demux_own`, `demux_other`: more of them behind a stream add what they read as to their own
  identifier, and nothing to another.
-/

set_option autoImplicit false

namespace Maixii.Muxer

open Maixii.Lib

/-! ## Tables -/

/-- The programs of an association table, each with the identifier its map is on. -/
def readPrograms : Bytes → Option (List (Nat × Nat))
  | [] => some []
  | n₁ :: n₂ :: p₁ :: p₂ :: rest =>
      (readPrograms rest).map fun programs =>
        (n₁.toNat * 256 + n₂.toNat, p₁.toNat % 32 * 256 + p₂.toNat) :: programs
  | _ => none

def Section.programs (s : Section) : Option (List (Nat × Nat)) :=
  if s.tableId = 0x00 then readPrograms s.data else none

def readPat (u : List TsPacket) : Option (List (Nat × Nat)) :=
  (readSectionUnit u).bind Section.programs

/-- A stream as the map of its program tells of it. -/
structure ElementaryStream where
  type : UInt8
  pid : Nat
  descriptors : Bytes
  deriving DecidableEq

/-- `n` is as large as what is left is long. -/
def readStreams : Nat → Bytes → Option (List ElementaryStream)
  | _, [] => some []
  | n + 1, type :: p₁ :: p₂ :: l₁ :: l₂ :: rest =>
      let length := l₁.toNat % 16 * 256 + l₂.toNat
      if length ≤ rest.length then
        (readStreams n (rest.drop length)).map fun streams =>
          ⟨type, p₁.toNat % 32 * 256 + p₂.toNat, rest.take length⟩ :: streams
      else none
  | _, _ => none

/-- The map of a program. -/
structure ProgramMap where
  program : Nat
  pcrPid : Nat
  streams : List ElementaryStream
  deriving DecidableEq

def readMap (program : Nat) : Bytes → Option ProgramMap
  | p₁ :: p₂ :: l₁ :: l₂ :: rest =>
      let length := l₁.toNat % 16 * 256 + l₂.toNat
      (readStreams rest.length (rest.drop length)).map fun streams =>
        ⟨program, p₁.toNat % 32 * 256 + p₂.toNat, streams⟩
  | _ => none

def Section.programMap (s : Section) : Option ProgramMap :=
  if s.tableId = 0x02 then readMap s.id s.data else none

def readPmt (u : List TsPacket) : Option ProgramMap :=
  (readSectionUnit u).bind Section.programMap

/-! ## Elementary streams -/

/-- A PES packet without a header of its own. -/
def readText : Bytes → Option Bytes
  | p₀ :: p₁ :: p₂ :: id :: l₁ :: l₂ :: text =>
      if [p₀, p₁, p₂, id] = [0x00, 0x00, 0x01, 0xBF] ∧ l₁.toNat * 256 + l₂.toNat = text.length then
        some text
      else none
  | _ => none

/-- The stream ids a player looks for: the first of video and of sound, and the private ones. -/
def playerStreamId : CodecID → UInt8
  | .h264 | .h265 => 0xe0
  | .aac => 0xc0
  | .adpcm => 0xbd
  | .ggad => 0xbf

/-- The time and the payload of a unit; text has no time. -/
def readUnit (codec : CodecID) (u : List TsPacket) : Option (Int × Bytes) :=
  (tsPayloads (u.map TsPacket.bytes)).bind fun bytes =>
    if codec = .ggad then (readText bytes).map fun text => (0, text)
    else (readPes bytes).bind fun pes =>
      if pes.streamId = playerStreamId codec ∧
          (pes.packetLength = 0 ∨ pes.packetLength = bytes.length - 6) then
        some (pes.pts, pes.payload)
      else none

/-! ## Packets of one identifier -/

section

variable {α β : Type} {pid q : Nat} {read : List TsPacket → Option α}
  {read' : List TsPacket → Option β} {ps u : List TsPacket} {r : α} {rs : List α}

/-- What the units on an identifier read as. -/
def demux (pid : Nat) (read : List TsPacket → Option α) (ps : List TsPacket) : Option (List α) :=
  readUnits startsUnit read (onPid pid ps)

/-- Packets that are one unit. -/
structure OneUnit (pid : Nat) (read : List TsPacket → Option α) (r : α) (u : List TsPacket) :
    Prop where
  isUnit : IsUnit startsUnit u
  reads : read u = some r
  own : onPid pid u = u
  others : ∀ q, q ≠ pid → onPid q u = []

theorem demux_append_nil (h : onPid q u = []) : demux q read (ps ++ u) = demux q read ps := by
  unfold demux
  rw [onPid_append, h, List.append_nil]

/-- **A unit is added** to its own identifier, -/
theorem demux_own (h : OneUnit pid read r u) (hps : demux pid read ps = some rs) :
    demux pid read (ps ++ u) = some (rs ++ [r]) := by
  unfold demux at hps ⊢
  rw [onPid_append, h.own]
  exact readUnits_append h.isUnit hps h.reads

/-- and nothing to another. -/
theorem demux_other (h : OneUnit pid read r u) (hq : q ≠ pid) :
    demux q read' (ps ++ u) = demux q read' ps := demux_append_nil (h.others q hq)

end

/-- **The packets of a table** are one unit. -/
theorem oneUnit_sectionPackets {α : Type} {pid cc : Nat} (hpid : pid < 2 ^ 13) (hcc : cc < 16)
    (tid : UInt8) {id : Nat} (hid : id < 2 ^ 16) {data buf : Bytes} (hlen : data.length ≤ 1012)
    (hbuf : sectionBytes tid id data = some buf) (f : Section → Option α)
    {r : α} (hf : f ⟨tid, id, data⟩ = some r) :
    OneUnit pid (fun u => (readSectionUnit u).bind f) r
      (sectionPackets pid buf.length true cc buf).1 := by
  obtain ⟨hunit, hread⟩ := readSectionUnit_sectionPackets hpid cc tid hid hlen hbuf
  obtain ⟨hcounted, -⟩ := counted_sectionPackets hpid buf.length true cc hcc buf
  refine ⟨hunit, ?_, hcounted.onPid_eq, fun q hq => hcounted.onPid_ne hq⟩
  rw [hread, Option.bind_some, hf]

/-- Times are told up to 33 bits. -/
theorem writePts_emod (pts : Int) : writePts 2 (pts % 2 ^ 33) = writePts 2 pts := by
  have hhigh : pts % 2 ^ 33 / 2 ^ 30 % 2 ^ 3 = pts / 2 ^ 30 % 2 ^ 3 := by omega
  have hmiddle : pts % 2 ^ 33 / 2 ^ 15 % 2 ^ 15 = pts / 2 ^ 15 % 2 ^ 15 := by omega
  have hlow : pts % 2 ^ 33 / 2 ^ 0 % 2 ^ 15 = pts / 2 ^ 0 % 2 ^ 15 := by omega
  unfold writePts bits
  rw [hhigh, hmiddle, hlow]

theorem pesHeader_emod (codec : CodecID) {pts : Int} (hpts : pts ≠ -1) (n : Nat) :
    pesHeader codec (pts % 2 ^ 33) n = pesHeader codec pts n := by
  have hpos : pts % 2 ^ 33 ≠ -1 := by omega
  unfold pesHeader
  simp only [if_neg hpts, if_neg hpos, writePts_emod]

theorem readText_pesHeader {pts : Int} {text : Bytes} (hlen : text.length < 2 ^ 16) :
    readText (pesHeader .ggad pts text.length ++ text) = some text := by
  have hlength := toNat_put16 hlen
  show (if [_, _, _, _] = _ ∧ (UInt8.ofNat (text.length / 256)).toNat * 256 +
    (UInt8.ofNat text.length).toNat = text.length then some text else none) = some text
  exact if_pos ⟨rfl, hlength⟩

/-- A PES is read as what it was made of. -/
theorem readUnit_of_payloads {u : List TsPacket} (codec : CodecID) {pts : Int}
    (hpts : codec ≠ .ggad → pts ≠ -1) {payload : Bytes}
    (htext : codec = .ggad → payload.length < 2 ^ 16)
    (hu : tsPayloads (u.map TsPacket.bytes) =
      some (pesHeader codec pts payload.length ++ payload)) :
    readUnit codec u = some (if codec = .ggad then 0 else pts % 2 ^ 33, payload) := by
  unfold readUnit
  rw [hu, Option.bind_some]
  by_cases hcodec : codec = .ggad
  · subst hcodec
    rw [if_pos rfl, if_pos rfl, readText_pesHeader (htext rfl)]
    rfl
  · have hread := readPes_pesHeader hcodec (Int.emod_nonneg pts (by decide : (2 : Int) ^ 33 ≠ 0))
      (Int.emod_lt_of_pos pts (by decide : (0 : Int) < 2 ^ 33)) payload
    rw [pesHeader_emod codec (hpts hcodec)] at hread
    have hlen : (pesHeader codec pts payload.length).length = 16 := by
      unfold pesHeader
      simp only [if_neg hcodec, if_neg (hpts hcodec)]
      rfl
    have hid : streamId codec = playerStreamId codec := by cases codec <;> rfl
    rw [if_neg hcodec, if_neg hcodec, hread, Option.bind_some]
    refine if_pos ⟨hid, ?_⟩
    rw [List.length_append, hlen]
    dsimp only
    split
    · exact .inl rfl
    · exact .inr (by omega)

/-- **The packets of a PES** are one unit, with its time and its payload. -/
theorem oneUnit_pesPackets {pid : Nat} (hpid : pid < 2 ^ 13) (codec : CodecID) {pts : Int}
    (hpts : codec ≠ .ggad → pts ≠ -1) {payload : Bytes} (hne : payload ≠ [])
    (htext : codec = .ggad → payload.length < 2 ^ 16) :
    OneUnit pid (readUnit codec) (if codec = .ggad then 0 else pts % 2 ^ 33, payload)
      (pesPackets pid codec pts payload).1 := by
  obtain ⟨p, ps, part, hpackets, hfirst, hrest, hpayloads⟩ :=
    payloads_pesPackets hpid codec pts hne
  obtain ⟨hcounted, -⟩ := counted_pesPackets hpid codec pts payload
  refine ⟨?_, ?_, hcounted.onPid_eq, fun q hq => hcounted.onPid_ne hq⟩
  · obtain ⟨a, l, hal, rfl, rfl⟩ := List.map_eq_cons_iff.mp hpackets
    refine ⟨a, l, hal, hfirst.start, ?_⟩
    intro b hb
    obtain ⟨part, hb⟩ := hrest b.bytes (List.mem_map_of_mem hb)
    exact hb.start
  · rw [← hpackets] at hpayloads
    exact readUnit_of_payloads codec hpts htext hpayloads

end Maixii.Muxer
