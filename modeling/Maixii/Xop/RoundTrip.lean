import Maixii.Lib.Pieces
import Maixii.Xop.H265Source

/-!
# `Xop/RoundTrip.lean`: the packets of a unit give it back

The receivers of H.264 (RFC 6184) and of H.265 (RFC 7798) read a payload as a whole unit or as a
fragment of one, and rebuild the header of a unit from the header bytes of its fragments. The two
senders cut a long unit with the same loop, `pieces` of `Lib/Pieces.lean`, and differ in what they
write before a piece; so there is one lemma about the marks (`Fragmented.of_pieces`), and for each
format what its header bytes say. **The receiver has the unit back** (`h264_round_trip`,
`h265_round_trip`).
-/

set_option autoImplicit false

namespace Maixii.Xop

open Maixii.Lib

/-! ## Fragments -/

/-- The units in a list of payloads, to a receiver that reads a payload with `arrival`; none if it
cannot read one. -/
def depacketize (arrival : Bytes → Option (Arrival UInt8)) (payloads : List Bytes) :
    Option (List Bytes) :=
  (payloads.mapM arrival).map (receive none)

theorem depacketize_pieces {arrival : Bytes → Option (Arrival UInt8)} {wrap : Piece UInt8 → Bytes}
    {head : Bytes} (h : ∀ q, arrival (wrap q) = some (.part head q)) (ps : List (Piece UInt8)) :
    depacketize arrival (ps.map wrap) = some (receive none (ps.map (.part head))) := by
  have hread : (ps.map wrap).mapM arrival = some (ps.map (.part head)) := by
    induction ps with
    | nil => rfl
    | cons q ps ih =>
      rw [List.map_cons, List.mapM_cons, h, ih]
      rfl
  rw [depacketize, hread]
  rfl

/-- How a format marks its fragments: a header of so many bytes, whether a payload is a fragment, and
its S and E bits. -/
structure FragmentFormat where
  header : Nat
  isFragment : Bytes → Prop
  isStart : Bytes → Prop
  isEnd : Bytes → Prop

/-- The packets of a unit that is sent in fragments. -/
structure Fragmented (fmt : FragmentFormat) (packets : List SourcePacket) : Prop where
  two_le : 2 ≤ packets.length
  fragment : ∀ p ∈ packets, fmt.isFragment p.payload
  start : OnlyFirst (fun p : SourcePacket => fmt.isStart p.payload) packets
  ends : OnlyFinal (fun p : SourcePacket => fmt.isEnd p.payload) packets
  last : OnlyFinal (fun p : SourcePacket => p.pkt.last = 1) packets
  not_both : ∀ p ∈ packets, ¬ (fmt.isStart p.payload ∧ fmt.isEnd p.payload)
  not_empty : ∀ p ∈ packets, fmt.header < p.payload.length

/-- What is asked of the packets of a unit, to a receiver that reads a payload with `arrival`. -/
structure RoundTrip (fmt : FragmentFormat) (arrival : Bytes → Option (Arrival UInt8))
    (unit : Bytes) (packets : List SourcePacket) : Prop where
  back : depacketize arrival (packets.map SourcePacket.payload) = some [unit]
  payload_le : ∀ p ∈ packets, p.payload.length ≤ maxRtpPayloadSize
  marks : (packets.map SourcePacket.payload = [unit] ∧ ∀ p ∈ packets, p.pkt.last = 1) ∨
    Fragmented fmt packets

/-- What the loops emit: the header of a piece, the piece, and the flag of the last. -/
def Emits (wrap : Piece UInt8 → Bytes) (packets : List SourcePacket) (ps : List (Piece UInt8)) :
    Prop :=
  packets.map (fun p => (p.payload, p.pkt.last)) =
    ps.map fun q => (wrap q, if q.last then 1 else 0)

section

variable {fmt : FragmentFormat} {wrap : Piece UInt8 → Bytes} {packets : List SourcePacket}

theorem Emits.payloads {ps : List (Piece UInt8)} (h : Emits wrap packets ps) :
    packets.map SourcePacket.payload = ps.map wrap := by
  have hfst := congrArg (List.map Prod.fst) h
  rwa [List.map_map, List.map_map] at hfst

theorem Emits.lasts {ps : List (Piece UInt8)} (h : Emits wrap packets ps) :
    packets.map (fun p => p.pkt.last) = ps.map fun q => if q.last then 1 else 0 := by
  have hsnd := congrArg (List.map Prod.snd) h
  rwa [List.map_map, List.map_map] at hsnd

theorem Emits.mem {ps : List (Piece UInt8)} (h : Emits wrap packets ps) {p : SourcePacket}
    (hp : p ∈ packets) : ∃ q ∈ ps, wrap q = p.payload := by
  have hmem : p.payload ∈ packets.map SourcePacket.payload := List.mem_map_of_mem hp
  rw [h.payloads] at hmem
  exact List.mem_map.mp hmem

/-- **The fragments of a body** that is longer than one of them. -/
theorem Fragmented.of_pieces {limit n : Nat} {body : Bytes}
    (h : Emits wrap packets (pieces limit n true body)) (hlimit : 0 < limit) (hn : body.length < n)
    (hlong : limit < body.length) (hlength : ∀ q, (wrap q).length = fmt.header + q.body.length)
    (hfragment : ∀ q, fmt.isFragment (wrap q))
    (hstart : ∀ q, fmt.isStart (wrap q) ↔ q.first = true)
    (hend : ∀ q, fmt.isEnd (wrap q) ↔ q.last = true) : Fragmented fmt packets := by
  have hcount : packets.length = (pieces limit n true body).length := by
    have hlen := congrArg List.length h.payloads
    rwa [List.length_map, List.length_map] at hlen
  have hne : body ≠ [] := List.ne_nil_of_length_pos (by omega)
  have hfirst : OnlyFirst fmt.isStart (packets.map SourcePacket.payload) := by
    rw [h.payloads, onlyFirst_map]
    simp only [hstart]
    exact onlyFirst_pieces (by omega)
  have hfinal : OnlyFinal fmt.isEnd (packets.map SourcePacket.payload) := by
    rw [h.payloads, onlyFinal_map]
    simp only [hend]
    exact onlyFinal_pieces true hlimit hn
  have hflags : OnlyFinal (· = 1) (packets.map fun p => p.pkt.last) := by
    rw [h.lasts, onlyFinal_map]
    have hflag : ∀ q : Piece UInt8, (if q.last then (1 : Fin 2) else 0) = 1 ↔ q.last = true := by
      intro q
      cases q.last <;> decide
    simp only [hflag]
    exact onlyFinal_pieces true hlimit hn
  have htwo := two_le_length_pieces true hn hlong hlimit
  refine ⟨by omega, ?_, onlyFirst_map.mp hfirst, onlyFinal_map.mp hfinal, onlyFinal_map.mp hflags,
    ?_, ?_⟩
  · intro p hp
    obtain ⟨q, -, heq⟩ := h.mem hp
    rw [← heq]
    exact hfragment q
  · intro p hp
    obtain ⟨q, hq, heq⟩ := h.mem hp
    rw [← heq, hstart, hend]
    exact not_first_and_last hlong hq
  · intro p hp
    obtain ⟨q, hq, heq⟩ := h.mem hp
    have hpos := (length_of_mem_pieces hlimit hn hne hq).1
    rw [← heq, hlength]
    omega

/-- **A long unit is sent in fragments**, and the receiver has it back. -/
theorem RoundTrip.of_pieces {arrival : Bytes → Option (Arrival UInt8)} {limit n : Nat}
    {head body : Bytes} (h : Emits wrap packets (pieces limit n true body)) (hlimit : 0 < limit)
    (hn : body.length < n) (hlong : limit < body.length)
    (hpayload : fmt.header + limit = maxRtpPayloadSize)
    (hlength : ∀ q, (wrap q).length = fmt.header + q.body.length)
    (hread : ∀ q, arrival (wrap q) = some (.part head q))
    (hfragment : ∀ q, fmt.isFragment (wrap q))
    (hstart : ∀ q, fmt.isStart (wrap q) ↔ q.first = true)
    (hend : ∀ q, fmt.isEnd (wrap q) ↔ q.last = true) :
    RoundTrip fmt arrival (head ++ body) packets := by
  refine ⟨?_, ?_, .inr (.of_pieces h hlimit hn hlong hlength hfragment hstart hend)⟩
  · rw [h.payloads, depacketize_pieces hread, receive_pieces hlimit hn]
  · intro p hp
    obtain ⟨q, hq, heq⟩ := h.mem hp
    have hle := (length_of_mem_pieces hlimit hn (List.ne_nil_of_length_pos (by omega)) hq).2
    rw [← heq, hlength, ← hpayload]
    omega

/-- **A short unit is sent as it is.** -/
theorem RoundTrip.of_whole {arrival : Bytes → Option (Arrival UInt8)} {unit : Bytes}
    {p : SourcePacket} (hpayload : p.payload = unit) (hlast : p.pkt.last = 1)
    (hle : unit.length ≤ maxRtpPayloadSize) (hread : arrival unit = some (.whole unit)) :
    RoundTrip fmt arrival unit [p] := by
  have hmap : [p].map SourcePacket.payload = [unit] := by rw [List.map_singleton, hpayload]
  refine ⟨?_, ?_, .inl ⟨hmap, ?_⟩⟩
  · rw [hmap, depacketize, List.mapM_cons, hread]
    rfl
  · intro q hq
    rwa [List.mem_singleton.mp hq, hpayload]
  · intro q hq
    rwa [List.mem_singleton.mp hq]

end

/-! ## H.264 -/

namespace H264Source

/-- The type of a NAL unit, in the low bits of its header. -/
def nalUnitType (header : UInt8) : UInt8 := header &&& 0x1f

/-- A payload to a receiver of H.264: a single NAL unit packet, or an FU-A fragment, whose indicator
and header make up the unit's header. -/
def arrival : Bytes → Option (Arrival UInt8)
  | [] => none
  | b :: rest =>
      if 1 ≤ nalUnitType b ∧ nalUnitType b ≤ 23 then some (.whole (b :: rest))
      else if nalUnitType b = 28 then
        match rest with
        | [] => none
        | f :: body =>
            some (.part [(b &&& 0xE0) ||| (f &&& 0x1f)]
              ⟨decide (f &&& 0x80 ≠ 0), decide (f &&& 0x40 ≠ 0), body⟩)
      else none

def fuAFormat : FragmentFormat where
  header := 2
  isFragment := LooksLikeFuA
  isStart p := isFuStart p = true
  isEnd p := isFuEnd p = true

/-- The FU header of a piece of a unit with this first byte. -/
def fuHeader (b : UInt8) (first last : Bool) : UInt8 :=
  ((if first then 0x80 else 0) ||| (b &&& 0x1f)) ||| (if last then 0x40 else 0)

def fuA (b : UInt8) (q : Piece UInt8) : Bytes :=
  ((b &&& 0xE0) ||| 28) :: fuHeader b q.first q.last :: q.body

theorem fuHeader_first (b : UInt8) : fuHeader b true false = 0x80 ||| (b &&& 0x1f) :=
  UInt8.or_zero

/-- **What the FU header of a piece says**, and what the loop makes of it for the next one and for
the last. -/
theorem fuHeader_spec (b : UInt8) (first last : Bool) :
    (decide (fuHeader b first last &&& 0x80 ≠ 0) = first ∧
      decide (fuHeader b first last &&& 0x40 ≠ 0) = last ∧
      ((((b &&& 0xE0) ||| 28) &&& 0xE0) ||| (fuHeader b first last &&& 0x1f)) = b) ∧
      fuHeader b first false &&& ~~~0x80 = fuHeader b false false ∧
      fuHeader b first false ||| 0x40 = fuHeader b first true := by
  refine forall_byte (p := fun b => (decide (fuHeader b first last &&& 0x80 ≠ 0) = first ∧
      decide (fuHeader b first last &&& 0x40 ≠ 0) = last ∧
      ((((b &&& 0xE0) ||| 28) &&& 0xE0) ||| (fuHeader b first last &&& 0x1f)) = b) ∧
      fuHeader b first false &&& ~~~0x80 = fuHeader b false false ∧
      fuHeader b first false ||| 0x40 = fuHeader b first true) ?_ b
  cases first <;> cases last <;> decide +kernel

theorem fuHeader_next (b : UInt8) (first : Bool) :
    fuHeader b first false &&& ~~~0x80 = fuHeader b false false :=
  (fuHeader_spec b first false).2.1

theorem fuHeader_last (b : UInt8) (first : Bool) :
    fuHeader b first false ||| 0x40 = fuHeader b first true :=
  (fuHeader_spec b first false).2.2

theorem arrival_fuA (b : UInt8) (q : Piece UInt8) : arrival (fuA b q) = some (.part [b] q) := by
  obtain ⟨⟨hs, he, hb⟩, -⟩ := fuHeader_spec b q.first q.last
  have htype : nalUnitType ((b &&& 0xE0) ||| 28) = 28 := fu_indicator b
  unfold fuA arrival
  dsimp only
  rw [htype, if_neg (by decide), if_pos rfl, hs, he, hb]

theorem isFuStart_fuA (b : UInt8) (q : Piece UInt8) : isFuStart (fuA b q) = q.first := by
  obtain ⟨⟨hs, -, -⟩, -⟩ := fuHeader_spec b q.first q.last
  simp only [isFuStart, isFuA, fuA, fu_indicator, hs, decide_true, Bool.true_and]

theorem isFuEnd_fuA (b : UInt8) (q : Piece UInt8) : isFuEnd (fuA b q) = q.last := by
  obtain ⟨⟨-, he, -⟩, -⟩ := fuHeader_spec b q.first q.last
  simp only [isFuEnd, isFuA, fuA, fu_indicator, he, decide_true, Bool.true_and]

/-- The loop cuts the unit into pieces of 1418 bytes. -/
theorem fragments_pieces (timestamp : UInt32) (type b : UInt8) (n : Nat) (first : Bool)
    (buf : Bytes) :
    Emits (fuA b) (fragments timestamp type ((b &&& 0xE0) ||| 28) n (fuHeader b first false) buf)
      (pieces (maxRtpPayloadSize - 2) n first buf) := by
  induction n generalizing first buf with
  | zero => rfl
  | succ n ih =>
    by_cases hlong : maxRtpPayloadSize - 2 < buf.length
    · rw [fragments, dif_pos (by unfold maxRtpPayloadSize at *; omega), pieces_long first hlong,
        fuHeader_next]
      exact congrArg₂ List.cons rfl (ih false _)
    · rw [fragments, dif_neg (by unfold maxRtpPayloadSize at *; omega),
        pieces_short first (by omega), fuHeader_last]
      rfl

theorem handleFrame_emits (now : UInt32) {frame : AVFrame} {header : UInt8} {body : Bytes}
    (hframe : frame.buffer = header :: body) (hlong : maxRtpPayloadSize < frame.buffer.length) :
    Emits (fuA header) (handleFrame now frame)
      (pieces (maxRtpPayloadSize - 2) (body.length + 1) true body) := by
  unfold handleFrame
  rw [dif_neg (by omega)]
  simp only [hframe, ← fuHeader_first]
  exact fragments_pieces _ frame.type header (body.length + 1) true body

/-- **The round trip of H.264**, for every unit that a single NAL unit packet may hold. The receiver
puts the unit together from the payloads alone and knows nothing of the source. The bounds on the
type tell a unit from packets of several units and from fragments, which a receiver would take it
for; on the length there is no condition. -/
theorem h264_round_trip (now : UInt32) (frame : AVFrame) (header : UInt8) (body : Bytes)
    (hframe : frame.buffer = header :: body) (hlow : 1 ≤ nalUnitType header)
    (hhigh : nalUnitType header ≤ 23) :
    RoundTrip fuAFormat arrival frame.buffer (handleFrame now frame) := by
  by_cases hlong : maxRtpPayloadSize < frame.buffer.length
  · have hemits := handleFrame_emits now hframe hlong
    rw [hframe, List.length_cons] at hlong
    rw [hframe, show header :: body = [header] ++ body from rfl]
    refine .of_pieces hemits (by decide) (Nat.lt_succ_self _) ?_ rfl ?_ (arrival_fuA header)
      ?_ ?_ ?_
    · unfold maxRtpPayloadSize at *
      omega
    · intro q
      simp only [fuA, fuAFormat, List.length_cons]
      omega
    · intro q
      exact ⟨_, rfl, fu_indicator header⟩
    · intro q
      simp only [fuAFormat, isFuStart_fuA]
    · intro q
      simp only [fuAFormat, isFuEnd_fuA]
  · have hread : arrival frame.buffer = some (.whole frame.buffer) := by
      rw [hframe]
      exact if_pos ⟨hlow, hhigh⟩
    unfold handleFrame
    rw [dif_pos (by omega)]
    exact .of_whole rfl rfl (by omega) hread

/-- A frame of `n` bytes with this first byte. -/
def sampleFrame (header : UInt8) (n : Nat) (h : n + 2 < 2 ^ 32) : AVFrame where
  buffer := header :: List.replicate n 0
  type := 1
  timestamp := 0
  size_lt := by rwa [List.length_cons, List.length_replicate]

/-- A unit of two fragments. -/
theorem h264_round_trip_two :
    RoundTrip fuAFormat arrival (sampleFrame 0x65 1420 (by decide)).buffer
      (handleFrame 0 (sampleFrame 0x65 1420 (by decide))) :=
  h264_round_trip 0 _ 0x65 (List.replicate 1420 0) rfl (by decide) (by decide)

end H264Source

/-! ## H.265 -/

namespace H265Source

open H264Source (forall_byte sampleFrame)

/-- The type of a NAL unit, in the first of its two header bytes. -/
def nalUnitType (header : UInt8) : UInt8 := (header &&& 0x7E) >>> (1 : UInt8)

/-- A payload to a receiver of H.265: a single NAL unit packet, or a fragment, whose payload header
and FU header make up the unit's header. -/
def arrival : Bytes → Option (Arrival UInt8)
  | b0 :: b1 :: rest =>
      if nalUnitType b0 < 48 then some (.whole (b0 :: b1 :: rest))
      else if nalUnitType b0 = 49 then
        match rest with
        | [] => none
        | f :: body =>
            some (.part [(b0 &&& 0x81) ||| ((f &&& 0x3f) <<< (1 : UInt8)), b1]
              ⟨decide (f &&& 0x80 ≠ 0), decide (f &&& 0x40 ≠ 0), body⟩)
      else none
  | _ => none

/-- The payload is a fragment, with this bit of its third byte set. -/
def isFu (bit : UInt8) : Bytes → Prop
  | b0 :: _ :: f :: _ => nalUnitType b0 = 49 ∧ f &&& bit ≠ 0
  | _ => False

def fuFormat : FragmentFormat where
  header := 3
  isFragment p := ∃ b ∈ p.head?, nalUnitType b = 49
  isStart := isFu 0x80
  isEnd := isFu 0x40

/-- The FU header of a piece of a unit with this first byte. -/
def fuHeader (b : UInt8) (first last : Bool) : UInt8 :=
  ((if first then 0x80 else 0) ||| nalUnitType b) ||| (if last then 0x40 else 0)

def payloadHeader (b : UInt8) : UInt8 := (b &&& 0x81) ||| ((49 : UInt8) <<< (1 : UInt8))

def fu (b0 b1 : UInt8) (q : Piece UInt8) : Bytes :=
  payloadHeader b0 :: b1 :: fuHeader b0 q.first q.last :: q.body

theorem fuHeader_first (b : UInt8) : fuHeader b true false = 0x80 ||| nalUnitType b :=
  UInt8.or_zero

/-- **What the headers of a piece say**, and what the loop makes of the second for the next one and
for the last. The type of the unit leaves the marks alone. -/
theorem fuHeader_spec (b : UInt8) (first last : Bool) :
    nalUnitType (payloadHeader b) = 49 ∧
      (decide (fuHeader b first last &&& 0x80 ≠ 0) = first ∧
        decide (fuHeader b first last &&& 0x40 ≠ 0) = last ∧
        ((payloadHeader b &&& 0x81) ||| ((fuHeader b first last &&& 0x3f) <<< (1 : UInt8))) = b) ∧
      fuHeader b first false &&& ~~~0x80 = fuHeader b false false ∧
      fuHeader b first false ||| 0x40 = fuHeader b first true := by
  refine forall_byte (p := fun b => nalUnitType (payloadHeader b) = 49 ∧
      (decide (fuHeader b first last &&& 0x80 ≠ 0) = first ∧
        decide (fuHeader b first last &&& 0x40 ≠ 0) = last ∧
        ((payloadHeader b &&& 0x81) ||| ((fuHeader b first last &&& 0x3f) <<< (1 : UInt8))) = b) ∧
      fuHeader b first false &&& ~~~0x80 = fuHeader b false false ∧
      fuHeader b first false ||| 0x40 = fuHeader b first true) ?_ b
  cases first <;> cases last <;> decide +kernel

theorem fuHeader_next (b : UInt8) (first : Bool) :
    fuHeader b first false &&& ~~~0x80 = fuHeader b false false :=
  (fuHeader_spec b first false).2.2.1

theorem fuHeader_last (b : UInt8) (first : Bool) :
    fuHeader b first false ||| 0x40 = fuHeader b first true :=
  (fuHeader_spec b first false).2.2.2

theorem nalUnitType_payloadHeader (b : UInt8) : nalUnitType (payloadHeader b) = 49 :=
  (fuHeader_spec b false false).1

theorem arrival_fu (b0 b1 : UInt8) (q : Piece UInt8) :
    arrival (fu b0 b1 q) = some (.part [b0, b1] q) := by
  obtain ⟨-, ⟨hs, he, hb⟩, -⟩ := fuHeader_spec b0 q.first q.last
  unfold fu arrival
  dsimp only
  rw [nalUnitType_payloadHeader, if_neg (by decide), if_pos rfl, hs, he, hb]

theorem isFu_fu (b0 b1 : UInt8) (q : Piece UInt8) :
    (isFu 0x80 (fu b0 b1 q) ↔ q.first = true) ∧ (isFu 0x40 (fu b0 b1 q) ↔ q.last = true) := by
  obtain ⟨-, ⟨hs, he, -⟩, -⟩ := fuHeader_spec b0 q.first q.last
  have hfirst : fuHeader b0 q.first q.last &&& 0x80 ≠ 0 ↔ q.first = true :=
    ⟨fun h => hs.symm.trans (decide_eq_true h), fun h => of_decide_eq_true (hs.trans h)⟩
  have hlast : fuHeader b0 q.first q.last &&& 0x40 ≠ 0 ↔ q.last = true :=
    ⟨fun h => he.symm.trans (decide_eq_true h), fun h => of_decide_eq_true (he.trans h)⟩
  exact ⟨(and_iff_right (nalUnitType_payloadHeader b0)).trans hfirst,
    (and_iff_right (nalUnitType_payloadHeader b0)).trans hlast⟩

/-- The loop cuts the unit into pieces of 1417 bytes. -/
theorem fragments_pieces (timestamp : UInt32) (type b0 b1 : UInt8) (n : Nat) (first : Bool)
    (buf : Bytes) :
    Emits (fu b0 b1)
      (fragments timestamp type (payloadHeader b0) b1 n (fuHeader b0 first false) buf)
      (pieces (maxRtpPayloadSize - 3) n first buf) := by
  induction n generalizing first buf with
  | zero => rfl
  | succ n ih =>
    by_cases hlong : maxRtpPayloadSize - 3 < buf.length
    · rw [fragments, dif_pos (by unfold maxRtpPayloadSize at *; omega), pieces_long first hlong,
        fuHeader_next]
      exact congrArg₂ List.cons rfl (ih false _)
    · rw [fragments, dif_neg (by unfold maxRtpPayloadSize at *; omega),
        pieces_short first (by omega), fuHeader_last]
      rfl

theorem handleFrame_emits (now : UInt32) {frame : AVFrame} {b0 b1 : UInt8} {body : Bytes}
    (hframe : frame.buffer = b0 :: b1 :: body) (hlong : maxRtpPayloadSize < frame.buffer.length) :
    Emits (fu b0 b1) (handleFrame now frame)
      (pieces (maxRtpPayloadSize - 3) (body.length + 1) true body) := by
  unfold handleFrame
  rw [dif_neg (by omega)]
  simp only [hframe]
  rw [← nalUnitType, ← fuHeader_first]
  exact fragments_pieces _ frame.type b0 b1 (body.length + 1) true body

/-- **The round trip of H.265**, for every unit of a type that is no packet of its own. The type
stands in the first of two header bytes, both of which every fragment repeats with the type changed,
so the receiver has the header to restore as well as the body to collect; again there is no
condition on the length. -/
theorem h265_round_trip (now : UInt32) (frame : AVFrame) (b0 b1 : UInt8) (body : Bytes)
    (hframe : frame.buffer = b0 :: b1 :: body) (htype : nalUnitType b0 < 48) :
    RoundTrip fuFormat arrival frame.buffer (handleFrame now frame) := by
  by_cases hlong : maxRtpPayloadSize < frame.buffer.length
  · have hemits := handleFrame_emits now hframe hlong
    rw [hframe, List.length_cons, List.length_cons] at hlong
    rw [hframe, show b0 :: b1 :: body = [b0, b1] ++ body from rfl]
    refine .of_pieces hemits (by decide) (Nat.lt_succ_self _) ?_ rfl ?_ (arrival_fu b0 b1) ?_
      (fun q => (isFu_fu b0 b1 q).1) (fun q => (isFu_fu b0 b1 q).2)
    · unfold maxRtpPayloadSize at *
      omega
    · intro q
      simp only [fu, fuFormat, List.length_cons]
      omega
    · intro q
      exact ⟨_, rfl, nalUnitType_payloadHeader b0⟩
  · have hread : arrival frame.buffer = some (.whole frame.buffer) := by
      rw [hframe]
      exact if_pos htype
    unfold handleFrame
    rw [dif_pos (by omega)]
    exact .of_whole rfl rfl (by omega) hread

/-- A unit of two fragments. -/
theorem h265_round_trip_two :
    RoundTrip fuFormat arrival (sampleFrame 0x26 1420 (by decide)).buffer
      (handleFrame 0 (sampleFrame 0x26 1420 (by decide))) :=
  h265_round_trip 0 _ 0x26 0 (List.replicate 1419 0) rfl (by decide)

end H265Source

end Maixii.Xop
