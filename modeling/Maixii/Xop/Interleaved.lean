import Maixii.Xop.Framing

/-!
# `Xop/Interleaved.lean`: RTCP frames between the requests

On the RTSP socket a client also sends `$` frames. `ParseRequest` only looks at the first unread
byte, and `HandleRtcp` takes a frame to be complete when **no more than** the frame is in the
buffer. So a frame gets through when it is read on its own: not behind a line that has no end yet,
nor in two halves of more than four bytes, nor with anything behind it.

Every byte of the stream carries a `Mark` that says what it is; the law is that it is used as that
(`rtcp_demultiplexed`).
-/

set_option autoImplicit false

namespace Maixii.Xop

open Maixii.Lib Maixii.Net

/-! ## The stream -/

/-- A `$`-framed block. -/
structure RtcpFrame where
  channel : UInt8
  payload : Bytes
  short : payload.length < 2 ^ 16

def RtcpFrame.bytes (f : RtcpFrame) : Bytes :=
  36 :: f.channel :: UInt8.ofNat (f.payload.length / 256) :: UInt8.ofNat f.payload.length ::
    f.payload

/-- What a client sends next: some text, or a frame. The texts together are the requests; a request
need not be in one piece. -/
inductive Segment
  | text (bytes : Bytes)
  | frame (f : RtcpFrame)

def Segment.bytes : Segment → Bytes
  | .text bytes => bytes
  | .frame f => f.bytes

/-- What a byte on the wire is: text, or of a frame, and then whether it is the last one. -/
inductive Mark
  | text (b : UInt8)
  | frame (f : RtcpFrame) (last : Bool) (b : UInt8)

def RtcpFrame.marks (f : RtcpFrame) : List Mark :=
  (f.bytes.take (f.bytes.length - 1)).map (.frame f false) ++
    (f.bytes.drop (f.bytes.length - 1)).map (.frame f true)

def Segment.marks : Segment → List Mark
  | .text bytes => bytes.map .text
  | .frame f => f.marks

def marks (segs : List Segment) : List Mark := segs.flatMap Segment.marks

def wire (segs : List Segment) : Bytes := segs.flatMap Segment.bytes

def Mark.byte : Mark → UInt8
  | .text b => b
  | .frame _ _ b => b

/-- How the byte should be used. -/
def Mark.use : Mark → Use × UInt8
  | .text b => (.parsed, b)
  | .frame _ _ b => (.rtcp, b)

/-- The text among the marks. -/
def texts (ms : List Mark) : Bytes :=
  ms.filterMap fun m => match m with
    | .text b => some b
    | .frame _ _ _ => none

/-- The frames that end among the marks. -/
def finished (ms : List Mark) : List RtcpFrame :=
  ms.filterMap fun m => match m with
    | .frame f true _ => some f
    | _ => none

/-- The bytes that were consumed as RTCP. -/
def rtcpBytes (us : List (Use × UInt8)) : Bytes :=
  us.filterMap fun u => if u.1 = .rtcp then some u.2 else none

/-! ## The condition -/

/-- `n` bytes of a frame are unread, and that is right: too few to be looked at, or all of them,
in a frame whose length survives the sign of `char`. -/
def frameOk (charSigned : Bool) (f : RtcpFrame) (n : Nat) : Bool :=
  (decide (n ≤ 4) && decide (n < f.bytes.length)) ||
    (decide (n = f.bytes.length) && decide (f.payload ≠ []) &&
      !(charSigned && decide (252 ≤ f.payload.length % 256)))

/-- **The condition on a read**, by what is first among the unread bytes. A frame: the parser is
between two requests, and the frame is unread as `frameOk` says. Text: the text is a piece the
parser handles as it is meant, and if a frame has begun behind it, then the text ends a request,
the frame is not complete, and what there is of it has no line end and is within the limit. -/
def demuxed (charSigned : Bool) (rs : List Request) (segs : List Segment) (c : Conversation)
    (bytes : Bytes) : Bool :=
  let unread := c.reader.buffer.readable ++ bytes
  let ahead := ((marks segs).drop c.uses.length).take unread.length
  let got := texts ((marks segs).take c.received.length)
  let new := texts (((marks segs).drop c.received.length).take bytes.length)
  let tail := unread.drop (texts ahead).length
  let done := arrived rs got
  match ahead with
  | .frame f _ _ :: _ => decide (c.reader.request.state = .parseRequestLine) &&
      frameOk charSigned f unread.length
  | _ => textOk (rs.drop done.length) (got.drop (stream done).length) new &&
      (decide (tail = []) ||
        (finished ahead).isEmpty && decide (stream (arrived rs (got ++ new)) = got ++ new) &&
          decide (findFirst crlf tail = none) && decide (tail.length ≤ maxRtspMessageSize))

def Demuxed (charSigned : Bool) (rs : List Request) (segs : List Segment) (c : Conversation)
    (chunk : Chunk) : Prop :=
  c.reader.buffer.canRead = true ∧ demuxed charSigned rs segs c chunk.bytes = true

instance (charSigned : Bool) (rs : List Request) (segs : List Segment) (c : Conversation)
    (chunk : Chunk) : Decidable (Demuxed charSigned rs segs c chunk) :=
  inferInstanceAs (Decidable (_ ∧ _))

/-! ## Marks -/

theorem RtcpFrame.length_bytes (f : RtcpFrame) : f.bytes.length = f.payload.length + 4 := rfl

/-- The last byte is one byte. -/
theorem RtcpFrame.last_byte (f : RtcpFrame) :
    ∃ b, f.bytes.drop (f.bytes.length - 1) = [b] := by
  apply List.length_eq_one_iff.mp
  rw [List.length_drop, f.length_bytes]
  omega

theorem RtcpFrame.map_byte_marks (f : RtcpFrame) : f.marks.map Mark.byte = f.bytes := by
  have h : ∀ (last : Bool) (s : Bytes), (s.map (Mark.frame f last)).map Mark.byte = s := by
    intro last s
    rw [List.map_map]
    exact List.map_id s
  rw [RtcpFrame.marks, List.map_append, h, h, List.take_append_drop]

theorem RtcpFrame.map_use_marks (f : RtcpFrame) : f.marks.map Mark.use = f.bytes.map (.rtcp, ·) := by
  rw [RtcpFrame.marks, List.map_append, List.map_map, List.map_map, ← f.map_byte_marks,
    RtcpFrame.map_byte_marks]
  conv_rhs => rw [← List.take_append_drop (f.bytes.length - 1) f.bytes, List.map_append]
  rfl

@[simp] theorem RtcpFrame.length_marks (f : RtcpFrame) : f.marks.length = f.bytes.length := by
  rw [← List.length_map Mark.byte, f.map_byte_marks]

@[simp] theorem map_byte_text (s : Bytes) : (s.map Mark.text).map Mark.byte = s := by
  rw [List.map_map]
  exact List.map_id s

@[simp] theorem marks_nil : marks [] = [] := rfl

@[simp] theorem marks_cons (seg : Segment) (segs : List Segment) :
    marks (seg :: segs) = seg.marks ++ marks segs := rfl

@[simp] theorem marks_append (segs segs' : List Segment) :
    marks (segs ++ segs') = marks segs ++ marks segs' := List.flatMap_append

theorem map_byte_marks (segs : List Segment) : (marks segs).map Mark.byte = wire segs := by
  induction segs with
  | nil => rfl
  | cons seg segs ih =>
    rw [marks_cons, List.map_append, ih]
    cases seg with
    | text bytes => exact congrArg (· ++ wire segs) (map_byte_text bytes)
    | frame f => exact congrArg (· ++ wire segs) f.map_byte_marks

@[simp] theorem texts_append (ms ns : List Mark) : texts (ms ++ ns) = texts ms ++ texts ns :=
  List.filterMap_append

@[simp] theorem finished_append (ms ns : List Mark) :
    finished (ms ++ ns) = finished ms ++ finished ns := List.filterMap_append

@[simp] theorem rtcpBytes_append (us vs : List (Use × UInt8)) :
    rtcpBytes (us ++ vs) = rtcpBytes us ++ rtcpBytes vs := List.filterMap_append

@[simp] theorem texts_text (s : Bytes) : texts (s.map .text) = s := by
  induction s with
  | nil => rfl
  | cons b s ih =>
    show b :: texts (s.map .text) = b :: s
    rw [ih]

@[simp] theorem finished_text (s : Bytes) : finished (s.map .text) = [] := by
  induction s with
  | nil => rfl
  | cons b s ih => exact ih

theorem texts_frame (f : RtcpFrame) (last : Bool) (s : Bytes) :
    texts (s.map (.frame f last)) = [] := by
  induction s with
  | nil => rfl
  | cons b s ih => exact ih

theorem finished_inner (f : RtcpFrame) (s : Bytes) : finished (s.map (.frame f false)) = [] := by
  induction s with
  | nil => rfl
  | cons b s ih => exact ih

@[simp] theorem RtcpFrame.texts_marks (f : RtcpFrame) : texts f.marks = [] := by
  rw [RtcpFrame.marks, texts_append, texts_frame, texts_frame, List.append_nil]

@[simp] theorem RtcpFrame.finished_marks (f : RtcpFrame) : finished f.marks = [f] := by
  obtain ⟨b, hb⟩ := f.last_byte
  rw [RtcpFrame.marks, finished_append, finished_inner, hb]
  rfl

/-- A frame that is not complete. -/
theorem RtcpFrame.marks_take {f : RtcpFrame} {j : Nat} (h : j < f.bytes.length) :
    f.marks.take j = (f.bytes.take j).map (.frame f false) := by
  rw [RtcpFrame.marks, List.take_append_of_le_length (by
    rw [List.length_map, List.length_take]
    omega), ← List.map_take, List.take_take]
  congr 2
  omega

theorem texts_take (f : RtcpFrame) (j : Nat) : texts (f.marks.take j) = [] := by
  have h := f.texts_marks
  rw [← List.take_append_drop j f.marks, texts_append] at h
  exact (List.append_eq_nil_iff.mp h).1

/-- What has been used right so far. -/
theorem rtcpBytes_marks (segs : List Segment) :
    rtcpBytes ((marks segs).map Mark.use) = (finished (marks segs)).flatMap RtcpFrame.bytes := by
  induction segs with
  | nil => rfl
  | cons seg segs ih =>
    rw [marks_cons, List.map_append, rtcpBytes_append, ih, finished_append, List.flatMap_append]
    congr 1
    cases seg with
    | text bytes =>
      rw [Segment.marks, finished_text]
      induction bytes with
      | nil => rfl
      | cons b bytes ih' => exact ih'
    | frame f =>
      rw [Segment.marks, f.map_use_marks, f.finished_marks]
      have h : ∀ s : Bytes, rtcpBytes (s.map (Use.rtcp, ·)) = s := by
        intro s
        induction s with
        | nil => rfl
        | cons b s ih' => exact congrArg (b :: ·) ih'
      rw [h]
      exact (List.append_nil _).symm

/-- Ahead is text, and then a frame or nothing. -/
theorem marks_ahead (segs : List Segment) :
    ∃ (t : Bytes) (segs' : List Segment), marks segs = t.map .text ++ marks segs' ∧
      (segs' = [] ∨ ∃ f segs'', segs' = .frame f :: segs'') := by
  induction segs with
  | nil => exact ⟨[], [], rfl, Or.inl rfl⟩
  | cons seg segs ih =>
    cases seg with
    | frame f => exact ⟨[], .frame f :: segs, rfl, Or.inr ⟨f, segs, rfl⟩⟩
    | text bytes =>
      obtain ⟨t, segs', h, h'⟩ := ih
      refine ⟨bytes ++ t, segs', ?_, h'⟩
      rw [marks_cons, h, Segment.marks, List.map_append, List.append_assoc]

/-! ## Reading a frame -/

/-- A `$` makes the parser stand aside, and take note. -/
theorem onRead_dollar (charSigned : Bool) {x : RtspReader} (h : x.buffer.readable.head? = some 36)
    (hlen : (handleRtcp charSigned x.buffer).readable.length ≤ maxRtspMessageSize) :
    onRead charSigned x = some ⟨true, none, [],
      BufferReader.taken x.buffer (handleRtcp charSigned x.buffer), [],
      ⟨{ x.request with method := .rtcp }, handleRtcp charSigned x.buffer⟩⟩ := by
  have h0 : x.buffer.readableBytes ≠ 0 := by
    intro h0
    rw [← BufferReader.length_readable] at h0
    rw [List.eq_nil_of_length_eq_zero h0] at h
    simp at h
  have hlen' : ¬ maxRtspMessageSize < (handleRtcp charSigned x.buffer).readableBytes := by
    rw [← BufferReader.length_readable]
    omega
  have hparse : x.request.parseRequest x.buffer =
      some (true, { x.request with method := .rtcp }, x.buffer) := by
    rw [RtspRequest.parseRequest, if_pos h]
  unfold onRead handleRtspRequest
  rw [if_neg h0, hparse]
  simp [hlen']

/-- What `HandleRtcp` makes of the length of a complete frame: enough for the frame, unless the sign
of the last length byte makes it wrap around. -/
theorem rtcpSize_covers {charSigned : Bool} {n : Nat} (hn : n < 2 ^ 16)
    (h : (charSigned && decide (252 ≤ n % 256)) = false) :
    n + 4 ≤ (rtcpSize charSigned (UInt8.ofNat (n / 256)) (UInt8.ofNat n) + 4) % 2 ^ 32 := by
  have hhi : (UInt8.ofNat (n / 256)).toNat = n / 256 := by
    rw [UInt8.toNat_ofNat']
    omega
  have hlo : (UInt8.ofNat n).toNat = n % 256 := UInt8.toNat_ofNat'
  have hge : ∀ b : UInt8, 128 ≤ b ↔ 128 ≤ b.toNat := fun b => UInt8.le_iff_toNat_le
  simp only [rtcpSize, hge, hhi, hlo]
  cases charSigned with
  | false =>
    simp only [Bool.false_and, Bool.false_eq_true, if_false]
    omega
  | true =>
    simp only [Bool.true_and, decide_eq_false_iff_not, decide_eq_true_eq] at h ⊢
    split
    · omega
    · split <;> omega

/-- **A frame on its own.** Too little of it stays where it is, all of it is consumed. -/
theorem onRead_frame (charSigned : Bool) {x : RtspReader} {f : RtcpFrame} {j : Nat} (hj : 0 < j)
    (hb : x.buffer.readable = f.bytes.take j) (hok : frameOk charSigned f j = true) :
    ∃ o, onRead charSigned x = some o ∧ o.ok = true ∧ o.command = none ∧ o.parsed = [] ∧
      o.discarded = [] ∧ o.reader.request = { x.request with method := .rtcp } ∧
      ((j < f.bytes.length ∧ o.rtcp = [] ∧ o.reader.buffer.readable = f.bytes.take j) ∨
        (j = f.bytes.length ∧ o.rtcp = f.bytes ∧ o.reader.buffer.readable = [])) := by
  obtain ⟨j, rfl⟩ : ∃ i, j = i + 1 := ⟨j - 1, by omega⟩
  have hhead : x.buffer.readable.head? = some 36 := by
    rw [hb]
    rfl
  simp only [frameOk, Bool.or_eq_true, Bool.and_eq_true, decide_eq_true_eq,
    Bool.not_eq_true'] at hok
  rcases hok with ⟨h4, hlt⟩ | ⟨⟨hall, hpay⟩, hsign⟩
  · -- At most the four bytes of the header.
    have hsame : handleRtcp charSigned x.buffer = x.buffer := by
      unfold handleRtcp
      split
      · rename_i hpat
        have hlen := congrArg List.length (hb.symm.trans hpat)
        simp only [List.length_take, List.length_cons] at hlen
        omega
      · rfl
    have hlen : (handleRtcp charSigned x.buffer).readable.length ≤ maxRtspMessageSize := by
      rw [hsame, hb, List.length_take]
      have : maxRtspMessageSize = 2048 := rfl
      omega
    refine ⟨_, onRead_dollar charSigned hhead hlen, rfl, rfl, rfl, rfl, rfl, Or.inl ⟨hlt, ?_, ?_⟩⟩
    · simp only [hsame, BufferReader.taken_self]
    · simp only [hsame, hb]
  · -- The whole frame.
    rw [hall, List.take_length] at hb
    obtain ⟨p, ps, hp⟩ := List.exists_cons_of_ne_nil hpay
    have hcover := rtcpSize_covers f.short hsign
    have hlen : x.buffer.readableBytes = f.payload.length + 4 := by
      rw [← BufferReader.length_readable, hb, f.length_bytes]
    have hnil : (handleRtcp charSigned x.buffer).readable = [] := by
      unfold handleRtcp
      split
      · rename_i a hi lo b rest hpat
        have hpat' := hpat
        rw [hb, RtcpFrame.bytes] at hpat'
        simp only [List.cons.injEq, true_and] at hpat'
        obtain ⟨-, rfl, rfl, -⟩ := hpat'
        rw [if_pos (by omega), BufferReader.readable_retrieve, hb]
        exact List.drop_eq_nil_of_le (by rw [f.length_bytes]; omega)
      · rename_i hno
        exact (hno f.channel _ _ p ps (by rw [hb, RtcpFrame.bytes, hp])).elim
    refine ⟨_, onRead_dollar charSigned hhead (by rw [hnil]; exact Nat.zero_le _), rfl, rfl, rfl,
      rfl, rfl, Or.inr ⟨hall, ?_, hnil⟩⟩
    exact (BufferReader.taken_eq (by rw [hnil, List.append_nil])).trans hb

/-! ## The invariant -/

/-- What is unread: the beginning of a line, or of a frame. -/
inductive Unread (rest : List Segment) (part : Bytes) (x : RtspReader) : Prop
  | text {rest' : List Segment} (marks : marks rest = part.map .text ++ marks rest')
      (buffer : x.buffer.readable = part)
  | frame {f : RtcpFrame} {rest' : List Segment} {j : Nat} (part : part = [])
      (marks : marks rest = f.marks ++ marks rest') (short : j < f.bytes.length)
      (buffer : x.buffer.readable = f.bytes.take j) (between : Between x.request)

/-- Where the reader is: the segments `before` have been used as they should be, `rest` is to be
read; of the text, the requests `done` have been dispatched, and of `todo` the text `s` has come in,
with `part` no line yet. -/
structure Position (rs : List Request) (segs : List Segment) (c : Conversation)
    (before rest : List Segment) (done todo : List Request) (s : Bytes) (n : Nat) (part : Bytes) :
    Prop where
  ok : c.ok = true
  marks_eq : marks segs = marks before ++ marks rest
  uses : c.uses = (marks before).map Mark.use
  received : c.received = wire before ++ c.reader.buffer.readable
  requests : rs = done ++ todo
  text : texts (marks before) ++ part = stream done ++ s
  commands : c.commands.map RtspRequest.command = done.map Request.command
  placed : Placed todo s c.reader.request n part
  unread : Unread rest part c.reader

variable {charSigned : Bool} {rs : List Request} {segs : List Segment} {c c' : Conversation}
  {chunk : Chunk} {before rest : List Segment} {done todo : List Request} {s part : Bytes} {n : Nat}

theorem length_marks (segs : List Segment) : (marks segs).length = (wire segs).length := by
  rw [← map_byte_marks, List.length_map]

theorem take_marks_append (before : List Segment) (ms : List Mark) (m : Nat) :
    (marks before ++ ms).take ((wire before).length + m) = marks before ++ ms.take m := by
  rw [← length_marks, List.take_length_add_append]

theorem drop_marks_append (before : List Segment) (ms : List Mark) (m : Nat) :
    (marks before ++ ms).drop ((wire before).length + m) = ms.drop m := by
  rw [← length_marks, List.drop_length_add_append]

/-- The marks of what is unread. -/
theorem Unread.marks_take {x : RtspReader} (h : Unread rest part x) :
    texts ((marks rest).take x.buffer.readable.length) = part ∧
      finished ((marks rest).take x.buffer.readable.length) = [] := by
  cases h with
  | text hm hb =>
    have htake : (marks rest).take x.buffer.readable.length = part.map .text := by
      rw [hm, hb, List.take_append_of_le_length (by rw [List.length_map]),
        List.take_of_length_le (by rw [List.length_map])]
    rw [htake]
    exact ⟨texts_text part, finished_text part⟩
  | @frame f rest' j hp hm hj hb _ =>
    have hlen : x.buffer.readable.length = j := by
      rw [hb, List.length_take]
      omega
    have htake : (marks rest).take x.buffer.readable.length = f.marks.take j := by
      rw [hm, hlen, List.take_append_of_le_length (by rw [f.length_marks]; omega)]
    rw [htake, hp, texts_take, RtcpFrame.marks_take hj, finished_inner]
    exact ⟨rfl, rfl⟩

/-- What the marks say of what has been received. -/
theorem Position.got (h : Position rs segs c before rest done todo s n part) :
    texts ((marks segs).take c.received.length) = stream done ++ s ∧
      finished ((marks segs).take c.received.length) = finished (marks before) := by
  obtain ⟨ht, hf⟩ := h.unread.marks_take
  rw [h.marks_eq, h.received, List.length_append, take_marks_append, texts_append,
    finished_append, ht, hf, List.append_nil]
  exact ⟨h.text, rfl⟩

theorem Position.arrived_eq (h : Position rs segs c before rest done todo s n part) :
    arrived rs (stream done ++ s) = done := by
  rw [h.requests, arrived_append, h.placed.arrived_eq, List.append_nil]

/-- The parser is between requests if it is not behind a request line and nothing is unread. -/
theorem Placed.between {r : RtspRequest} (h : Placed todo s r n [])
    (hs : r.state = .parseRequestLine) : n = 0 ∧ Between r := by
  rcases h.parser with h | ⟨_, _, _, _, _, hin⟩
  · exact h
  · rw [hin.state] at hs
    exact absurd hs (by decide)

/-! ## One chunk -/

/-- **A chunk of a frame.** -/
theorem Position.frame_step (h : Position rs segs c before rest done todo s n part)
    {f : RtcpFrame} {rest' : List Segment} (hrest : marks rest = f.marks ++ marks rest')
    (hstate : c.reader.request.state = .parseRequestLine)
    (hok : frameOk charSigned f (c.reader.buffer.readable ++ chunk.bytes).length = true)
    (hu : c.reader.buffer.readable ++ chunk.bytes <+: f.bytes ++ wire rest') {b : BufferReader}
    (hb : b.readable = c.reader.buffer.readable ++ chunk.bytes)
    (hc' : ∀ o, onRead charSigned ⟨c.reader.request, b⟩ = some o →
      c' = ⟨o.reader, c.received ++ chunk.bytes, c.commands ++ o.command.toList,
        c.uses ++ o.uses, o.ok⟩) :
    ∃ before rest n part, Position rs segs c' before rest done todo s n part := by
  -- There is no unread text before a frame.
  have hpart : part = [] := by
    cases h.unread with
    | text hm _ =>
      rw [hrest] at hm
      cases part with
      | nil => rfl
      | cons p ps => cases hm
    | frame hp _ _ _ _ => exact hp
  subst hpart
  obtain ⟨rfl, hbet⟩ := h.placed.between hstate
  have hbet' : Between { c.reader.request with method := .rtcp } :=
    ⟨hbet.state, hbet.requestLineParam, hbet.headerLineParam⟩
  generalize hj : (c.reader.buffer.readable ++ chunk.bytes).length = j at hok
  have hjle : j ≤ f.bytes.length := by
    simp only [frameOk, Bool.or_eq_true, Bool.and_eq_true, decide_eq_true_eq] at hok
    omega
  have htake : c.reader.buffer.readable ++ chunk.bytes = f.bytes.take j := by
    have := List.prefix_iff_eq_take.mp hu
    rwa [hj, List.take_append_of_le_length hjle] at this
  have hpos : 0 < j := by
    have := List.length_pos_of_ne_nil chunk.nonempty
    rw [← hj, List.length_append]
    omega
  obtain ⟨o, ho, hgood, hnone, hparsed, hdisc, hreq, hcase⟩ :=
    onRead_frame charSigned (x := ⟨c.reader.request, b⟩) hpos (hb.trans htake) hok
  rw [hc' o ho]
  have hplaced : Placed todo s o.reader.request 0 [] := by
    rw [hreq]
    exact ⟨h.placed.received, noCrlf_nil, Or.inl ⟨rfl, hbet'⟩⟩
  have hcmd : (c.commands ++ o.command.toList).map RtspRequest.command =
      done.map Request.command := by
    rw [hnone]
    simpa using h.commands
  have hrec : c.received ++ chunk.bytes = wire before ++ f.bytes.take j := by
    rw [h.received, List.append_assoc, htake]
  rcases hcase with ⟨hlt, hrtcp, hbuf⟩ | ⟨hall, hrtcp, hbuf⟩
  · -- Still incomplete.
    have huses : c.uses ++ o.uses = (marks before).map Mark.use := by
      rw [h.uses, ReadOutcome.uses, hparsed, hrtcp, hdisc]
      simp
    exact ⟨before, rest, 0, [], hgood, h.marks_eq, huses, by rw [hrec, hbuf], h.requests, h.text,
      hcmd, hplaced, .frame rfl hrest hlt hbuf (hreq ▸ hbet')⟩
  · have huses : c.uses ++ o.uses = (marks (before ++ [.frame f])).map Mark.use := by
      rw [h.uses, ReadOutcome.uses, hparsed, hrtcp, hdisc, marks_append, List.map_append,
        marks_cons, marks_nil, List.append_nil, Segment.marks, f.map_use_marks]
      simp
    have hmarks : marks segs = marks (before ++ [.frame f]) ++ marks rest' := by
      rw [h.marks_eq, hrest, marks_append]
      simp [Segment.marks]
    have hwire : c.received ++ chunk.bytes =
        wire (before ++ [.frame f]) ++ o.reader.buffer.readable := by
      rw [hrec, hall, List.take_length, hbuf]
      simp [wire, Segment.bytes]
    have htext : texts (marks (before ++ [.frame f])) ++ [] = stream done ++ s := by
      rw [← h.text, marks_append, texts_append]
      simp [Segment.marks]
    exact ⟨before ++ [.frame f], rest', 0, [], hgood, hmarks, huses, hwire, h.requests, htext, hcmd,
      hplaced, .text rfl hbuf⟩

/-- Requests end with a line end. -/
theorem leftover_stream (rs : List Request) : leftover (stream rs) = [] := by
  have h := leftover_unlines (rs.flatMap Request.lines) noCrlf_nil
  rwa [List.append_nil, ← stream_eq_unlines] at h

/-- What stands behind the text of a chunk: nothing, or the beginning of a frame. -/
inductive Behind (todo : List Request) (s new : Bytes) (after : List Segment) (tail : Bytes) : Prop
  | nothing (htail : tail = [])
  | frame {f : RtcpFrame} {rest' : List Segment} {j : Nat}
      (hafter : marks after = f.marks ++ marks rest') (htail : tail = f.bytes.take j)
      (hshort : j < f.bytes.length) (hline : NoCrlf tail)
      (hlimit : tail.length ≤ maxRtspMessageSize)
      (hends : stream (arrived todo (s ++ new)) = s ++ new)

/-- **A chunk of text.** -/
theorem Position.text_step (h : Position rs segs c before rest done todo s n part)
    {after : List Segment} {new tail : Bytes} (hbuf : c.reader.buffer.readable = part)
    (hchunk : chunk.bytes = new ++ tail) (hne : new ≠ [])
    (hrest : marks rest = (part ++ new).map .text ++ marks after) (hpre : s ++ new <+: stream todo)
    (hok : textOk todo s new = true) (hbehind : Behind todo s new after tail) {b : BufferReader}
    (hb : b.readable = c.reader.buffer.readable ++ chunk.bytes)
    (hc' : ∀ o, onRead charSigned ⟨c.reader.request, b⟩ = some o →
      c' = ⟨o.reader, c.received ++ chunk.bytes, c.commands ++ o.command.toList,
        c.uses ++ o.uses, o.ok⟩) :
    ∃ before rest done todo s n part, Position rs segs c' before rest done todo s n part := by
  have hb' : b.readable = part ++ new ++ tail := by rw [hb, hbuf, hchunk, List.append_assoc]
  -- With a frame behind it the text ends a request.
  have hends : tail = [] ∨ leftover (s ++ new) = [] := by
    cases hbehind with
    | nothing ht => exact Or.inl ht
    | frame _ _ _ _ _ he => exact Or.inr (he ▸ leftover_stream _)
  have hline : NoCrlf (leftover (s ++ new) ++ tail) := by
    cases hbehind with
    | nothing ht =>
      rw [ht, List.append_nil]
      exact h.placed.noCrlf_leftover hpre
    | frame _ _ _ hno _ he =>
      rw [← he, leftover_stream]
      exact hno
  have hlen : (leftover (s ++ new) ++ tail).length ≤ maxRtspMessageSize := by
    cases hbehind with
    | nothing ht =>
      rw [ht, List.append_nil]
      exact textOk_limit hok
    | frame _ _ _ _ hl he =>
      rw [← he, leftover_stream]
      exact hl
  obtain ⟨o, part', ho, hread⟩ := h.placed.read charSigned hb' hne hpre hok hline hlen
  rw [hc' o ho]
  have hmarks : marks segs = marks (before ++ [.text o.parsed]) ++ marks (.text part' :: after) := by
    rw [h.marks_eq, hrest, hread.parsed]
    simp [Segment.marks]
  have huses : c.uses ++ o.uses = (marks (before ++ [.text o.parsed])).map Mark.use := by
    rw [h.uses, ReadOutcome.uses, hread.rtcp, hread.discarded]
    simp [Segment.marks, Mark.use]
  have hrec : c.received ++ chunk.bytes =
      wire (before ++ [.text o.parsed]) ++ o.reader.buffer.readable := by
    rw [h.received, List.append_assoc, ← hb, hb', hread.parsed, hread.buffer]
    simp [wire, Segment.bytes]
  have htext : texts (marks (before ++ [.text o.parsed])) ++ part' = stream done ++ (s ++ new) := by
    have : texts (marks (before ++ [.text o.parsed])) = texts (marks before) ++ o.parsed := by
      simp [Segment.marks]
    rw [this, List.append_assoc, ← hread.parsed, ← List.append_assoc, h.text, List.append_assoc]
  rcases hread.command with ⟨hnone, m, hp⟩ | ⟨q, rest', req, rfl, hsome, hreq, hq, hp⟩
  · have hunread : Unread (.text part' :: after) part' o.reader := by
      cases hbehind with
      | nothing ht => exact .text rfl (by rw [hread.buffer, ht, List.append_nil])
      | frame _ _ _ _ _ he =>
        -- No request has ended.
        rw [hp.arrived_eq, stream_nil] at he
        exact absurd (List.append_eq_nil_iff.mp he.symm).2 hne
    exact ⟨_, _, done, todo, s ++ new, m, part', hread.ok, hmarks, huses, hrec, h.requests, htext,
      by simpa [hnone] using h.commands, hp, hunread⟩
  · have hunread : Unread (.text part' :: after) part' o.reader := by
      cases hbehind with
      | nothing ht => exact .text rfl (by rw [hread.buffer, ht, List.append_nil])
      | frame hafter ht hj _ _ he =>
        have harr : arrived (q :: rest') (s ++ new) = [q] := by
          rw [hq]
          have := arrived_append [q] rest' part'
          rwa [hp.arrived_eq, stream_cons, stream_nil, List.append_nil] at this
        have hnil : part' = [] := by
          rw [harr, hq, stream_cons, stream_nil] at he
          exact (List.append_cancel_left he).symm
        subst hnil
        rcases hp.parser with ⟨-, hbet⟩ | ⟨_, _, _, h0, _⟩
        · exact .frame rfl hafter hj (by rw [hread.buffer, ht, List.nil_append]) hbet
        · exact absurd h0 (Nat.lt_irrefl 0)
    refine ⟨_, _, done ++ [q], rest', part', 0, part', hread.ok, hmarks, huses, hrec,
      by rw [h.requests]; simp, ?_, by simp [hsome, hreq, h.commands], hp, hunread⟩
    rw [htext, hq]
    simp

/-- Unread text is text that is ahead. -/
theorem text_ahead {part t : Bytes} {rest rest' : List Segment}
    (h : part.map Mark.text ++ marks rest = t.map .text ++ marks rest')
    (hnext : rest' = [] ∨ ∃ f segs, rest' = .frame f :: segs) : part <+: t := by
  induction part generalizing t with
  | nil => exact List.nil_prefix
  | cons p ps ih =>
    cases t with
    | nil =>
      rcases hnext with rfl | ⟨f, segs, rfl⟩
      · cases h
      · cases h
    | cons b t =>
      simp only [List.map_cons, List.cons_append, List.cons.injEq, Mark.text.injEq] at h
      rw [h.1, List.prefix_cons_inj]
      exact ih h.2

/-- **One chunk.** -/
theorem Position.step (h : Position rs segs c before rest done todo s n part)
    (hsent : texts (marks segs) = stream rs) (hg : Demuxed charSigned rs segs c chunk)
    (hst : (listen charSigned (wire segs)).step c chunk c') :
    ∃ before rest done todo s n part, Position rs segs c' before rest done todo s n part := by
  obtain ⟨hcan, hok⟩ := hg
  obtain ⟨hpre, b, hb, hc'⟩ := Conversation.step_of_read hst hcan
  have hwire : wire segs = wire before ++ wire rest := by
    rw [← map_byte_marks, h.marks_eq, List.map_append, map_byte_marks, map_byte_marks]
  have hu : c.reader.buffer.readable ++ chunk.bytes <+: wire rest := by
    rwa [hwire, h.received, List.append_assoc, List.prefix_append_right_inj] at hpre
  have hpos : 0 < (c.reader.buffer.readable ++ chunk.bytes).length := by
    have := List.length_pos_of_ne_nil chunk.nonempty
    rw [List.length_append]
    omega
  have hahead : (marks segs).drop c.uses.length = marks rest := by
    rw [h.uses, List.length_map, h.marks_eq, List.drop_left]
  have hnew : (marks segs).drop c.received.length =
      (marks rest).drop c.reader.buffer.readable.length := by
    rw [h.marks_eq, h.received, List.length_append, drop_marks_append]
  have htodo : rs.drop done.length = todo := by rw [h.requests, List.drop_left]
  simp only [demuxed, hahead, hnew, h.got.1, h.arrived_eq, List.drop_left, htodo] at hok
  obtain ⟨t, rest', hrest, hnext⟩ := marks_ahead rest
  cases t with
  | nil =>
    rw [List.map_nil, List.nil_append] at hrest
    rcases hnext with rfl | ⟨f, rest'', rfl⟩
    · -- Everything has been read.
      rw [← map_byte_marks, hrest, marks_nil, List.map_nil, List.prefix_nil] at hu
      rw [hu] at hpos
      exact absurd hpos (by simp)
    · rw [marks_cons, Segment.marks] at hrest
      have hfirst : ∃ last byte ms, (marks rest).take
          (c.reader.buffer.readable ++ chunk.bytes).length = .frame f last byte :: ms := by
        obtain ⟨m, hm⟩ := Nat.exists_eq_succ_of_ne_zero (Nat.ne_of_gt hpos)
        obtain ⟨last, byte, ms, hf⟩ : ∃ last byte ms, f.marks = .frame f last byte :: ms := by
          rw [RtcpFrame.marks, f.length_bytes]
          exact ⟨false, 36, _, rfl⟩
        exact ⟨last, byte, (ms ++ marks rest'').take m, by rw [hrest, hf, hm]; rfl⟩
      obtain ⟨last, byte, ms, hm⟩ := hfirst
      rw [hm] at hok
      simp only [Bool.and_eq_true, decide_eq_true_eq] at hok
      rw [← map_byte_marks, hrest, List.map_append, f.map_byte_marks, map_byte_marks] at hu
      obtain ⟨before', rest₂, n', part', hpos'⟩ := h.frame_step hrest hok.1 hok.2 hu hb hc'
      exact ⟨before', rest₂, done, todo, s, n', part', hpos'⟩
  | cons t₀ t =>
    generalize ht : t₀ :: t = w at hrest
    -- The parser waits for text.
    obtain ⟨hbuf, w', rfl⟩ : c.reader.buffer.readable = part ∧ part <+: w := by
      cases h.unread with
      | text hm hbuf => exact ⟨hbuf, text_ahead (hm.symm.trans hrest) hnext⟩
      | @frame f _ _ _ hm _ _ _ =>
        have hf : ∃ last byte ms, marks rest = .frame f last byte :: ms := by
          rw [hm, RtcpFrame.marks, RtcpFrame.length_bytes]
          exact ⟨false, 36, _, rfl⟩
        obtain ⟨last, byte, ms, hf⟩ := hf
        rw [hf, ← ht] at hrest
        cases hrest
    have hfirst : ∃ byte ms, (marks rest).take
        (c.reader.buffer.readable ++ chunk.bytes).length = .text byte :: ms := by
      obtain ⟨m, hm⟩ := Nat.exists_eq_succ_of_ne_zero (Nat.ne_of_gt hpos)
      exact ⟨t₀, (t.map Mark.text ++ marks rest').take m, by rw [hrest, hm, ← ht]; rfl⟩
    obtain ⟨byte, ms, hm⟩ := hfirst
    rw [hm] at hok
    simp only [← hm, Bool.and_eq_true, Bool.or_eq_true, decide_eq_true_eq, hbuf,
      List.isEmpty_iff] at hok
    have hdrop : (marks rest).drop part.length = w'.map .text ++ marks rest' := by
      rw [hrest, List.map_append, List.append_assoc]
      have hl : part.length = (part.map Mark.text).length := by rw [List.length_map]
      rw [hl, List.drop_left]
    have hw : chunk.bytes <+: w' ++ wire rest' := by
      rw [hbuf, ← map_byte_marks, hrest, List.map_append, map_byte_text, map_byte_marks,
        List.append_assoc, List.prefix_append_right_inj] at hu
      exact hu
    rw [hdrop] at hok
    have htexts : ∀ new, new <+: w' → s ++ new <+: stream todo := by
      intro new hnew'
      have hall : stream done ++ (s ++ w') <+: stream done ++ stream todo := by
        rw [← stream_append, ← h.requests, ← hsent, h.marks_eq, hrest, texts_append, texts_append,
          texts_text, ← List.append_assoc, ← h.text]
        exact ⟨texts (marks rest'), by simp⟩
      rw [List.prefix_append_right_inj] at hall
      exact (List.prefix_append_right_inj s |>.mpr hnew').trans hall
    by_cases hlen : chunk.bytes.length ≤ w'.length
    · -- Nothing but text.
      have hchunk : chunk.bytes <+: w' :=
        List.prefix_of_prefix_length_le hw (List.prefix_append _ _) hlen
      obtain ⟨w₂, rfl⟩ := hchunk
      have htake : texts (((chunk.bytes ++ w₂).map Mark.text ++ marks rest').take
          chunk.bytes.length) = chunk.bytes := by
        rw [List.map_append, List.append_assoc, List.take_append_of_le_length (by
          rw [List.length_map]), List.take_of_length_le (by rw [List.length_map]), texts_text]
      rw [htake] at hok
      have hrest₂ : marks rest =
          (part ++ chunk.bytes).map .text ++ marks (.text w₂ :: rest') := by
        rw [hrest]
        simp [Segment.marks]
      exact h.text_step hbuf (List.append_nil _).symm chunk.nonempty hrest₂
        (htexts _ (List.prefix_append _ _)) hok.1 (.nothing rfl) hb hc'
    · -- A frame has begun.
      rcases hnext with rfl | ⟨f, rest'', rfl⟩
      · have := hw.length_le
        simp only [List.length_append, wire, List.flatMap_nil, List.length_nil] at this
        omega
      · obtain ⟨j, hj⟩ : ∃ j, chunk.bytes.length = w'.length + (j + 1) :=
          ⟨chunk.bytes.length - w'.length - 1, by omega⟩
        have hahead' : (marks rest).take (part ++ chunk.bytes).length =
            (part ++ w').map Mark.text ++ (marks (.frame f :: rest'')).take (j + 1) := by
          rw [hrest, List.length_append, hj, ← Nat.add_assoc, ← List.length_append,
            ← List.length_map Mark.text, List.take_length_add_append]
        have hnew' : (w'.map Mark.text ++ marks (.frame f :: rest'')).take chunk.bytes.length =
            w'.map Mark.text ++ (marks (.frame f :: rest'')).take (j + 1) := by
          rw [hj, ← List.length_map Mark.text, List.take_length_add_append]
        rw [hahead', hnew'] at hok
        simp only [texts_append, texts_text, finished_append, finished_text, List.nil_append] at hok
        rw [marks_cons, Segment.marks] at hok
        by_cases hshort : j + 1 < f.bytes.length
        · have htake : (f.marks ++ marks rest'').take (j + 1) = f.marks.take (j + 1) :=
            List.take_append_of_le_length (by rw [f.length_marks]; omega)
          rw [htake, texts_take, List.append_nil, List.append_nil, List.append_assoc] at hok
          have hchunk : chunk.bytes = w' ++ f.bytes.take (j + 1) := by
            have := List.prefix_iff_eq_take.mp hw
            rw [hj, List.take_length_add_append] at this
            rw [this]
            congr 1
            exact List.take_append_of_le_length (Nat.le_of_lt hshort)
          have htail : (part ++ chunk.bytes).drop (part ++ w').length = f.bytes.take (j + 1) := by
            rw [hchunk, ← List.append_assoc, List.drop_left]
          rw [htail, h.requests, arrived_append, stream_append, List.append_cancel_left_eq] at hok
          obtain ⟨htext, hor⟩ := hok
          have hne : f.bytes.take (j + 1) ≠ [] := by simp [RtcpFrame.bytes]
          obtain ⟨⟨⟨-, hends⟩, hline⟩, hlimit⟩ := hor.resolve_left hne
          have hw' : w' ≠ [] := by
            rintro rfl
            rw [List.append_nil, h.placed.arrived_eq, stream_nil] at hends
            have hs := h.placed.received
            rw [← hends] at hs
            have hp := (List.append_eq_nil_iff.mp hs.symm).2
            rw [hp] at ht
            cases ht
          exact h.text_step hbuf hchunk hw' hrest (htexts _ (List.prefix_refl _)) htext
            (.frame rfl rfl hshort hline hlimit hends) hb hc'
        · -- It is complete, but nothing consumes it.
          have hfin : finished ((f.marks ++ marks rest'').take (j + 1)) ≠ [] := by
            obtain ⟨i, hi⟩ : ∃ i, j + 1 = f.marks.length + i :=
              ⟨j + 1 - f.bytes.length, by rw [f.length_marks]; omega⟩
            rw [hi, List.take_length_add_append, finished_append, f.finished_marks]
            simp
          have hlt : (texts ((f.marks ++ marks rest'').take (j + 1))).length < j + 1 := by
            obtain ⟨i, hi⟩ : ∃ i, j + 1 = f.marks.length + i :=
              ⟨j + 1 - f.bytes.length, by rw [f.length_marks]; omega⟩
            have h1 : (texts ((marks rest'').take i)).length ≤ i :=
              (List.length_filterMap_le _ _).trans (by rw [List.length_take]; omega)
            have h2 : 0 < f.marks.length := by
              rw [f.length_marks, f.length_bytes]
              omega
            rw [hi, List.take_length_add_append, texts_append, f.texts_marks, List.nil_append]
            omega
          rcases hok.2 with htail | ⟨⟨⟨hno, -⟩, -⟩, -⟩
          · have := List.drop_eq_nil_iff.mp htail
            simp only [List.length_append, hj] at this
            omega
          · exact absurd hno hfin

theorem Position.start (h : c.Fresh) : Position rs segs c [] segs [] rs [] 0 [] where
  ok := h.ok
  marks_eq := rfl
  uses := h.uses
  received := by rw [h.received, h.buffer, BufferReader.readable_new]; rfl
  requests := rfl
  text := rfl
  commands := by rw [h.commands]; rfl
  placed := .start h.request noCrlf_nil
  unread := .text rfl (by rw [h.buffer, BufferReader.readable_new])

/-- Every byte that has left the buffer was used as what it is; the frames that have come in
completely have been consumed, each with all its bytes, and nothing of another; the commands are
those of the requests that have come in; and the indices are in order. -/
def Demultiplexed (rs : List Request) (segs : List Segment) (c : Conversation) : Prop :=
  let got := (marks segs).take c.received.length
  c.ok = true ∧ c.uses <+: (marks segs).map Mark.use ∧
    rtcpBytes c.uses = (finished got).flatMap RtcpFrame.bytes ∧
    c.commands.map RtspRequest.command = (arrived rs (texts got)).map Request.command ∧
    c.reader.buffer.readerIndex ≤ c.reader.buffer.writerIndex

/-- **Requests and frames are told apart**, however many of both there are, if every read brings
them as `Demuxed` says. What the client sends is fixed beforehand, as segments whose bytes are
marked, since a read may end anywhere in a segment: what has been received is then a number of bytes
of a known text, and `Demultiplexed` says of each one what it was used as. The texts together are
the requests, so that a request may go on behind a frame. -/
theorem rtcp_demultiplexed (charSigned : Bool) (rs : List Request) (segs : List Segment)
    (hsent : texts (marks segs) = stream rs) {c : Conversation}
    (hr : Reach (listen charSigned (wire segs)) (Demuxed charSigned rs segs) c) :
    Demultiplexed rs segs c := by
  obtain ⟨before, rest, done, todo, s, n, part, h⟩ :
      ∃ before rest done todo s n part, Position rs segs c before rest done todo s n part := by
    refine hr.inv (P := fun c => ∃ before rest done todo s n part,
      Position rs segs c before rest done todo s n part) ?_ ?_
    · intro c hc
      exact ⟨_, _, _, _, _, _, _, .start hc⟩
    · rintro c chunk c' ⟨before, rest, done, todo, s, n, part, h⟩ hg hst
      exact h.step hsent hg hst
  obtain ⟨htexts, hfinished⟩ := h.got
  refine ⟨h.ok, ?_, ?_, ?_, c.reader.buffer.reader_le⟩
  · rw [h.uses, h.marks_eq, List.map_append]
    exact List.prefix_append _ _
  · rw [h.uses, hfinished, rtcpBytes_marks]
  · rw [htexts, h.arrived_eq, h.commands]

/-! ## Half a frame -/

/-- A frame between two requests. -/
def asksBetween : List Segment :=
  [.text (asks 1).text, .frame ⟨1, [200, 201], by decide⟩, .text (asks 2).text]

theorem rtcp_demultiplexed_one :
    ∃ c : Conversation, c.commands.length = 2 ∧ Demultiplexed [asks 1, asks 2] asksBetween c := by
  obtain ⟨c, hr, hc⟩ := reach_of_runFrom (Conversation.step true (wire asksBetween))
    (Demuxed true [asks 1, asks 2] asksBetween) Conversation.new
    [⟨(asks 1).text, by decide, by decide⟩, ⟨[36, 1, 0], by decide, by decide⟩,
      ⟨[2, 200, 201], by decide, by decide⟩, ⟨(asks 2).text, by decide, by decide⟩]
    (fun c => c.commands.length) 2 Conversation.new_fresh (by decide +kernel)
  exact ⟨c, hc, rtcp_demultiplexed true _ _ (by decide) hr⟩

/-- **Five bytes of a frame of six are consumed**, as if they were the frame. -/
theorem rtcp_demultiplexed_half :
    ¬ ∀ (charSigned : Bool) (rs : List Request) (segs : List Segment),
      texts (marks segs) = stream rs → ∀ c : Conversation,
        Reach (listen charSigned (wire segs)) (anyStep Conversation Chunk) c →
          Demultiplexed rs segs c := by
  intro h
  obtain ⟨c, hr, hc⟩ := reach_of_runFrom
    (Conversation.step true (wire [.frame ⟨1, [200, 201], by decide⟩]))
    (anyStep Conversation Chunk) Conversation.new [⟨[36, 1, 0, 2, 200], by decide, by decide⟩]
    (fun c => (c.received, rtcpBytes c.uses)) ([36, 1, 0, 2, 200], [36, 1, 0, 2, 200])
    Conversation.new_fresh (by decide +kernel)
  obtain ⟨-, -, hrtcp, -⟩ := h true [] _ rfl c hr
  rw [Prod.mk.injEq] at hc
  rw [hc.1, hc.2] at hrtcp
  exact absurd hrtcp (by decide)

end Maixii.Xop
