import Maixii.Lib.Run
import Maixii.Xop.RtspText

/-!
# `Xop/Framing.lean`: requests cut into chunks

A client sends requests one after the other, and `recv` cuts them anywhere. `ParseRequest` takes
a request line when it has one, and then treats **whatever lines have come in** as headers, up to
the last CR LF; it does not look for the empty line. So what a cut does to a request depends on
which of its lines come in together.

The stream is a list of lines, and a position in it is a number of lines received (`locate`). One
read brings a run of lines of one request, a *piece*; `pieceOk` says which pieces the parser
handles as they are meant. If every read brings such a piece, the commands dispatched are, at any
time, the requests that have come in completely (`rtsp_framing`).
-/

set_option autoImplicit false

namespace Maixii.Xop

open Maixii.Lib Maixii.Net

/-! ## What is sent, and what should come out -/

/-- What a handler needs to know of a request. -/
structure Command where
  method : Method
  cseq : Nat
  url : Bytes
  suffix : Bytes
  /-- Of a SETUP: the track, the transport and its two numbers. -/
  transport : Option (MediaChannelId × TransportMode × Nat × Nat)
  deriving DecidableEq, Repr

/-- As the parser has it. -/
def RtspRequest.command (r : RtspRequest) : Command where
  method := r.method
  cseq := r.getCSeq
  url := r.getRtspUrl
  suffix := r.getRtspUrlSuffix
  transport := if r.method = .setup then
      some (r.channelId, r.transport,
        RtspRequest.number (r.headerLineParam.find r.transport.keys.1),
        RtspRequest.number (r.headerLineParam.find r.transport.keys.2))
    else none

/-- The header line that names the transport. -/
def Request.transportLine (q : Request) : Bytes :=
  (q.headers.find? (startsWith (ascii "Transport"))).getD []

/-- As the client means it. -/
def Request.command (q : Request) : Command where
  method := q.method
  cseq := q.cseq
  url := q.url
  suffix := q.place.2.2
  transport := if q.method = .setup then
      match readTransport q.transportLine with
      | .found mode n₁ n₂ => some (channelOf q.url, mode, n₁, n₂)
      | .failed _ => none
    else none

/-- The requests, one after the other. -/
def stream (rs : List Request) : Bytes := rs.flatMap Request.text

/-- The requests that have come in completely. -/
def arrived : List Request → Bytes → List Request
  | [], _ => []
  | q :: rs, s => if q.text.isPrefixOf s then q :: arrived rs (s.drop q.text.length) else []

/-- What is behind the last line end. -/
def leftover (s : Bytes) : Bytes :=
  match findLast crlf s with
  | none => s
  | some n => s.drop (n + 2)

/-! ## The condition -/

/-- The header lines among the lines `n` to `n + k` of a request. -/
def Request.piece (q : Request) (n k : Nat) : List Bytes :=
  (q.lines.drop (max n 1)).take (n + k - max n 1)

/-- **A piece the parser handles as it is meant**: it does not go beyond the request; the first
header lines come with the `CSeq`; and what completes the request comes with its empty line, not
before, and says the same as the request does. -/
def pieceOk (q : Request) (n k : Nat) : Bool :=
  decide (n + k ≤ q.lines.length) &&
  (decide (q.piece n k = []) ||
    let message := joinLines (q.piece n k)
    (decide (1 < n) || decide (q.before.length < (q.piece n k).length)) &&
    (!RtspRequest.authenticates q.method || (readAuthorization message).isSome) &&
    if n + k < q.lines.length then !completes q.method message
    else completes q.method message &&
      (decide (q.method ≠ .setup) ||
        decide (readTransport message = readTransport q.transportLine)))

/-- **The condition on a read**, when `s` has come in of the requests `todo`: it begins with no `$`,
leaves no more of a line than the limit allows, and brings a piece that is handled as it is
meant. -/
def textOk (todo : List Request) (s bytes : Bytes) : Bool :=
  let k := lineCount (s ++ bytes) - lineCount s
  decide ((leftover s ++ bytes).head? ≠ some 36) &&
  decide ((leftover (s ++ bytes)).length ≤ maxRtspMessageSize) &&
  (decide (k = 0) ||
    match todo with
    | q :: _ => q.plain && pieceOk q (lineCount s) k
    | [] => false)

/-! ## Lines of requests -/

/-- Letters are letters in both cases, and line ends are none. -/
theorem Request.name_clean (q : Request) : CleanLine q.name := by
  have hlow : ∀ b ∈ q.name, lower b ∈ ascii "cseq" := fun b hb => by
    rw [← q.name_cseq]
    exact List.mem_map_of_mem hb
  exact ⟨fun h => absurd (hlow 13 h) (by decide), fun h => absurd (hlow 10 h) (by decide)⟩

theorem Request.cseqLine_clean (q : Request) : CleanLine q.cseqLine := by
  have hname := q.name_clean
  have hgap : ∀ b : UInt8, b ≠ 32 → b ≠ 9 → b ∉ q.gap := fun b h1 h2 hb => by
    rcases q.gap_blank b hb with rfl | rfl
    · exact h1 rfl
    · exact h2 rfl
  simp only [Request.cseqLine, CleanLine, List.mem_append, List.mem_cons, not_or]
  exact ⟨⟨⟨hname.1, by decide, hgap 13 (by decide) (by decide)⟩, not_mem_decimal (by decide)⟩,
    ⟨⟨hname.2, by decide, hgap 10 (by decide) (by decide)⟩, not_mem_decimal (by decide)⟩⟩

theorem Request.clean (q : Request) : ∀ l ∈ q.lines, CleanLine l := by
  intro l hl
  simp only [Request.lines, Request.headers, List.mem_append, List.mem_cons, List.not_mem_nil,
    or_false] at hl
  rcases hl with (rfl | hl | rfl | hl) | rfl
  · exact q.line_clean
  · exact (q.lines_clean l (List.mem_append_left _ hl)).2.1
  · exact q.cseqLine_clean
  · exact (q.lines_clean l (List.mem_append_right _ hl)).2.1
  · decide

theorem Request.lines_ne_nil (q : Request) : q.lines ≠ [] := by simp [Request.lines]

theorem clean_flatMap (rs : List Request) : ∀ l ∈ rs.flatMap Request.lines, CleanLine l := by
  intro l hl
  obtain ⟨q, -, hq⟩ := List.mem_flatMap.mp hl
  exact q.clean l hq

theorem stream_eq_unlines (rs : List Request) : stream rs = unlines (rs.flatMap Request.lines) := by
  induction rs with
  | nil => rfl
  | cons q rs ih =>
    rw [List.flatMap_cons, unlines_append, ← ih]
    rfl

@[simp] theorem stream_nil : stream [] = [] := rfl

@[simp] theorem stream_cons (q : Request) (rs : List Request) :
    stream (q :: rs) = q.text ++ stream rs := rfl

@[simp] theorem stream_append (rs rs' : List Request) :
    stream (rs ++ rs') = stream rs ++ stream rs' := List.flatMap_append

/-- Behind the last line end is what is no line yet. -/
theorem leftover_unlines (ls : List Bytes) {part : Bytes} (h : NoCrlf part) :
    leftover (unlines ls ++ part) = part := by
  by_cases hls : ls = []
  · subst hls
    simp only [unlines_nil, List.nil_append, leftover, findLast_noCrlf h]
  · have hlen : (joinLines ls ++ crlf).length = (joinLines ls).length + 2 := by simp [crlf]
    rw [unlines_eq_join hls, leftover, findLast_crlf _ h]
    simp only [← hlen, List.drop_left]

theorem arrived_append (done todo : List Request) (s : Bytes) :
    arrived (done ++ todo) (stream done ++ s) = done ++ arrived todo s := by
  induction done with
  | nil => rfl
  | cons q done ih =>
    have hp : q.text.isPrefixOf (stream (q :: done) ++ s) = true := by
      rw [List.isPrefixOf_iff_prefix, stream_cons, List.append_assoc]
      exact List.prefix_append _ _
    rw [List.cons_append, arrived, if_pos hp, stream_cons, List.append_assoc, List.drop_left, ih]
    rfl

/-- A request has not come in before its last line has. -/
theorem arrived_eq_nil {q : Request} {n : Nat} {part : Bytes} (rest : List Request)
    (hn : n < q.lines.length) (hp : NoCrlf part) :
    arrived (q :: rest) (unlines (q.lines.take n) ++ part) = [] := by
  rw [arrived, if_neg]
  rw [List.isPrefixOf_iff_prefix, Request.text]
  intro h
  nth_rewrite 1 [← List.take_append_drop n q.lines] at h
  rw [unlines_append, List.prefix_append_right_inj] at h
  obtain ⟨l, ls, hd⟩ : ∃ l ls, q.lines.drop n = l :: ls :=
    List.exists_cons_of_ne_nil (by simpa using hn)
  have hl : CleanLine l := q.clean l (List.mem_of_mem_drop (hd ▸ List.mem_cons_self))
  rw [hd, unlines_cons] at h
  obtain ⟨t, rfl⟩ := h
  rw [NoCrlf, List.append_assoc, findFirst_crlf hl] at hp
  simp at hp

/-! ## The headers of a piece -/

theorem joinLines_append (ls : List Bytes) (l : Bytes) (ms : List Bytes) :
    joinLines (ls ++ l :: ms) = unlines ls ++ l ++ (if ms = [] then [] else crlf ++ joinLines ms) := by
  induction ls with
  | nil =>
    cases ms with
    | nil => simp [joinLines]
    | cons m ms => simp [joinLines]
  | cons k ls ih =>
    have hcons : joinLines (k :: (ls ++ l :: ms)) = k ++ crlf ++ joinLines (ls ++ l :: ms) := by
      cases ls <;> rfl
    rw [List.cons_append, hcons, ih, unlines_cons]
    simp only [List.append_assoc]

/-- **A first piece** that is long enough has the `CSeq`. -/
theorem cseqOf_piece {q : Request} {n k : Nat} (hq : q.plain = true) (hn : n ≤ 1)
    (hlen : q.before.length < (q.piece n k).length) :
    RtspRequest.cseqOf (joinLines (q.piece n k)) = some q.cseq := by
  have hdrop : q.lines.drop (max n 1) = q.before ++ q.cseqLine :: (q.after ++ [[]]) := by
    rw [Nat.max_eq_right hn]
    simp [Request.lines, Request.headers]
  rw [Request.piece, hdrop] at hlen ⊢
  generalize n + k - max n 1 = m at hlen ⊢
  rw [List.length_take] at hlen
  obtain ⟨i, rfl⟩ : ∃ i, m = q.before.length + (i + 1) :=
    ⟨m - q.before.length - 1, by omega⟩
  rw [List.take_length_add_append, List.take_succ_cons, joinLines_append]
  refine cseqOf_headers hq ?_
  split
  · exact stops_nil
  · exact stops_cons (by decide)

/-- What `pieceOk` says, part by part. -/
theorem pieceOk_spec {q : Request} {n k : Nat} (h : pieceOk q n k = true) :
    n + k ≤ q.lines.length ∧ (q.piece n k ≠ [] →
      (1 < n ∨ q.before.length < (q.piece n k).length) ∧
      (RtspRequest.authenticates q.method = true →
        (readAuthorization (joinLines (q.piece n k))).isSome = true) ∧
      (n + k < q.lines.length → completes q.method (joinLines (q.piece n k)) = false) ∧
      (n + k = q.lines.length → completes q.method (joinLines (q.piece n k)) = true ∧
        (q.method = .setup →
          readTransport (joinLines (q.piece n k)) = readTransport q.transportLine))) := by
  simp only [pieceOk, Bool.and_eq_true, decide_eq_true_eq, Bool.or_eq_true] at h
  refine ⟨h.1, fun hne => ?_⟩
  obtain ⟨⟨hc, ha⟩, hk⟩ := h.2.resolve_left hne
  refine ⟨hc, fun hm => by simpa [hm] using ha, fun hlt => ?_, fun he => ?_⟩
  · rw [if_pos hlt] at hk
    simpa using hk
  · rw [if_neg (by omega)] at hk
    simp only [Bool.and_eq_true, Bool.or_eq_true, decide_eq_true_eq] at hk
    exact ⟨hk.1, fun hm => hk.2.resolve_left fun h => h hm⟩

/-- **A complete request is the command it should be.** -/
theorem Ready.command_eq {q : Request} {message : Bytes} {r : RtspRequest} (h : Ready q message r)
    (hset : q.method = .setup → readTransport message = readTransport q.transportLine) :
    r.command = q.command := by
  have hurl : r.getRtspUrl = q.url := by
    rw [RtspRequest.getRtspUrl, h.requestLineParam]
    rfl
  have hsuffix : r.getRtspUrlSuffix = q.place.2.2 := by
    rw [RtspRequest.getRtspUrlSuffix, h.requestLineParam]
    rfl
  rw [RtspRequest.command, Request.command, h.method, h.cseq, hurl, hsuffix]
  congr 1
  by_cases hm : q.method = .setup
  · obtain ⟨hchn, n₁, n₂, hread, h₁, h₂⟩ := h.setup hm
    rw [if_pos hm, if_pos hm, hchn, ← hset hm, hread, h₁, h₂]
  · rw [if_neg hm, if_neg hm]

/-- **The headers of a piece.** Without any the parser stays where it is. -/
theorem headersRound_piece {q : Request} {n k : Nat} {r : RtspRequest} {b : BufferReader}
    {part : Bytes} (hq : q.plain = true) (hok : pieceOk q n k = true) (hk0 : 0 < k)
    (h : Inside q (decide (1 < n)) r) (hb : b.readable = unlines (q.piece n k) ++ part)
    (hpart : NoCrlf part) :
    ∃ r' b', r.headersRound b true = some (true, r', b') ∧ b'.readable = part ∧
      if n + k < q.lines.length then Inside q (decide (1 < n + k)) r'
      else r'.state = .gotAll ∧ r'.method = q.method ∧ r'.command = q.command := by
  obtain ⟨hle, hpiece⟩ := pieceOk_spec hok
  have hlines : 2 ≤ q.lines.length := by
    simp [Request.lines, Request.headers]
    omega
  have hplen : (q.piece n k).length = n + k - max n 1 := by
    simp only [Request.piece, List.length_take, List.length_drop]
    omega
  by_cases hp : q.piece n k = []
  · -- No header line yet.
    rw [hp, List.length_nil] at hplen
    rw [hp, unlines_nil, List.nil_append] at hb
    refine ⟨r, b, ?_, hb, ?_⟩
    · have : b.findLastCrlf = none := by rw [BufferReader.findLastCrlf, hb, findLast_noCrlf hpart]
      simp only [RtspRequest.headersRound, this]
    · by_cases hk : n + k < q.lines.length
      · have hseen : decide (1 < n + k) = decide (1 < n) := by
          rw [decide_eq_decide]
          omega
        rw [if_pos hk, hseen]
        exact h
      · omega
  · obtain ⟨hc, ha, hmore, hall⟩ := hpiece hp
    have hpos : 0 < (q.piece n k).length := List.length_pos_of_ne_nil hp
    have hcseq : decide (1 < n) = true ∨
        RtspRequest.cseqOf (joinLines (q.piece n k)) = some q.cseq := by
      by_cases h1 : 1 < n
      · exact Or.inl (by simpa using h1)
      · exact Or.inr (cseqOf_piece hq (by omega) (hc.resolve_left h1))
    rw [unlines_eq_join hp] at hb
    obtain ⟨r', b', hround, hb', -, hcase⟩ := headersRound_eq true h hb hpart hcseq ha
    refine ⟨r', b', hround, hb', ?_⟩
    by_cases hk : n + k < q.lines.length
    · have hseen : decide (1 < n + k) = true := by
        rw [decide_eq_true_eq]
        omega
      rw [if_pos hk, hseen]
      rwa [hmore hk, if_neg (by decide)] at hcase
    · obtain ⟨hcomp, hset⟩ := hall (by omega)
      rw [hcomp, if_pos rfl] at hcase
      rw [if_neg hk]
      exact ⟨hcase.state, hcase.method, hcase.command_eq hset⟩

/-! ## One read -/

/-- Where the parser is when `s` has come in of the requests `todo`: `n` lines have been taken, and
`part` is no line yet. -/
structure Placed (todo : List Request) (s : Bytes) (r : RtspRequest) (n : Nat) (part : Bytes) :
    Prop where
  received : s = unlines ((todo.flatMap Request.lines).take n) ++ part
  noCrlf : NoCrlf part
  parser : (n = 0 ∧ Between r) ∨ ∃ q rest, todo = q :: rest ∧ 0 < n ∧ n < q.lines.length ∧
    Inside q (decide (1 < n)) r

theorem Placed.start {todo : List Request} {r : RtspRequest} {part : Bytes} (h : Between r)
    (hp : NoCrlf part) : Placed todo part r 0 part := ⟨rfl, hp, Or.inl ⟨rfl, h⟩⟩

/-- The lines taken are lines of the next request. -/
theorem Placed.lt_lines {q : Request} {rest : List Request} {s part : Bytes} {r : RtspRequest}
    {n : Nat} (h : Placed (q :: rest) s r n part) : n < q.lines.length := by
  rcases h.parser with ⟨rfl, -⟩ | ⟨q', rest', he, -, hlt, -⟩
  · exact List.length_pos_of_ne_nil q.lines_ne_nil
  · obtain ⟨rfl, -⟩ := List.cons.inj he
    exact hlt

theorem Placed.lineCount_eq {q : Request} {rest : List Request} {s part : Bytes} {r : RtspRequest}
    {n : Nat} (h : Placed (q :: rest) s r n part) : lineCount s = n := by
  have hlt := h.lt_lines
  have hclean : ∀ l ∈ ((q :: rest).flatMap Request.lines).take n, CleanLine l := fun l hl =>
    clean_flatMap _ l (List.mem_of_mem_take hl)
  rw [h.received, lineCount_unlines hclean h.noCrlf, List.length_take, List.flatMap_cons,
    List.length_append]
  omega

theorem Placed.leftover_eq {todo : List Request} {s part : Bytes} {r : RtspRequest} {n : Nat}
    (h : Placed todo s r n part) : leftover s = part := by
  rw [h.received, leftover_unlines _ h.noCrlf]

/-- None of the requests has come in. -/
theorem Placed.arrived_eq {todo : List Request} {s part : Bytes} {r : RtspRequest} {n : Nat}
    (h : Placed todo s r n part) : arrived todo s = [] := by
  cases todo with
  | nil => rfl
  | cons q rest =>
    have hlt := h.lt_lines
    rw [h.received, List.flatMap_cons, List.take_append_of_le_length (Nat.le_of_lt hlt)]
    exact arrived_eq_nil rest hlt h.noCrlf

theorem handleRtcp_of_ne {charSigned : Bool} {b : BufferReader} (h : b.readable.head? ≠ some 36) :
    handleRtcp charSigned b = b := by
  unfold handleRtcp
  split
  · rename_i hb
    rw [hb] at h
    exact absurd rfl h
  · rfl

@[simp] theorem BufferReader.taken_self (b : BufferReader) : BufferReader.taken b b = [] := by
  simp [BufferReader.taken]

theorem BufferReader.taken_eq {b b' : BufferReader} {p : Bytes}
    (h : b.readable = p ++ b'.readable) : BufferReader.taken b b' = p := by
  simp [BufferReader.taken, h]

/-- **Without a line end nothing happens**, whatever the parser is waiting for. -/
theorem onRead_waits (charSigned : Bool) {x : RtspReader} (hne : x.buffer.readable ≠ [])
    (hhead : x.buffer.readable.head? ≠ some 36) (hline : NoCrlf x.buffer.readable)
    (hstate : x.request.state ≠ .gotAll) (hlen : x.buffer.readable.length ≤ maxRtspMessageSize) :
    onRead charSigned x = some ⟨true, none, [], [], [], x⟩ := by
  have h0 : x.buffer.readableBytes ≠ 0 := by
    rw [← BufferReader.length_readable]
    exact fun h => hne (List.eq_nil_of_length_eq_zero h)
  have hlen' : ¬ maxRtspMessageSize < x.buffer.readableBytes := by
    rw [← BufferReader.length_readable]
    omega
  have hfirst : x.buffer.findFirstCrlf = none := hline
  have hlast : x.buffer.findLastCrlf = none := findLast_noCrlf hline
  have hparse : x.request.parseRequest x.buffer = some (true, x.request, x.buffer) := by
    unfold RtspRequest.parseRequest
    rw [if_neg hhead]
    cases hs : x.request.state with
    | parseRequestLine => simp [RtspRequest.requestLineRound, hfirst, hs]
    | parseHeadersLine => simp [RtspRequest.headersRound, hlast]
    | gotAll => exact absurd hs hstate
  have hgot : x.request.gotAll = false := by simpa [RtspRequest.gotAll] using hstate
  unfold onRead handleRtspRequest
  rw [if_neg h0, hparse]
  by_cases hm : x.request.method = .rtcp
  · simp [hm, handleRtcp_of_ne hhead, hlen']
  · simp [hm, hgot, hlen']

/-- A piece gets to the headers, by way of the request line if that is in it. -/
theorem Placed.parseRequest_piece {q : Request} {rest : List Request} {s part part' : Bytes}
    {r : RtspRequest} {n k : Nat} {b : BufferReader} (h : Placed (q :: rest) s r n part)
    (hq : q.plain = true) (hk : 0 < k) (hhead : b.readable.head? ≠ some 36)
    (hb : b.readable = unlines ((q.lines.drop n).take k) ++ part') :
    ∃ r' b', Inside q (decide (1 < n)) r' ∧ b'.readable = unlines (q.piece n k) ++ part' ∧
      r.parseRequest b = r'.headersRound b' true := by
  rcases h.parser with ⟨rfl, hr⟩ | ⟨q', rest', he, hn, -, hr⟩
  · obtain ⟨k, rfl⟩ : ∃ j, k = j + 1 := ⟨k - 1, by omega⟩
    have hpiece : q.piece 0 (k + 1) = (q.headers ++ [[]]).take k := by
      simp [Request.piece, Request.lines]
    have hb' : b.readable = q.line ++ crlf ++ (unlines (q.piece 0 (k + 1)) ++ part') := by
      rw [hb, hpiece]
      simp [Request.lines]
    exact parseRequest_line hr hq hb'
  · obtain ⟨rfl, -⟩ := List.cons.inj he
    have hpiece : q.piece n k = (q.lines.drop n).take k := by
      rw [Request.piece, Nat.max_eq_left hn, Nat.add_sub_cancel_left]
    refine ⟨r, b, hr, by rw [hb, hpiece], ?_⟩
    simp only [RtspRequest.parseRequest, if_neg hhead, hr.state]

/-- **What a chunk brings**: some lines and a rest. -/
theorem Placed.lines {q : Request} {rest : List Request} {s part bytes : Bytes} {r : RtspRequest}
    {n : Nat} (h : Placed (q :: rest) s r n part) (hpre : s ++ bytes <+: stream (q :: rest)) :
    ∃ k part', NoCrlf part' ∧
      part ++ bytes = unlines ((q.lines.drop n ++ rest.flatMap Request.lines).take k) ++ part' ∧
      s ++ bytes = unlines (((q :: rest).flatMap Request.lines).take (n + k)) ++ part' ∧
      lineCount (s ++ bytes) = n + k ∧ leftover (s ++ bytes) = part' := by
  have hle := Nat.le_of_lt h.lt_lines
  have hdrop : ((q :: rest).flatMap Request.lines).drop n =
      q.lines.drop n ++ rest.flatMap Request.lines := by
    rw [List.flatMap_cons, List.drop_append_of_le_length hle]
  have hclean := clean_flatMap (q :: rest)
  have hu : part ++ bytes <+: unlines (((q :: rest).flatMap Request.lines).drop n) := by
    rw [stream_eq_unlines, ← List.take_append_drop n ((q :: rest).flatMap Request.lines),
      unlines_append, h.received, List.append_assoc, List.prefix_append_right_inj] at hpre
    exact hpre
  obtain ⟨k, part', hkle, hsplit, hpart', -⟩ :=
    prefix_unlines (fun l hl => hclean l (List.mem_of_mem_drop hl)) hu
  have hR : s ++ bytes = unlines (((q :: rest).flatMap Request.lines).take (n + k)) ++ part' := by
    rw [h.received, List.append_assoc, hsplit, List.take_add, unlines_append, List.append_assoc]
  refine ⟨k, part', hpart', hdrop ▸ hsplit, hR, ?_, ?_⟩
  · rw [List.length_drop] at hkle
    rw [hR, lineCount_unlines (fun l hl => hclean l (List.mem_of_mem_take hl)) hpart',
      List.length_take]
    have : q.lines.length ≤ ((q :: rest).flatMap Request.lines).length := by simp
    omega
  · rw [hR, leftover_unlines _ hpart']

/-- What is left is no line. -/
theorem Placed.noCrlf_leftover {todo : List Request} {s part bytes : Bytes} {r : RtspRequest}
    {n : Nat} (h : Placed todo s r n part) (hpre : s ++ bytes <+: stream todo) :
    NoCrlf (leftover (s ++ bytes)) := by
  cases todo with
  | nil =>
    rw [stream_nil, List.prefix_nil] at hpre
    rw [hpre]
    exact noCrlf_nil
  | cons q rest =>
    obtain ⟨k, part', hpart', -, -, -, hleft⟩ := h.lines hpre
    exact hleft ▸ hpart'

theorem textOk_limit {todo : List Request} {s bytes : Bytes} (h : textOk todo s bytes = true) :
    (leftover (s ++ bytes)).length ≤ maxRtspMessageSize := by
  simp only [textOk, Bool.and_eq_true, decide_eq_true_eq] at h
  exact h.1.2

/-- What a read of text does: the connection stays open, what is no line yet stays in the buffer,
and a command is dispatched when a request has come in completely. -/
structure TextRead (todo : List Request) (s part bytes tail : Bytes) (o : ReadOutcome)
    (part' : Bytes) : Prop where
  ok : o.ok = true
  rtcp : o.rtcp = []
  discarded : o.discarded = []
  parsed : part ++ bytes = o.parsed ++ part'
  buffer : o.reader.buffer.readable = part' ++ tail
  command : (o.command = none ∧ ∃ m, Placed todo (s ++ bytes) o.reader.request m part') ∨
    ∃ q rest req, todo = q :: rest ∧ o.command = some req ∧ req.command = q.command ∧
      s ++ bytes = q.text ++ part' ∧ Placed rest part' o.reader.request 0 part'

/-- A read that brings a line at least. -/
theorem Placed.read_piece (charSigned : Bool) {q : Request} {rest : List Request}
    {s part bytes part' tail : Bytes} {r : RtspRequest} {n k : Nat} {b : BufferReader}
    (h : Placed (q :: rest) s r n part) (hq : q.plain = true) (hok : pieceOk q n k = true)
    (hk : 0 < k) (hb : b.readable = part ++ bytes ++ tail) (hhead : b.readable.head? ≠ some 36)
    (hlen : (part' ++ tail).length ≤ maxRtspMessageSize) (hline : NoCrlf (part' ++ tail))
    (hpart' : NoCrlf part')
    (hsplit : part ++ bytes =
      unlines ((q.lines.drop n ++ rest.flatMap Request.lines).take k) ++ part')
    (hR : s ++ bytes = unlines (((q :: rest).flatMap Request.lines).take (n + k)) ++ part') :
    ∃ o, onRead charSigned ⟨r, b⟩ = some o ∧
      TextRead (q :: rest) s part bytes tail o part' := by
  have hle := (pieceOk_spec hok).1
  rw [List.take_append_of_le_length (by rw [List.length_drop]; omega)] at hsplit
  rw [List.flatMap_cons, List.take_append_of_le_length hle] at hR
  rw [hsplit, List.append_assoc] at hb
  obtain ⟨r₁, b₁, hin, hb₁, hparse⟩ := h.parseRequest_piece hq hk hhead hb
  obtain ⟨r₂, b₂, hround, hb₂, hcase⟩ := headersRound_piece hq hok hk hin hb₁ hline
  have hbne : b.readable ≠ [] := by
    obtain ⟨l, ls, hl⟩ : ∃ l ls, (q.lines.drop n).take k = l :: ls :=
      List.exists_cons_of_ne_nil (List.ne_nil_of_length_pos (by
        have := h.lt_lines
        rw [List.length_take, List.length_drop]
        omega))
    rw [hb, hl, unlines_cons]
    simp [crlf]
  have htaken : BufferReader.taken b b₂ = unlines ((q.lines.drop n).take k) :=
    BufferReader.taken_eq (by rw [hb, hb₂])
  have hmethod : r₂.method = q.method := by
    split at hcase
    · exact hcase.method
    · exact hcase.2.1
  have hread := onRead_of_parse charSigned (x := ⟨r, b⟩) hbne (hparse.trans hround)
    (by rw [hmethod]; exact q.method_known.1) (by rw [hmethod]; exact q.method_known.2)
    (by rw [hb₂]; exact hlen)
  refine ⟨_, hread, rfl, rfl, rfl, hsplit.trans (congrArg (· ++ part') htaken.symm), hb₂, ?_⟩
  by_cases hmore : n + k < q.lines.length
  · rw [if_pos hmore] at hcase
    have hgot : r₂.gotAll = false := by simp [RtspRequest.gotAll, hcase.state]
    simp only [hgot, Bool.false_eq_true, if_false]
    refine Or.inl ⟨trivial, n + k, ?_, hpart', Or.inr ⟨q, rest, rfl, by omega, hmore, hcase⟩⟩
    rw [hR, List.flatMap_cons, List.take_append_of_le_length hle]
  · rw [if_neg hmore] at hcase
    have hgot : r₂.gotAll = true := by simp [RtspRequest.gotAll, hcase.1]
    simp only [hgot, if_true]
    refine Or.inr ⟨q, rest, r₂, rfl, rfl, hcase.2.2, ?_, .start (between_reset r₂) hpart'⟩
    rw [hR, List.take_of_length_le (by omega)]
    rfl

/-- **One read of text.** Behind the text may be something else, `tail`, that has no line end. -/
theorem Placed.read (charSigned : Bool) {todo : List Request} {s part bytes tail : Bytes}
    {r : RtspRequest} {n : Nat} {b : BufferReader} (h : Placed todo s r n part)
    (hb : b.readable = part ++ bytes ++ tail) (hne : bytes ≠ [])
    (hpre : s ++ bytes <+: stream todo) (hok : textOk todo s bytes = true)
    (hline : NoCrlf (leftover (s ++ bytes) ++ tail))
    (hlen : (leftover (s ++ bytes) ++ tail).length ≤ maxRtspMessageSize) :
    ∃ o part', onRead charSigned ⟨r, b⟩ = some o ∧ TextRead todo s part bytes tail o part' := by
  cases todo with
  | nil =>
    rw [stream_nil, List.prefix_nil] at hpre
    exact absurd (List.append_eq_nil_iff.mp hpre).2 hne
  | cons q rest =>
    have hne' : part ++ bytes ≠ [] := by simp [hne]
    obtain ⟨k, part', hpart', hsplit, hR, hcount, hleft⟩ := h.lines hpre
    rw [hleft] at hline hlen
    simp only [textOk, h.lineCount_eq, hcount, Nat.add_sub_cancel_left, h.leftover_eq,
      Bool.and_eq_true, Bool.or_eq_true, decide_eq_true_eq] at hok
    obtain ⟨⟨hhead, -⟩, hpiece⟩ := hok
    have hhead' : b.readable.head? ≠ some 36 := by
      rw [hb, List.head?_append_of_ne_nil _ hne']
      exact hhead
    by_cases hk : k = 0
    · -- No line end has come in.
      subst hk
      rw [List.take_zero, unlines_nil, List.nil_append] at hsplit
      have hb' : b.readable = part' ++ tail := by rw [hb, hsplit]
      have hstate : r.state ≠ .gotAll := by
        rcases h.parser with ⟨-, hr⟩ | ⟨_, _, _, _, _, hr⟩ <;> simp [hr.state]
      have hread := onRead_waits charSigned (x := ⟨r, b⟩) (by simp [hb, hne]) hhead'
        (hb' ▸ hline) hstate (hb' ▸ hlen)
      exact ⟨_, part', hread, rfl, rfl, rfl, hsplit, hb', Or.inl ⟨rfl, n, hR, hpart', h.parser⟩⟩
    · obtain ⟨hq, hpok⟩ := hpiece.resolve_left hk
      obtain ⟨o, ho, hread⟩ := h.read_piece charSigned hq hpok (Nat.pos_of_ne_zero hk) hb hhead'
        hlen hline hpart' hsplit hR
      exact ⟨o, part', ho, hread⟩

/-! ## The conversation -/

/-- What becomes of a byte that leaves the buffer. -/
inductive Use
  | parsed | rtcp | discarded
  deriving DecidableEq, Repr

/-- The server's end of a connection, as far as reading goes. -/
structure Conversation where
  reader : RtspReader
  received : Bytes
  /-- The requests dispatched, as their handlers saw them. -/
  commands : List RtspRequest
  /-- The bytes that have left the buffer. -/
  uses : List (Use × UInt8)
  /-- The connection is open. -/
  ok : Bool

/-- What a read does with the bytes it takes from the buffer, in order. -/
def ReadOutcome.uses (o : ReadOutcome) : List (Use × UInt8) :=
  o.parsed.map (.parsed, ·) ++ o.rtcp.map (.rtcp, ·) ++ o.discarded.map (.discarded, ·)

/-- A chunk comes in. A full buffer, a `false` from `OnRead` and an exception close the
connection. -/
def Conversation.receive (charSigned : Bool) (c : Conversation) (chunk : Chunk) : Conversation :=
  match c.reader.buffer.read chunk with
  | none => { c with ok := false }
  | some b =>
      match onRead charSigned ⟨c.reader.request, b⟩ with
      | none => { c with received := c.received ++ chunk.bytes, ok := false }
      | some o => ⟨o.reader, c.received ++ chunk.bytes, c.commands ++ o.command.toList,
          c.uses ++ o.uses, o.ok⟩

/-- As long as the connection is open, any chunk of what is sent may come next. -/
def Conversation.step (charSigned : Bool) (sent : Bytes) (c : Conversation) (chunk : Chunk) :
    Option Conversation :=
  if c.ok = true ∧ (c.received ++ chunk.bytes).isPrefixOf sent = true then
    some (c.receive charSigned chunk)
  else none

/-- Nothing has been read. -/
structure Conversation.Fresh (c : Conversation) : Prop where
  request : Between c.reader.request
  buffer : c.reader.buffer = .new
  received : c.received = []
  commands : c.commands = []
  uses : c.uses = []
  ok : c.ok = true

/-- **A client sends `sent`**, and it comes in in chunks. -/
def listen (charSigned : Bool) (sent : Bytes) : System Conversation Chunk :=
  System.ofStep Conversation.Fresh (Conversation.step charSigned sent)

/-- What a step does when the read goes well. -/
theorem Conversation.step_of_read {charSigned : Bool} {sent : Bytes} {c c' : Conversation}
    {chunk : Chunk} (hst : (listen charSigned sent).step c chunk c')
    (hcan : c.reader.buffer.canRead = true) :
    c.received ++ chunk.bytes <+: sent ∧ ∃ b, b.readable = c.reader.buffer.readable ++ chunk.bytes ∧
      ∀ o, onRead charSigned ⟨c.reader.request, b⟩ = some o →
        c' = ⟨o.reader, c.received ++ chunk.bytes, c.commands ++ o.command.toList,
          c.uses ++ o.uses, o.ok⟩ := by
  simp only [listen, System.ofStep_step, Conversation.step] at hst
  split at hst
  · rename_i h
    obtain ⟨b, hb⟩ := BufferReader.read_isSome chunk hcan
    refine ⟨List.isPrefixOf_iff_prefix.mp h.2, b, BufferReader.readable_read hb, fun o ho => ?_⟩
    rw [← Option.some.inj hst]
    simp only [Conversation.receive, hb, ho]
  · simp at hst

/-! ## Requests only -/

/-- **The condition on a read of requests.** -/
def Framed (rs : List Request) (c : Conversation) (chunk : Chunk) : Prop :=
  let done := arrived rs c.received
  c.reader.buffer.canRead = true ∧
    textOk (rs.drop done.length) (c.received.drop (stream done).length) chunk.bytes = true

instance (rs : List Request) (c : Conversation) (chunk : Chunk) : Decidable (Framed rs c chunk) :=
  inferInstanceAs (Decidable (_ ∧ _))

/-- What holds all the time: everything that has come in completely has been dispatched, and the
parser is where the rest is. -/
structure FramingInv (rs : List Request) (c : Conversation) : Prop where
  ok : c.ok = true
  placed : ∃ done todo s n, rs = done ++ todo ∧ c.received = stream done ++ s ∧
    c.commands.map RtspRequest.command = done.map Request.command ∧
    Placed todo s c.reader.request n c.reader.buffer.readable

theorem FramingInv.start {rs : List Request} {c : Conversation} (h : c.Fresh) : FramingInv rs c := by
  have hread : c.reader.buffer.readable = [] := by rw [h.buffer, BufferReader.readable_new]
  refine ⟨h.ok, [], rs, [], 0, rfl, h.received, by rw [h.commands]; rfl, ?_⟩
  rw [hread]
  exact .start h.request noCrlf_nil

/-- **One chunk.** -/
theorem FramingInv.step {charSigned : Bool} {rs : List Request} {c c' : Conversation}
    {chunk : Chunk} (h : FramingInv rs c) (hg : Framed rs c chunk)
    (hst : (listen charSigned (stream rs)).step c chunk c') : FramingInv rs c' := by
  obtain ⟨done, todo, s, n, rfl, hrec, hcmd, hplaced⟩ := h.placed
  obtain ⟨hcan, hok⟩ := hg
  obtain ⟨hpre, b, hb, hc'⟩ := Conversation.step_of_read hst hcan
  have harr : arrived (done ++ todo) c.received = done := by
    rw [hrec, arrived_append, hplaced.arrived_eq, List.append_nil]
  rw [harr, List.drop_left, hrec, List.drop_left] at hok
  rw [stream_append, hrec, List.append_assoc, List.prefix_append_right_inj] at hpre
  have hlimit := textOk_limit hok
  have hline := hplaced.noCrlf_leftover hpre
  have hb' : b.readable = c.reader.buffer.readable ++ chunk.bytes ++ [] := by simpa using hb
  obtain ⟨o, part', ho, hread⟩ := hplaced.read charSigned hb'
    chunk.nonempty hpre hok (by simpa using hline) (by simpa using hlimit)
  have hbuf : o.reader.buffer.readable = part' := by simpa using hread.buffer
  rw [hc' o ho]
  refine ⟨hread.ok, ?_⟩
  rcases hread.command with ⟨hnone, m, hp⟩ | ⟨q, rest, req, rfl, hsome, hreq, htext, hp⟩
  · refine ⟨done, todo, s ++ chunk.bytes, m, rfl, by simp [hrec], ?_, hbuf ▸ hp⟩
    simpa [hnone] using hcmd
  · refine ⟨done ++ [q], rest, part', 0, by simp, ?_, ?_, hbuf ▸ hp⟩
    · simp [hrec, htext]
    · simp [hsome, hcmd, hreq]

/-- A connection just accepted. -/
def Conversation.new : Conversation where
  reader := ⟨⟨.none, .channel0, .rtpOverTcp, [], [], [], .parseRequestLine⟩, .new⟩
  received := []
  commands := []
  uses := []
  ok := true

theorem Conversation.new_fresh : Conversation.new.Fresh := ⟨⟨rfl, rfl, rfl⟩, rfl, rfl, rfl, rfl, rfl⟩

theorem options_known : Method.options ≠ .rtcp ∧ Method.options ≠ .none := by
  decide

theorem nothing_clean : ∀ l ∈ ([] : List Bytes), l ≠ [] ∧ CleanLine l ∧ (0 : UInt8) ∉ l :=
  List.forall_mem_nil _

def asks (cseq : Nat) : Request := .live .options cseq [] options_known nothing_clean

end Maixii.Xop
