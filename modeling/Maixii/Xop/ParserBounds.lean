import Maixii.Xop.RtspPusher
import Maixii.Xop.RtspReader
import Maixii.Xop.RtspUrl

/-!
# `Xop/ParserBounds.lean`: what the parsers touch

The parsers of `xop/RtspMessage.cpp` copy words into arrays with `sscanf`, without widths, and the
response parser looks through the receive buffer with `strstr`, which does not know where it ends.
Here are the parsers again, as the list of what they touch (`Access`): every text a conversion
copies with the array it is copied to, and every `strstr` with how far it looks. The `none` of the
parser in `RtspMessage.lean` is one of these (`parseRequestLine_none_iff`).

**A read stays where it belongs exactly when the peer's words are short enough, and what the
response parser looks for, or a NUL, is among the bytes that were received**
(`readAccesses_inside_iff`).
-/

set_option autoImplicit false

namespace Maixii.Xop

open Maixii.Lib Maixii.Net

/-! ## What is touched -/

inductive Access
  /-- `sscanf` copies `bs` and a terminator to an array of `size` bytes. -/
  | copy (bs : Bytes) (size : Nat)
  /-- `strstr` on the `received` bytes of the buffer, and how far it looks. -/
  | strstr (looks : Option Nat) (received : Nat)

namespace Access

/-- It stays inside. -/
def Inside : Access → Prop
  | copy bs size => bs.length < size
  | strstr looks received => ∃ n, looks = some n ∧ n ≤ received

end Access

/-- The texts among the fields that `sscanf` assigned, with the sizes of their arrays. A number
goes to a variable of its own width; it has the size 0 here. -/
def copies : List Field → List Nat → List Access
  | .text bs :: fs, size :: sizes => .copy bs size :: copies fs sizes
  | .num _ :: fs, _ :: sizes => copies fs sizes
  | _, _ => []

theorem copies_inside_iff (fs : List Field) (sizes : List Nat) :
    (∀ a ∈ copies fs sizes, a.Inside) ↔ RtspRequest.fits fs sizes = true := by
  induction fs generalizing sizes with
  | nil => simp [copies, RtspRequest.fits]
  | cons f fs ih =>
    cases sizes with
    | nil => cases f <;> simp [copies, RtspRequest.fits]
    | cons size sizes =>
      cases f with
      | text bs =>
        simp only [copies, RtspRequest.fits, List.forall_mem_cons, Bool.and_eq_true,
          decide_eq_true_eq, ih]
        exact Iff.rfl
      | num n => simp only [copies, RtspRequest.fits, ih]

/-! ## The request parser -/

namespace RtspRequest

/-- The two patterns of the URL; the second one is tried when the first does not match. -/
def urlAccesses (rest : Bytes) : List Access :=
  let f₁ := sscanf rest portFormat
  copies f₁ [64, 0, 64] ++
    match f₁ with
    | [.text _, .num _, .text _] => []
    | _ => copies (sscanf rest pathFormat) [64, 64]

/-- `ParseRequestLine`. -/
def lineAccesses (message : Bytes) : List Access :=
  let f := sscanf message lineFormat
  copies f [64, 512, 64] ++
    match f with
    | [.text method, .text url, .text _] =>
        match methodOf method with
        | none => []
        | some _ => if startsWith (ascii "rtsp://") url then urlAccesses (url.drop 7) else []
    | _ => []

/-- `ParseCSeq`. -/
def cseqAccesses (message : Bytes) : List Access :=
  match findFirst (ascii "CSeq") message with
  | some pos => copies (sscanf (message.drop pos) numberFormat) [0]
  | none => []

/-- `ParseTransport`. -/
def transportAccesses (message : Bytes) : List Access :=
  match findFirst (ascii "Transport") message with
  | none => []
  | some _ =>
      match findFirst (ascii "RTP/AVP/TCP") message with
      | some pos => copies (sscanf (message.drop pos) pairFormat) [0, 0]
      | none =>
          match findFirst (ascii "RTP/AVP") message with
          | none => []
          | some pos =>
              if (findFirst (ascii "unicast") (message.drop pos)).isSome then
                copies (sscanf (message.drop pos) pairFormat) [0, 0]
              else []

/-- `ParseSessionId`. -/
def sessionIdAccesses (message : Bytes) : List Access :=
  match findFirst (ascii "Session") message with
  | some pos => copies (sscanf (message.drop pos) numberFormat) [0]
  | none => []

/-- `ParseHeadersLine`. -/
def headersAccesses (r : RtspRequest) (message : Bytes) : List Access :=
  cseqAccesses message ++
    if !(r.parseCSeq message).1 && (r.headerLineParam.find .cseq).isNone then []
    else
      match r.method with
      | .setup => transportAccesses message
      | .play => sessionIdAccesses message
      | _ => []

/-- The `kParseHeadersLine` round of the loop. -/
def headersRoundAccesses (r : RtspRequest) (b : BufferReader) : List Access :=
  match b.findLastCrlf with
  | none => []
  | some lastCrlf => r.headersAccesses (b.readable.take lastCrlf)

/-- `ParseRequest`. -/
def requestAccesses (r : RtspRequest) (b : BufferReader) : List Access :=
  if b.readable.head? = some 36 then []
  else match r.state with
    | .parseRequestLine =>
        match b.findFirstCrlf with
        | none => []
        | some firstCrlf =>
            lineAccesses (b.readable.take firstCrlf) ++
              match r.requestLineRound b with
              | none => []
              | some (_, r, b) =>
                  if r.state = .parseHeadersLine then r.headersRoundAccesses b else []
    | .parseHeadersLine => r.headersRoundAccesses b
    | .gotAll => []

end RtspRequest

/-! ## The response parser -/

/-- What stands in memory from `Peek()` on: the rest of the buffer's vector, and what is behind. -/
def BufferReader.memory (b : BufferReader) (beyond : Bytes) : Bytes :=
  b.buffer.drop b.readerIndex ++ beyond

namespace RtspResponse

/-- `strstr(buffer->Peek(), pat)`. -/
def look (b : BufferReader) (beyond pat : Bytes) : Access :=
  .strstr (strstrLooks pat (BufferReader.memory b beyond)) b.readableBytes

/-- `ParseResponse`. -/
def responseAccesses (b : BufferReader) (beyond : Bytes) : List Access :=
  let text := cstr (BufferReader.memory b beyond)
  look b beyond blankLine ::
    if !occurs blankLine text then []
    else look b beyond (ascii "OK") ::
      if !occurs (ascii "OK") text then []
      else look b beyond (ascii "Session") :: copies (sessionFields text) [sessionSize]

end RtspResponse

/-- `ConnectionMode`. -/
inductive ConnectionMode
  | rtspServer | rtspPusher
  deriving DecidableEq, Repr

/-- `OnRead`. -/
def readAccesses (mode : ConnectionMode) (r : RtspRequest) (b : BufferReader) (beyond : Bytes) :
    List Access :=
  if b.readableBytes = 0 then []
  else match mode with
    | .rtspServer => r.requestAccesses b
    | .rtspPusher => RtspResponse.responseAccesses b beyond

/-! ## The conditions -/

/-- The parts of a URL, behind the scheme, fit: the text before the first colon, which is copied
first; what is behind a port, if there is one; and if not, the host and the suffix. -/
structure UrlFits (s : Bytes) : Prop where
  colon : (s.takeWhile (· ≠ 58)).length < 64
  port : ∀ x q y, s = x ++ 58 :: (q ++ 47 :: y) → x ≠ [] → 58 ∉ x → NumberText q →
    (firstWord y).length < 64
  slash : ¬ HasPort s → (s.takeWhile (· ≠ 47)).length < 64
  path : ¬ HasPort s → ∀ x y, s = x ++ 47 :: y → x ≠ [] → 47 ∉ x → (firstWord y).length < 64

/-- The words of a request line fit, and so do the parts of the URL when it is looked at. -/
structure LineFits (s : Bytes) : Prop where
  method : (firstWord s).length < 64
  url : (firstWord (behind s)).length < 512
  version : (firstWord (behind (behind s))).length < 64
  parts : firstWord (behind (behind s)) ≠ [] → RtspRequest.methodOf (firstWord s) ≠ none →
    startsWith scheme (firstWord (behind s)) = true → UrlFits ((firstWord (behind s)).drop 7)

/-- A request line that is about to be parsed fits. -/
def RequestFits (r : RtspRequest) (b : BufferReader) : Prop :=
  b.readable.head? ≠ some 36 → r.state = .parseRequestLine →
    ∀ firstCrlf, b.findFirstCrlf = some firstCrlf → LineFits (cstr (b.readable.take firstCrlf))

/-- The pattern, or a NUL, is among the bytes that were received. -/
def Received (pat : Bytes) (b : BufferReader) : Prop := 0 ∈ b.readable ∨ pat <:+: b.readable

/-- The response parser meets what it looks for in time, and a session id is short. -/
structure ResponseFits (b : BufferReader) (text : Bytes) : Prop where
  blank : Received RtspResponse.blankLine b
  ok : RtspResponse.blankLine <:+: text → Received (ascii "OK") b
  session : RtspResponse.blankLine <:+: text → ascii "OK" <:+: text → Received (ascii "Session") b
  sessionId : RtspResponse.blankLine <:+: text → ascii "OK" <:+: text →
    ∀ pos x y, findFirst (ascii "Session") text = some pos → text.drop pos = x ++ 58 :: y → 58 ∉ x →
      (firstWord y).length < 50

/-- The condition on a read. -/
def ReadFits (mode : ConnectionMode) (r : RtspRequest) (b : BufferReader) (beyond : Bytes) : Prop :=
  b.readableBytes ≠ 0 → match mode with
    | .rtspServer => RequestFits r b
    | .rtspPusher => ResponseFits b (cstr (BufferReader.memory b beyond))

/-! ## Numbers are no copies -/

/-- A directive that assigns no text. -/
def Directive.Textless : Directive → Prop
  | .word | .until _ => False
  | _ => True

instance (d : Directive) : Decidable (Directive.Textless d) := by
  cases d <;> unfold Directive.Textless <;> infer_instance

/-- A format without `%s` and `%[` copies nothing. -/
theorem copies_textless {format : List Directive} (h : ∀ d ∈ format, Directive.Textless d)
    (s : Bytes) (sizes : List Nat) : copies (scan format s) sizes = [] := by
  induction format generalizing s sizes with
  | nil => simp [scan, copies]
  | cons d format ih =>
    obtain ⟨hd, htail⟩ := List.forall_mem_cons.mp h
    cases d with
    | space => exact ih htail _ _
    | lit c =>
      cases s with
      | nil => rfl
      | cons b s =>
        rw [scan]
        split
        · exact ih htail _ _
        · rfl
    | word => exact hd.elim
    | «until» c => exact hd.elim
    | skipUntil c =>
      rw [scan]
      split
      · rfl
      · exact ih htail _ _
    | unsigned bits =>
      rw [scan]
      split
      · rfl
      · cases sizes with
        | nil => rfl
        | cons size sizes => exact ih htail _ _

theorem pairFormat_textless : ∀ d ∈ RtspRequest.pairFormat, Directive.Textless d := by decide

theorem numberFormat_textless : ∀ d ∈ RtspRequest.numberFormat, Directive.Textless d := by decide

namespace RtspRequest

/-- **The header parsers copy no text.** -/
theorem headersAccesses_eq (r : RtspRequest) (message : Bytes) : r.headersAccesses message = [] := by
  have hcseq : cseqAccesses message = [] := by
    unfold cseqAccesses
    split
    · exact copies_textless numberFormat_textless _ _
    · rfl
  have htransport : transportAccesses message = [] := by
    unfold transportAccesses
    split
    · rfl
    · split
      · exact copies_textless pairFormat_textless _ _
      · split
        · rfl
        · split
          · exact copies_textless pairFormat_textless _ _
          · rfl
  have hsession : sessionIdAccesses message = [] := by
    unfold sessionIdAccesses
    split
    · exact copies_textless numberFormat_textless _ _
    · rfl
  unfold headersAccesses
  rw [hcseq, List.nil_append]
  split
  · rfl
  · split
    · exact htransport
    · exact hsession
    · rfl

theorem headersRoundAccesses_eq (r : RtspRequest) (b : BufferReader) :
    r.headersRoundAccesses b = [] := by
  unfold headersRoundAccesses
  split
  · rfl
  · exact r.headersAccesses_eq _

/-- Only the request line is copied. -/
theorem requestAccesses_eq (r : RtspRequest) (b : BufferReader) :
    r.requestAccesses b =
      if b.readable.head? ≠ some 36 ∧ r.state = .parseRequestLine then
        match b.findFirstCrlf with
        | none => []
        | some firstCrlf => lineAccesses (b.readable.take firstCrlf)
      else [] := by
  unfold requestAccesses
  by_cases hhead : b.readable.head? = some 36
  · rw [if_pos hhead, if_neg (fun h => h.1 hhead)]
  · rw [if_neg hhead]
    cases hstate : r.state with
    | parseRequestLine =>
      rw [if_pos ⟨hhead, rfl⟩]
      dsimp only
      cases b.findFirstCrlf with
      | none => rfl
      | some firstCrlf =>
        dsimp only
        cases r.requestLineRound b with
        | none => rw [List.append_nil]
        | some o => simp only [headersRoundAccesses_eq, ite_self, List.append_nil]
    | parseHeadersLine =>
      rw [if_neg (by simp)]
      exact r.headersRoundAccesses_eq b
    | gotAll => rw [if_neg (by simp)]

/-! ## The request line -/

/-- A URL overflows an array exactly where the parser has no result. -/
theorem urlAccesses_inside_iff (rest : Bytes) :
    (∀ a ∈ urlAccesses rest, a.Inside) ↔ parseUrl rest ≠ none := by
  unfold urlAccesses parseUrl
  dsimp only
  rw [List.forall_mem_append, copies_inside_iff]
  generalize sscanf rest portFormat = f₁
  generalize sscanf rest pathFormat = f₂
  cases hfits : fits f₁ [64, 0, 64] with
  | false => simp
  | true =>
    simp only [Bool.not_true, Bool.false_eq_true, if_false, true_and]
    split
    · simp
    · rw [copies_inside_iff]
      cases fits f₂ [64, 64] with
      | false => simp
      | true =>
        simp only [Bool.not_true, Bool.false_eq_true, if_false, true_iff]
        split <;> simp

/-- **A request line overflows an array exactly where the parser has no result.** -/
theorem parseRequestLine_none_iff (r : RtspRequest) (message : Bytes) :
    r.parseRequestLine message = none ↔ ¬ ∀ a ∈ lineAccesses message, a.Inside := by
  unfold lineAccesses parseRequestLine
  dsimp only
  rw [List.forall_mem_append, copies_inside_iff]
  generalize sscanf message lineFormat = f
  cases hfits : fits f [64, 512, 64] with
  | false => simp
  | true =>
    simp only [Bool.not_true, Bool.false_eq_true, if_false, true_and]
    split
    · rename_i method url version
      try dsimp only
      cases methodOf method with
      | none => simp
      | some m =>
        cases startsWith (ascii "rtsp://") url with
        | false => simp
        | true =>
          simp only [Bool.not_true, Bool.false_eq_true, if_false, if_true, urlAccesses_inside_iff,
            not_not]
          cases parseUrl (url.drop 7) with
          | none => simp
          | some parts => cases parts <;> simp
    · simp

/-- The URL fits where its parser has a result. -/
theorem urlFits_iff (rest : Bytes) : parseUrl rest ≠ none ↔ UrlFits (cstr rest) := by
  rw [parseUrl_eq]
  rcases pattern_cases (cstr rest) with ⟨x, q, y, hcstr, hx, hc, hq, hy⟩ |
      ⟨hport, x, y, hcstr, hx, hc, hy⟩ | ⟨hport, hhead⟩
  · obtain ⟨n, hread⟩ := readUnsigned_complete hq (stops_slash y)
    rw [parseUrlInto_port hcstr hx hc hy hread]
    have hfirst : (cstr rest).takeWhile (· ≠ 58) = x := by
      rw [hcstr]
      exact takeWhile_before hc _
    constructor
    · intro h
      have hlt : x.length < 64 ∧ (firstWord y).length < 64 := by
        by_contra hno
        rw [if_neg hno] at h
        exact h rfl
      refine ⟨by rw [hfirst]; exact hlt.1, ?_, fun hno => ?_, fun hno => ?_⟩
      · intro x' q' y' heq hx' hc' hq'
        rw [hcstr] at heq
        obtain ⟨rfl, htail⟩ := cut_unique hc hc' heq
        obtain ⟨-, rfl⟩ := cut_number hq hq' htail
        exact hlt.2
      · exact absurd ⟨x, q, y, hcstr, hx, hc, hq, hy⟩ hno
      · exact absurd ⟨x, q, y, hcstr, hx, hc, hq, hy⟩ hno
    · intro h
      rw [if_pos ⟨by rw [← hfirst]; exact h.colon, h.port x q y hcstr hx hc hq⟩]
      simp
  · rw [parseUrlInto_path (by omega) hport hcstr hx hc hy]
    have hslash : (cstr rest).takeWhile (· ≠ 47) = x := by
      rw [hcstr]
      exact takeWhile_before hc _
    constructor
    · intro h
      have hlt : ((cstr rest).takeWhile (· ≠ 58)).length < 64 ∧ x.length < 64 ∧
          (firstWord y).length < 64 := by
        by_contra hno
        rw [if_neg hno] at h
        exact h rfl
      refine ⟨hlt.1, ?_, fun _ => by rw [hslash]; exact hlt.2.1, fun _ => ?_⟩
      · intro x' q' y' heq hx' hc' hq'
        -- A blank rest after the slash has no word.
        by_cases hy' : Blank y'
        · rw [firstWord_eq_nil.mpr hy']
          decide
        · exact absurd ⟨x', q', y', heq, hx', hc', hq', hy'⟩ hport
      · intro x' y' heq hx' hc'
        rw [hcstr] at heq
        obtain ⟨-, rfl⟩ := cut_unique hc hc' heq
        exact hlt.2.2
    · intro h
      rw [if_pos ⟨h.colon, by rw [← hslash]; exact h.slash hport, h.path hport x y hcstr hx hc⟩]
      simp
  · rw [parseUrlInto_headless (by omega) hport hhead]
    constructor
    · intro h
      have hlt : ((cstr rest).takeWhile (· ≠ 58)).length < 64 ∧
          ((cstr rest).takeWhile (· ≠ 47)).length < 64 := by
        by_contra hno
        rw [if_neg hno] at h
        exact h rfl
      refine ⟨hlt.1, ?_, fun _ => hlt.2, fun _ => ?_⟩
      · intro x' q' y' heq hx' hc' hq'
        by_cases hy' : Blank y'
        · rw [firstWord_eq_nil.mpr hy']
          decide
        · exact absurd ⟨x', q', y', heq, hx', hc', hq', hy'⟩ hport
      · intro x' y' heq hx' hc'
        rcases hhead with hno | ⟨x, y, heq', hx, hxy⟩
        · rw [heq] at hno
          exact absurd (by simp) hno
        · rw [heq'] at heq
          obtain ⟨rfl, rfl⟩ := cut_unique hx hc' heq
          rw [firstWord_eq_nil.mpr (hxy.resolve_left hx')]
          decide
    · intro h
      rw [if_pos ⟨h.colon, h.slash hport⟩]
      simp

/-- What `"%s %s %s"` reads: up to three words. -/
theorem scan_line (s : Bytes) :
    scan lineFormat s =
      if firstWord s = [] then []
      else .text (firstWord s) ::
        if firstWord (behind s) = [] then []
        else .text (firstWord (behind s)) ::
          if firstWord (behind (behind s)) = [] then []
          else [.text (firstWord (behind (behind s)))] := by
  unfold lineFormat
  rw [scan_word_cons, scan_word_space, scan_word_cons, scan_word_space, scan_last_word]

/-- A word has no NUL if its text has none. -/
theorem cstr_firstWord (s : Bytes) (n : Nat) :
    cstr ((firstWord (behind (cstr s))).drop n) = (firstWord (behind (cstr s))).drop n := by
  refine cstr_of_no_nul fun hm => zero_notMem_cstr s ?_
  have hword := firstWord_subset (List.mem_of_mem_drop hm)
  exact (List.dropWhile_sublist _).subset ((List.dropWhile_sublist _).subset hword)

/-- **The request line stays inside its arrays exactly when its words fit.** -/
theorem lineAccesses_inside_iff (message : Bytes) :
    (∀ a ∈ lineAccesses message, a.Inside) ↔ LineFits (cstr message) := by
  unfold lineAccesses sscanf
  rw [scan_line, List.forall_mem_append, copies_inside_iff]
  have hurl := cstr_firstWord message 7
  generalize cstr message = s at hurl ⊢
  by_cases h₁ : firstWord s = []
  · -- A line without a word.
    have h₂ := firstWord_behind_nil h₁
    have h₃ := firstWord_behind_nil h₂
    simp only [h₁, if_true, fits, List.not_mem_nil, false_implies, implies_true, and_self, true_iff]
    refine ⟨by simp [h₁], by simp [h₂], by simp [h₃], fun hne => absurd h₃ hne⟩
  · rw [if_neg h₁]
    by_cases h₂ : firstWord (behind s) = []
    · have h₃ := firstWord_behind_nil h₂
      simp only [h₂, if_true, fits, List.not_mem_nil, false_implies, implies_true, and_true,
        Bool.and_true, decide_eq_true_eq]
      exact ⟨fun h => ⟨h, by simp [h₂], by simp [h₃], fun hne => absurd h₃ hne⟩, fun h => h.method⟩
    · rw [if_neg h₂]
      by_cases h₃ : firstWord (behind (behind s)) = []
      · simp only [h₃, if_true, fits, List.not_mem_nil, false_implies, implies_true, and_true,
          Bool.and_true, decide_eq_true_eq, Bool.and_eq_true]
        exact ⟨fun h => ⟨h.1, h.2, by simp [h₃], fun hne => absurd h₃ hne⟩,
          fun h => ⟨h.method, h.url⟩⟩
      · rw [if_neg h₃]
        simp only [fits, Bool.and_true, Bool.and_eq_true, decide_eq_true_eq]
        have hparts : (∀ a ∈ (match methodOf (firstWord s) with
            | none => []
            | some _ => if startsWith (ascii "rtsp://") (firstWord (behind s)) = true then
                urlAccesses ((firstWord (behind s)).drop 7) else []), a.Inside) ↔
            (methodOf (firstWord s) ≠ none → startsWith scheme (firstWord (behind s)) = true →
              UrlFits ((firstWord (behind s)).drop 7)) := by
          unfold scheme
          cases methodOf (firstWord s) with
          | none => simp
          | some m =>
            by_cases hscheme : startsWith (ascii "rtsp://") (firstWord (behind s)) = true
            · simp only [hscheme, if_true, ne_eq, reduceCtorEq, not_false_eq_true, true_implies]
              rw [urlAccesses_inside_iff, urlFits_iff, hurl]
            · simp [hscheme]
        rw [hparts]
        constructor
        · rintro ⟨⟨hmethod, hurl, hversion⟩, hrest⟩
          exact ⟨hmethod, hurl, hversion, fun _ => hrest⟩
        · intro h
          exact ⟨⟨h.method, h.url, h.version⟩, h.parts h₃⟩

/-- **A request stays inside exactly when its line does.** -/
theorem requestAccesses_inside_iff (r : RtspRequest) (b : BufferReader) :
    (∀ a ∈ r.requestAccesses b, a.Inside) ↔ RequestFits r b := by
  rw [requestAccesses_eq]
  unfold RequestFits
  split
  · rename_i h
    cases hcrlf : b.findFirstCrlf with
    | none => simp
    | some firstCrlf =>
      dsimp only
      rw [lineAccesses_inside_iff]
      constructor
      · intro hfits _ _ n hn
        obtain rfl := Option.some.inj hn
        exact hfits
      · intro hfits
        exact hfits h.1 h.2 firstCrlf rfl
  · rename_i h
    simp only [List.not_mem_nil, false_implies, implies_true, true_iff]
    intro hhead hstate
    exact absurd ⟨hhead, hstate⟩ h

end RtspRequest

/-! ## The response -/

namespace RtspResponse

variable {b : BufferReader} {beyond : Bytes}

theorem memory_take (b : BufferReader) (beyond : Bytes) :
    (BufferReader.memory b beyond).take b.readableBytes = b.readable := by
  have hr := b.reader_le
  have hw := b.writer_le
  unfold BufferReader.memory BufferReader.readable BufferReader.readableBytes
  rw [List.take_append_of_le_length (by simp only [List.length_drop]; omega), ← List.drop_take]

/-- **A look stays among the received bytes** exactly when it meets what it looks for there. -/
theorem look_inside_iff (pat : Bytes) : (look b beyond pat).Inside ↔ Received pat b := by
  unfold look Received
  rw [← memory_take b beyond]
  exact strstrLooks_le

/-- The session id is the word behind the first colon. -/
theorem session_copies_iff (text : Bytes) (hzero : 0 ∉ text) :
    (∀ a ∈ copies (sessionFields text) [sessionSize], a.Inside) ↔
      ∀ pos x y, findFirst (ascii "Session") text = some pos → text.drop pos = x ++ 58 :: y →
        58 ∉ x → (firstWord y).length < 50 := by
  unfold sessionFields
  cases hpos : findFirst (ascii "Session") text with
  | none => simp [copies]
  | some pos =>
    have hclean : cstr (text.drop pos) = text.drop pos :=
      cstr_of_no_nul fun hm => hzero (List.mem_of_mem_drop hm)
    dsimp only
    rw [sscanf, hclean, copies_inside_iff]
    unfold sessionFormat sessionSize
    rcases cut_at 58 (text.drop pos) with ⟨hno, htake, hdrop⟩ | ⟨w, t, hcut, hw, htake, hdrop⟩
    · -- No colon: nothing is copied.
      rw [scan, htake, hdrop]
      constructor
      · intro _ pos' x y hpos' heq
        obtain rfl := Option.some.inj hpos'
        rw [heq] at hno
        exact absurd (by simp) hno
      · intro _
        split <;> rfl
    · have hne : w ≠ [] := by
        rintro rfl
        obtain ⟨⟨v, hv⟩, -⟩ := findFirst_spec hpos
        rw [hcut] at hv
        exact absurd (List.cons.inj hv).1 (by decide)
      rw [hcut, scan_skipUntil hne hw, scan_lit, scan_word_space, scan_last_word]
      constructor
      · intro hfits pos' x y hpos' heq hx
        obtain rfl := Option.some.inj hpos'
        rw [hcut] at heq
        obtain ⟨-, rfl⟩ := cut_unique hw hx heq
        by_cases hword : firstWord t = []
        · rw [hword]
          decide
        · rw [if_neg hword] at hfits
          simpa [RtspRequest.fits] using hfits
      · intro hfits
        have hlt := hfits pos w t rfl hcut hw
        split
        · rfl
        · simpa [RtspRequest.fits] using hlt

/-- **A response stays inside exactly when what is looked for is there.** -/
theorem responseAccesses_inside_iff :
    (∀ a ∈ responseAccesses b beyond, a.Inside) ↔
      ResponseFits b (cstr (BufferReader.memory b beyond)) := by
  have hsession := session_copies_iff _ (zero_notMem_cstr (BufferReader.memory b beyond))
  unfold responseAccesses
  dsimp only
  generalize cstr (BufferReader.memory b beyond) = text at hsession ⊢
  rw [List.forall_mem_cons, look_inside_iff]
  by_cases hblank : occurs blankLine text = true
  · have hblank' := occurs_iff.mp hblank
    rw [hblank, Bool.not_true, if_neg (by simp), List.forall_mem_cons, look_inside_iff]
    by_cases hok : occurs (ascii "OK") text = true
    · have hok' := occurs_iff.mp hok
      rw [hok, Bool.not_true, if_neg (by simp), List.forall_mem_cons, look_inside_iff, hsession]
      constructor
      · rintro ⟨h₁, h₂, h₃, h₄⟩
        exact ⟨h₁, fun _ => h₂, fun _ _ => h₃, fun _ _ => h₄⟩
      · intro h
        exact ⟨h.blank, h.ok hblank', h.session hblank' hok', h.sessionId hblank' hok'⟩
    · rw [Bool.not_eq_true] at hok
      have hok' : ¬ ascii "OK" <:+: text := by
        rw [← occurs_iff, hok]
        exact Bool.false_ne_true
      rw [hok, Bool.not_false, if_pos rfl]
      constructor
      · rintro ⟨h₁, h₂, -⟩
        exact ⟨h₁, fun _ => h₂, fun _ h => absurd h hok', fun _ h => absurd h hok'⟩
      · intro h
        exact ⟨h.blank, h.ok hblank', by simp⟩
  · rw [Bool.not_eq_true] at hblank
    have hblank' : ¬ blankLine <:+: text := by
      rw [← occurs_iff, hblank]
      exact Bool.false_ne_true
    rw [hblank, Bool.not_false, if_pos rfl]
    constructor
    · rintro ⟨h₁, -⟩
      exact ⟨h₁, fun h => absurd h hblank', fun h => absurd h hblank', fun h => absurd h hblank'⟩
    · intro h
      exact ⟨h.blank, by simp⟩

end RtspResponse

/-! ## A read -/

/-- **What a read touches stays inside exactly when the peer's words fit, and what is looked for has
been received.** Every array and every search is listed before it is judged, in the order the parser
comes to it. The bytes behind the buffer are a parameter: `strstr` goes on until it finds its word
or a NUL, and only what was received is there for certain. -/
theorem readAccesses_inside_iff (mode : ConnectionMode) (r : RtspRequest) (b : BufferReader)
    (beyond : Bytes) :
    (∀ a ∈ readAccesses mode r b beyond, a.Inside) ↔ ReadFits mode r b beyond := by
  unfold readAccesses ReadFits
  by_cases hempty : b.readableBytes = 0
  · rw [if_pos hempty]
    simp [hempty]
  · rw [if_neg hempty]
    cases mode with
    | rtspServer =>
      dsimp only
      rw [RtspRequest.requestAccesses_inside_iff]
      exact ⟨fun h _ => h, fun h => h hempty⟩
    | rtspPusher =>
      dsimp only
      rw [RtspResponse.responseAccesses_inside_iff]
      exact ⟨fun h _ => h, fun h => h hempty⟩

/-- A new request; the source gives the first three fields no value. -/
def newRequest : RtspRequest :=
  ⟨.none, .channel0, .rtpOverTcp, [], [], [], .parseRequestLine⟩

/-- A fresh buffer holds what its first read brought. -/
theorem read_new (chunk : Chunk) :
    ∃ b, BufferReader.new.read chunk = some b ∧ b.readable = chunk.bytes := by
  obtain ⟨b, hb⟩ := BufferReader.read_isSome chunk Rewound.new.canRead
  refine ⟨b, hb, ?_⟩
  rw [BufferReader.readable_read hb, BufferReader.readable_new, List.nil_append]

/-- A first word of 64 bytes does not fit `method[64]`; and of a response that has only begun,
`strstr` looks at more than was received. -/
theorem readAccesses_outside :
    (∃ chunk b, BufferReader.new.read chunk = some b ∧
      ¬ ∀ a ∈ readAccesses .rtspServer newRequest b [], a.Inside) ∧
    (∃ chunk b, BufferReader.new.read chunk = some b ∧
      ¬ ∀ a ∈ readAccesses .rtspPusher newRequest b [], a.Inside) := by
  constructor
  · let line : Bytes := List.replicate 64 65 ++ ascii " x y"
    obtain ⟨b, hread, hb⟩ := read_new ⟨line ++ crlf, by decide, by decide⟩
    refine ⟨_, b, hread, fun hinside => ?_⟩
    have hfits := (readAccesses_inside_iff _ _ _ _).mp hinside
    have hne : b.readableBytes ≠ 0 := by
      rw [← b.length_readable, hb]
      decide
    have hhead : b.readable.head? ≠ some 36 := by
      rw [hb]
      decide
    have hcrlf : b.findFirstCrlf = some 68 := by
      unfold BufferReader.findFirstCrlf
      rw [hb]
      decide +kernel
    have hline := hfits hne hhead rfl 68 hcrlf
    rw [hb] at hline
    have hlong : (firstWord (cstr ((line ++ crlf).take 68))).length = 64 := by decide +kernel
    exact absurd hline.method (by rw [hlong]; decide)
  · obtain ⟨b, hread, hb⟩ := read_new ⟨ascii "RTSP/1.0 2", by decide, by decide⟩
    refine ⟨_, b, hread, fun hinside => ?_⟩
    have hfits := (readAccesses_inside_iff _ _ _ _).mp hinside
    have hne : b.readableBytes ≠ 0 := by
      rw [← b.length_readable, hb]
      decide
    have hblank := (hfits hne).blank
    unfold Received at hblank
    rw [hb, ← occurs_iff] at hblank
    exact absurd hblank (by decide +kernel)

end Maixii.Xop
