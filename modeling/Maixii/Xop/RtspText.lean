import Maixii.Lib.Lines
import Maixii.Xop.RtspReader

/-!
# `Xop/RtspText.lean`: what a client writes, and what the parser makes of it

A `Request` is a request as a client means it: a method, a URL, a `CSeq` and other header lines.
`Request.text` is its bytes. The lemmas say what each part of the parser makes of each part of the
text: the request line gives the method and the URL (`parseRequestLine_line`), a run of header
lines with the `CSeq` in it gives the number (`cseqOf_headers`), and whether the request is
complete depends on that run only (`completes`, `parseHeadersLine_eq`).

The parser knows less than RFC 2326. `Request.plain` is what it takes for granted: `CSeq` is
spelled like that and not mentioned before, and the URL fits.
-/

set_option autoImplicit false

namespace Maixii.Xop

open Maixii.Lib Maixii.Net

/-! ## The text of a request -/

/-- ASCII letters to lower case. -/
def lower (b : UInt8) : UInt8 := if 65 ≤ b && b ≤ 90 then b + 32 else b

/-- A request of the methods the server knows, with the header lines before and after its
`CSeq`. -/
structure Request where
  method : Method
  url : Bytes
  before : List Bytes
  /-- The name `CSeq`, upper and lower case as the client likes. -/
  name : Bytes
  gap : Bytes
  cseq : Nat
  after : List Bytes
  method_known : method ≠ .rtcp ∧ method ≠ .none
  url_word : url ≠ [] ∧ ∀ b ∈ url, isSpace b = false ∧ b ≠ 0
  name_cseq : name.map lower = ascii "cseq"
  gap_blank : ∀ b ∈ gap, b = 32 ∨ b = 9
  lines_clean : ∀ l ∈ before ++ after, l ≠ [] ∧ CleanLine l ∧ (0 : UInt8) ∉ l

namespace Request

def version : Bytes := ascii "RTSP/1.0"

def line (q : Request) : Bytes := q.method.toBytes ++ 32 :: q.url ++ 32 :: version

def cseqLine (q : Request) : Bytes := q.name ++ 58 :: q.gap ++ decimal q.cseq

def headers (q : Request) : List Bytes := q.before ++ q.cseqLine :: q.after

/-- All the lines; the last one is empty. -/
def lines (q : Request) : List Bytes := q.line :: q.headers ++ [[]]

def text (q : Request) : Bytes := unlines q.lines

/-- What the parser takes for granted. -/
def plain (q : Request) : Bool :=
  decide (q.name = ascii "CSeq") && q.before.all (fun l => (findFirst (ascii "CSeq") l).isNone) &&
    decide (q.cseq < 2 ^ 32) && startsWith (ascii "rtsp://") q.url && decide (q.url.length < 512) &&
    match RtspRequest.parseUrl (q.url.drop 7) with
      | some (some _) => true
      | _ => false

/-- Address, port and suffix. -/
def place (q : Request) : Bytes × Nat × Bytes :=
  ((RtspRequest.parseUrl (q.url.drop 7)).getD none).getD ([], 0, [])

/-- What the request line leaves in `request_line_param_`. -/
def lineParam (q : Request) : Params LineKey :=
  [(.url, q.url, 0), (.urlIp, q.place.1, 0), (.urlPort, [], q.place.2.1),
    (.urlSuffix, q.place.2.2, 0), (.version, version, 0), (.method, q.method.toBytes, 0)]

end Request

/-- A request for `rtsp://h/live` with these headers behind its `CSeq`. -/
def Request.live (method : Method) (cseq : Nat) (after : List Bytes)
    (known : method ≠ .rtcp ∧ method ≠ .none)
    (clean : ∀ l ∈ after, l ≠ [] ∧ CleanLine l ∧ (0 : UInt8) ∉ l) : Request where
  method := method
  url := ascii "rtsp://h/live"
  before := []
  name := ascii "CSeq"
  gap := [32]
  cseq := cseq
  after := after
  method_known := known
  url_word := ⟨by decide, forall_mem_of_all (by decide)⟩
  name_cseq := by decide
  gap_blank := forall_mem_of_all (by decide)
  lines_clean := by simpa using clean

/-! ## The request line -/

/-- Every byte of the text is above NUL and no white space. -/
def Visible (s : Bytes) : Prop := ∀ b ∈ s, isSpace b = false ∧ b ≠ 0

theorem visible_method (m : Method) : Visible m.toBytes := by
  apply forall_mem_of_all
  cases m <;> decide

theorem visible_version : Visible Request.version := by
  apply forall_mem_of_all
  decide

theorem Visible.no_nul {s : Bytes} (h : Visible s) : (0 : UInt8) ∉ s := fun hm => (h 0 hm).2 rfl

theorem Visible.clean {s : Bytes} (h : Visible s) : CleanLine s :=
  ⟨fun hm => absurd (h 13 hm).1 (by decide), fun hm => absurd (h 10 hm).1 (by decide)⟩

theorem toBytes_ne_nil (m : Method) : m.toBytes ≠ [] := by
  cases m <;> decide

theorem methodOf_toBytes {m : Method} (h : m ≠ .rtcp ∧ m ≠ .none) :
    RtspRequest.methodOf m.toBytes = some m := by
  cases m <;> first | rfl | exact absurd rfl h.1 | exact absurd rfl h.2

/-- Three words with a blank between them. -/
theorem scan_line {a b c : Bytes} (ha : Visible a) (hb : Visible b) (hc : Visible c) (ha' : a ≠ [])
    (hb' : b ≠ []) (hc' : c ≠ []) :
    sscanf (a ++ 32 :: b ++ 32 :: c) RtspRequest.lineFormat = [.text a, .text b, .text c] := by
  have hnul : (0 : UInt8) ∉ a ++ 32 :: b ++ 32 :: c := by
    simp only [List.mem_append, List.mem_cons, not_or]
    exact ⟨⟨ha.no_nul, by decide, hb.no_nul⟩, by decide, hc.no_nul⟩
  have hblank : ∀ x ∈ [(32 : UInt8)], isSpace x = true := forall_mem_of_all (by decide)
  have hstop : ∀ {w s : Bytes}, Visible w → w ≠ [] → Stops isSpace (w ++ s) := by
    intro w s hw hne
    cases w with
    | nil => exact absurd rfl hne
    | cons x w => exact stops_cons (hw x List.mem_cons_self).1
  have hsp : ∀ s : Bytes, Stops (fun x => !isSpace x) (32 :: s) := fun s => stops_cons (by decide)
  rw [sscanf, cstr_of_no_nul hnul, RtspRequest.lineFormat]
  have e₁ : a ++ 32 :: b ++ 32 :: c = [] ++ a ++ 32 :: (b ++ 32 :: c) := by simp
  have e₂ : (32 :: (b ++ 32 :: c) : Bytes) = [32] ++ (b ++ 32 :: c) := rfl
  have e₃ : b ++ 32 :: c = [] ++ b ++ 32 :: c := by simp
  have e₄ : (32 :: c : Bytes) = [32] ++ (c ++ []) := by simp
  have e₅ : c ++ [] = [] ++ c ++ [] := by simp
  rw [e₁, scan_word (by simp) ha' (fun x hx => (ha x hx).1) (hsp _), e₂,
    scan_space hblank (hstop hb hb'), e₃, scan_word (by simp) hb' (fun x hx => (hb x hx).1) (hsp _),
    e₄, scan_space hblank (hstop hc hc'), e₅,
    scan_word (by simp) hc' (fun x hx => (hc x hx).1) stops_nil]
  rfl

namespace Request

theorem plain_spec {q : Request} (h : q.plain = true) :
    q.name = ascii "CSeq" ∧ (∀ l ∈ q.before, findFirst (ascii "CSeq") l = none) ∧
      q.cseq < 2 ^ 32 ∧ startsWith (ascii "rtsp://") q.url = true ∧ q.url.length < 512 ∧
      RtspRequest.parseUrl (q.url.drop 7) = some (some q.place) := by
  simp only [plain, Bool.and_eq_true, decide_eq_true_eq, List.all_eq_true, Option.isNone_iff_eq_none]
    at h
  obtain ⟨⟨⟨⟨⟨h1, h2⟩, h3⟩, h4⟩, h5⟩, h6⟩ := h
  refine ⟨h1, h2, h3, h4, h5, ?_⟩
  unfold place
  split at h6
  · rename_i x hx
    rw [hx]
    rfl
  · simp at h6

theorem line_clean (q : Request) : CleanLine q.line := by
  have hm := (visible_method q.method).clean
  have hu := Visible.clean q.url_word.2
  have hv := visible_version.clean
  simp only [CleanLine, line, List.mem_append, List.mem_cons, not_or]
  exact ⟨⟨⟨hm.1, by decide, hu.1⟩, by decide, hv.1⟩, ⟨hm.2, by decide, hu.2⟩, by decide, hv.2⟩

/-- **The request line.** -/
theorem parseRequestLine_line {q : Request} {r : RtspRequest} (h : q.plain = true)
    (hr : r.requestLineParam = []) :
    r.parseRequestLine q.line = some (true, { r with
      method := q.method, requestLineParam := q.lineParam, state := .parseHeadersLine }) := by
  obtain ⟨-, -, -, hrtsp, hlen, hurl⟩ := plain_spec h
  have hscan := scan_line (visible_method q.method) q.url_word.2 visible_version
    (toBytes_ne_nil q.method) q.url_word.1 (by decide)
  have hmlen : q.method.toBytes.length < 64 := by
    cases q.method <;> decide
  have hfits : RtspRequest.fits [.text q.method.toBytes, .text q.url, .text version] [64, 512, 64] =
      true := by
    simp [RtspRequest.fits, hmlen, hlen]
    decide
  unfold RtspRequest.parseRequestLine
  rw [line, hscan]
  simp only [hfits, Bool.not_true, Bool.false_eq_true, if_false, methodOf_toBytes q.method_known,
    hrtsp, hurl, hr]
  rfl

end Request

/-! ## The headers -/

/-- What `ParseTransport` finds in the headers: a mode without numbers, or with. -/
inductive TransportRead
  | failed (mode : Option TransportMode)
  | found (mode : TransportMode) (first second : Nat)
  deriving DecidableEq, Repr

/-- `ParseTransport` without the parser. -/
def readTransport (message : Bytes) : TransportRead :=
  match findFirst (ascii "Transport") message with
  | none => .failed none
  | some _ =>
      match findFirst (ascii "RTP/AVP/TCP") message with
      | some pos =>
          match sscanf (message.drop pos) RtspRequest.pairFormat with
          | [.num rtp, .num rtcp] => .found .rtpOverTcp rtp rtcp
          | _ => .failed (some .rtpOverTcp)
      | none =>
          match findFirst (ascii "RTP/AVP") message with
          | none => .failed none
          | some pos =>
              if (findFirst (ascii "unicast") (message.drop pos)).isSome then
                match sscanf (message.drop pos) RtspRequest.pairFormat with
                | [.num rtp, .num rtcp] => .found .rtpOverUdp rtp rtcp
                | _ => .failed (some .rtpOverUdp)
              else if (findFirst (ascii "multicast") (message.drop pos)).isSome then
                .found .rtpOverMulticast 0 0
              else .failed none

/-- The keys under which the numbers of a mode are kept. -/
def TransportMode.keys : TransportMode → HeaderKey × HeaderKey
  | .rtpOverTcp => (.rtpChannel, .rtcpChannel)
  | .rtpOverUdp | .rtpOverMulticast => (.rtpPort, .rtcpPort)

/-- Whether the headers make a request of this method complete. -/
def completes (m : Method) (message : Bytes) : Bool :=
  match m with
  | .options | .teardown | .getParameter => true
  | .describe => RtspRequest.parseAccept message
  | .setup => match readTransport message with
      | .found _ _ _ => true
      | .failed _ => false
  | .play => RtspRequest.parseSessionId message
  | .rtcp | .none => false

/-- The channel that the URL of a SETUP names. -/
def channelOf (url : Bytes) : MediaChannelId :=
  if (findFirst (ascii "track1") url).isSome then .channel1 else .channel0

/-- **The `CSeq` is found**, however many other headers there are. -/
theorem cseqOf_headers {q : Request} {rest : Bytes} (h : q.plain = true)
    (hrest : Stops isDigit rest) :
    RtspRequest.cseqOf (unlines q.before ++ q.cseqLine ++ rest) = some q.cseq := by
  obtain ⟨hname, hbefore, hlt, -⟩ := Request.plain_spec h
  have hfind : findFirst (ascii "CSeq") (unlines q.before ++ (q.cseqLine ++ rest)) =
      some (unlines q.before).length := by
    refine findFirst_unlines (by decide) (by decide) hbefore ?_
    rw [Request.cseqLine, hname]
    exact ⟨58 :: q.gap ++ decimal q.cseq ++ rest, by simp⟩
  have hgap : ∀ b ∈ q.gap, isSpace b = true := by
    intro b hb
    rcases q.gap_blank b hb with rfl | rfl <;> rfl
  have hnul : (0 : UInt8) ∉ q.cseqLine := by
    rw [Request.cseqLine, hname]
    simp only [List.mem_append, List.mem_cons, not_or]
    refine ⟨⟨by decide, by decide, fun hg => ?_⟩, not_mem_decimal (by decide)⟩
    have := hgap 0 hg
    exact absurd this (by decide)
  have hstop : Stops isDigit (cstr rest) := by
    intro b s hs
    cases rest with
    | nil => simp [cstr] at hs
    | cons c rest =>
      by_cases hc : c = 0
      · rw [hc, cstr] at hs
        simp at hs
      · rw [cstr_cons hc] at hs
        obtain ⟨rfl, -⟩ := List.cons.inj hs
        exact hrest _ _ rfl
  have hscan : sscanf (q.cseqLine ++ rest) RtspRequest.numberFormat = [.num q.cseq] := by
    have e : q.name ++ 58 :: q.gap ++ decimal q.cseq ++ cstr rest =
        q.name ++ 58 :: (q.gap ++ (decimal q.cseq ++ cstr rest)) := by simp
    have e' : decimal q.cseq ++ cstr rest = [] ++ decimal q.cseq ++ cstr rest := rfl
    rw [sscanf, cstr_append hnul, RtspRequest.numberFormat, Request.cseqLine, e,
      scan_skipUntil (by rw [hname]; decide) (by rw [hname]; decide), scan_lit,
      scan_space hgap (stops_isSpace_decimal _ _), e',
      scan_unsigned (by simp) (Nat.lt_trans hlt (by decide)) hstop, Nat.mod_eq_of_lt hlt]
    rfl
  rw [RtspRequest.cseqOf, List.append_assoc, hfind]
  simp only [Option.map_some, List.drop_left, hscan]

/-- What `ParseTransport` does is what it finds. -/
theorem parseTransport_eq (r : RtspRequest) (message : Bytes) :
    r.parseTransport message = match readTransport message with
      | .failed mode => (false, { r with transport := mode.getD r.transport })
      | .found mode n₁ n₂ =>
          (true, { r with transport := mode }.emplacePair mode.keys.1 mode.keys.2 n₁ n₂) := by
  unfold RtspRequest.parseTransport readTransport
  cases findFirst (ascii "Transport") message with
  | none => rfl
  | some _ =>
    cases findFirst (ascii "RTP/AVP/TCP") message with
    | some pos =>
      dsimp only
      generalize sscanf (message.drop pos) RtspRequest.pairFormat = f
      rcases f with _ | ⟨_ | _, _ | ⟨_ | _, _ | ⟨_, _⟩⟩⟩ <;> rfl
    | none =>
      cases findFirst (ascii "RTP/AVP") message with
      | none => rfl
      | some pos =>
        dsimp only
        split
        · generalize sscanf (message.drop pos) RtspRequest.pairFormat = f
          rcases f with _ | ⟨_ | _, _ | ⟨_ | _, _ | ⟨_, _⟩⟩⟩ <;> rfl
        · split <;> rfl

/-- The response that `ParseAuthorization` finds; `none` is `substr` past the end. -/
def readAuthorization (message : Bytes) : Option Bytes :=
  match findFirst (ascii "Authorization") message with
  | none => some []
  | some _ =>
      match findFirst (ascii "response=") message with
      | none => some []
      | some pos =>
          if message.length < pos + 10 then none
          else
            let response := (message.drop (pos + 10)).take 32
            some (if response.length = 32 then response else [])

theorem parseAuthorization_eq (r : RtspRequest) (message : Bytes) :
    r.parseAuthorization message =
      (readAuthorization message).map fun a => { r with authResponse := a } := by
  unfold RtspRequest.parseAuthorization readAuthorization
  cases findFirst (ascii "Authorization") message with
  | none => rfl
  | some _ =>
    cases findFirst (ascii "response=") message with
    | none => rfl
    | some pos =>
      dsimp only
      split <;> rfl

/-- The parser between the request line and the end of the request: it knows the request line,
and the `CSeq` if some header lines have come in. -/
structure Inside (q : Request) (seen : Bool) (r : RtspRequest) : Prop where
  state : r.state = .parseHeadersLine
  method : r.method = q.method
  requestLineParam : r.requestLineParam = q.lineParam
  headerLineParam : r.headerLineParam = if seen then [(.cseq, [], q.cseq)] else []

/-- The parser when it has the whole request. -/
structure Ready (q : Request) (message : Bytes) (r : RtspRequest) : Prop where
  state : r.state = .gotAll
  method : r.method = q.method
  requestLineParam : r.requestLineParam = q.lineParam
  cseq : r.getCSeq = q.cseq
  auth : RtspRequest.authenticates q.method = true → readAuthorization message = some r.authResponse
  setup : q.method = .setup → r.channelId = channelOf q.url ∧ ∃ n₁ n₂,
    readTransport message = .found r.transport n₁ n₂ ∧
    RtspRequest.number (r.headerLineParam.find r.transport.keys.1) = n₁ ∧
    RtspRequest.number (r.headerLineParam.find r.transport.keys.2) = n₂

/-- A SETUP whose transport has been read. -/
theorem Ready.of_transport {q : Request} {message : Bytes} {r : RtspRequest} {mode : TransportMode}
    {n₁ n₂ : Nat} (h : Inside q true r) (hauth : RtspRequest.authenticates q.method = true →
      readAuthorization message = some r.authResponse)
    (hread : readTransport message = .found mode n₁ n₂) :
    Ready q message { ({ r with transport := mode }.emplacePair mode.keys.1 mode.keys.2 n₁ n₂
      ).parseMediaChannel with state := .gotAll } := by
  have hline : r.requestLineParam.find .url = some (q.url, 0) := by
    rw [h.requestLineParam]
    rfl
  have hchn : ({ r with transport := mode }.emplacePair mode.keys.1 mode.keys.2 n₁ n₂
      ).parseMediaChannel =
      { { r with transport := mode }.emplacePair mode.keys.1 mode.keys.2 n₁ n₂ with
        channelId := channelOf q.url } := by
    unfold RtspRequest.parseMediaChannel RtspRequest.emplacePair
    simp only [hline, channelOf]
    split <;> rfl
  rw [hchn]
  refine ⟨rfl, h.method, h.requestLineParam, ?_, hauth, fun _ => ⟨rfl, n₁, n₂, hread, ?_, ?_⟩⟩
  all_goals
    simp only [RtspRequest.getCSeq, RtspRequest.emplacePair, h.headerLineParam, if_true]
    cases mode <;> rfl

/-- **A run of header lines.** With the `CSeq` known or found, the request is complete or the
parser waits for more. -/
theorem parseHeadersLine_eq {q : Request} {r : RtspRequest} {seen : Bool} {message : Bytes}
    (h : Inside q seen r) (hc : seen = true ∨ RtspRequest.cseqOf message = some q.cseq)
    (ha : RtspRequest.authenticates q.method = true →
      (readAuthorization message).isSome = true) :
    ∃ r', r.parseHeadersLine message = some (true, r') ∧
      if completes q.method message then Ready q message r' else Inside q true r' := by
  -- The `CSeq` is in the map afterwards.
  obtain ⟨found, r₁, hr₁, hfound, hin⟩ : ∃ found r₁, r.parseCSeq message = (found, r₁) ∧
      (found = true ∨ seen = true) ∧ Inside q true r₁ := by
    unfold RtspRequest.parseCSeq
    cases hcs : RtspRequest.cseqOf message with
    | none =>
      rw [hcs] at hc
      obtain rfl : seen = true := by simpa using hc
      exact ⟨false, r, rfl, Or.inr rfl, h⟩
    | some n =>
      refine ⟨true, _, rfl, Or.inl rfl, h.state, h.method, h.requestLineParam, ?_⟩
      cases seen with
      | true =>
        simp only [h.headerLineParam]
        rfl
      | false =>
        obtain rfl : n = q.cseq := by simpa [hcs] using hc
        simp only [h.headerLineParam]
        rfl
  have hknown : (r₁.headerLineParam.find .cseq).isNone = false := by
    rw [hin.headerLineParam]
    rfl
  -- The authorization only sets its own field.
  obtain ⟨r₂, hr₂, hin₂, hauth₂⟩ : ∃ r₂, (if RtspRequest.authenticates r₁.method then
      r₁.parseAuthorization message else some r₁) = some r₂ ∧ Inside q true r₂ ∧
      (RtspRequest.authenticates q.method = true →
        readAuthorization message = some r₂.authResponse) := by
    split
    · rename_i hm
      rw [hin.method] at hm
      obtain ⟨a, ha⟩ := Option.isSome_iff_exists.mp (ha hm)
      refine ⟨{ r₁ with authResponse := a }, by rw [parseAuthorization_eq, ha]; rfl, ?_⟩
      exact ⟨⟨hin.state, hin.method, hin.requestLineParam, hin.headerLineParam⟩, fun _ => ha⟩
    · rename_i hm
      exact ⟨r₁, rfl, hin, fun hm' => absurd (hin.method ▸ hm') hm⟩
  refine ⟨r₂.parseMethodHeaders message, ?_, ?_⟩
  · unfold RtspRequest.parseHeadersLine
    simp only [hr₁, hknown, Bool.and_false, Bool.false_eq_true, if_false, hr₂]
    rfl
  · have hcseq : ∀ {ps : Params HeaderKey}, ps.find .cseq = r₂.headerLineParam.find .cseq →
        RtspRequest.number (ps.find .cseq) = q.cseq := by
      intro ps hps
      rw [hps, hin₂.headerLineParam]
      rfl
    have hready : q.method ≠ .setup → Ready q message { r₂ with state := .gotAll } := fun hs =>
      ⟨rfl, hin₂.method, hin₂.requestLineParam, hcseq rfl, hauth₂, fun hm => absurd hm hs⟩
    have hm := hin₂.method
    obtain ⟨m, chn, mode, auth, ps, hs, state⟩ := r₂
    dsimp only at hm
    rw [← hm]
    cases m with
    | options | teardown | getParameter => exact hready (by simp [← hm])
    | rtcp => exact absurd hm.symm q.method_known.1
    | none => exact absurd hm.symm q.method_known.2
    | describe =>
      rw [completes, RtspRequest.parseMethodHeaders]
      cases RtspRequest.parseAccept message with
      | true => exact hready (by simp [← hm])
      | false => exact hin₂
    | play =>
      rw [completes, RtspRequest.parseMethodHeaders]
      cases RtspRequest.parseSessionId message with
      | true => exact hready (by simp [← hm])
      | false => exact hin₂
    | setup =>
      rw [completes, RtspRequest.parseMethodHeaders, parseTransport_eq]
      cases hread : readTransport message with
      | failed mode => exact ⟨hin₂.state, hin₂.method, hin₂.requestLineParam, hin₂.headerLineParam⟩
      | found mode n₁ n₂ => exact Ready.of_transport hin₂ hauth₂ hread

/-! ## One read -/

/-- The parser between two requests. -/
structure Between (r : RtspRequest) : Prop where
  state : r.state = .parseRequestLine
  requestLineParam : r.requestLineParam = []
  headerLineParam : r.headerLineParam = []

theorem between_reset (r : RtspRequest) : Between r.reset := ⟨rfl, rfl, rfl⟩

/-- Bytes parsed, and nothing left over that the limit would discard. -/
theorem onRead_of_parse (charSigned : Bool) {x : RtspReader} {r : RtspRequest} {b : BufferReader}
    (hne : x.buffer.readable ≠ [])
    (hp : x.request.parseRequest x.buffer = some (true, r, b)) (hm : r.method ≠ .rtcp)
    (hm' : r.method ≠ .none) (hlen : b.readable.length ≤ maxRtspMessageSize) :
    onRead charSigned x = some ⟨true, if r.gotAll then some r else none,
      BufferReader.taken x.buffer b, [], [], ⟨if r.gotAll then r.reset else r, b⟩⟩ := by
  have h0 : x.buffer.readableBytes ≠ 0 := by
    rw [← BufferReader.length_readable]
    exact fun h => hne (List.eq_nil_of_length_eq_zero h)
  have hlen' : ¬ maxRtspMessageSize < b.readableBytes := by
    rw [← BufferReader.length_readable]
    omega
  unfold onRead handleRtspRequest
  rw [if_neg h0, hp]
  cases hg : r.gotAll <;> simp [hm, hm', hg, hlen']

/-- A run of header lines, up to the last CR LF there is. -/
theorem headersRound_eq {q : Request} {r : RtspRequest} {seen : Bool} {b : BufferReader}
    {message part : Bytes} (ret : Bool) (h : Inside q seen r)
    (hb : b.readable = message ++ crlf ++ part) (hpart : NoCrlf part)
    (hc : seen = true ∨ RtspRequest.cseqOf message = some q.cseq)
    (ha : RtspRequest.authenticates q.method = true →
      (readAuthorization message).isSome = true) :
    ∃ r' b', r.headersRound b ret = some (true, r', b') ∧ b'.readable = part ∧
      (part = [] → b'.writerIndex = 0) ∧
      if completes q.method message then Ready q message r' else Inside q true r' := by
  have hlast : b.findLastCrlf = some message.length := by
    rw [BufferReader.findLastCrlf, hb]
    exact findLast_crlf message hpart
  have htake : b.readable.take message.length = message := by
    rw [hb, List.append_assoc, List.take_left]
  obtain ⟨r', hr', hcase⟩ := parseHeadersLine_eq h hc ha
  have hleft : (b.retrieve (message.length + 2)).readable = part := by
    rw [BufferReader.readable_retrieve, hb]
    have hlen : (message ++ crlf).length = message.length + 2 := by simp [crlf]
    rw [← hlen, List.drop_left]
  refine ⟨r', b.retrieve (message.length + 2), ?_, hleft, fun hp => ?_, hcase⟩
  · simp only [RtspRequest.headersRound, hlast, htake, hr', Option.map_some]
  · exact BufferReader.writerIndex_retrieve (hleft.trans hp)

/-- **A request line**, and what came with it. -/
theorem parseRequest_line {q : Request} {r : RtspRequest} {b : BufferReader} {rest : Bytes}
    (h : Between r) (hq : q.plain = true) (hb : b.readable = q.line ++ crlf ++ rest) :
    ∃ r' b', Inside q false r' ∧ b'.readable = rest ∧
      r.parseRequest b = r'.headersRound b' true := by
  have hhead : b.readable.head? ≠ some 36 := by
    obtain ⟨m, ms, hm, hne⟩ : ∃ m ms, q.method.toBytes = m :: ms ∧ m ≠ 36 := by
      cases q.method <;> exact ⟨_, _, rfl, by decide⟩
    rw [hb, Request.line, hm]
    simpa using hne
  have hfirst : b.findFirstCrlf = some q.line.length := by
    rw [BufferReader.findFirstCrlf, hb]
    exact findFirst_crlf q.line_clean
  have htake : b.readable.take q.line.length = q.line := by
    rw [hb, List.append_assoc, List.take_left]
  have hlen : (q.line ++ crlf).length = q.line.length + 2 := by simp [crlf]
  refine ⟨{ r with
      method := q.method, requestLineParam := q.lineParam, state := .parseHeadersLine },
    b.retrieve (q.line.length + 2), ⟨rfl, rfl, rfl, h.headerLineParam⟩, ?_, ?_⟩
  · rw [BufferReader.readable_retrieve, hb, ← hlen, List.drop_left]
  · unfold RtspRequest.parseRequest
    rw [if_neg hhead, h.state]
    simp only [RtspRequest.requestLineRound, hfirst, htake,
      Request.parseRequestLine_line hq h.requestLineParam, Option.map_some, if_true]

end Maixii.Xop
