import Maixii.Lib.Scan
import Maixii.Net.BufferReader

/-!
# `Xop/RtspMessage.lean`: the request parser and the response texts

`xop/RtspMessage.{h,cpp}`, the server's half. `ParseRequest` is a two-state machine over the
receive buffer: it takes one line as the request line and then **everything up to the last CRLF
there is** as headers. The values it found live in two maps that are written with `emplace`, so
the first value of a key stays until `Reset`.

Two things a C++ program may do have no result here and are `none`: a `%s` or `%[` conversion
that writes past its array, and `substr` past the end of the string.
-/

set_option autoImplicit false

namespace Maixii.Xop

open Maixii.Lib Maixii.Net

/-- `RtspRequest::Method`. -/
inductive Method
  | options | describe | setup | play | teardown | getParameter | rtcp | none
  deriving DecidableEq, Repr

/-- `MethodToString`. -/
def Method.toBytes : Method → Bytes
  | .options => ascii "OPTIONS"
  | .describe => ascii "DESCRIBE"
  | .setup => ascii "SETUP"
  | .play => ascii "PLAY"
  | .teardown => ascii "TEARDOWN"
  | .getParameter => ascii "GET_PARAMETER"
  | .rtcp => ascii "RTCP"
  | .none => ascii "NONE"

/-- `TransportMode` of `rtp.h`. -/
inductive TransportMode
  | rtpOverTcp | rtpOverUdp | rtpOverMulticast
  deriving DecidableEq, Repr

/-- `MediaChannelId` of `media.h`. -/
inductive MediaChannelId
  | channel0 | channel1
  deriving DecidableEq, Repr

inductive ParseState
  | parseRequestLine | parseHeadersLine | gotAll
  deriving DecidableEq, Repr

/-- The keys of `request_line_param_`. -/
inductive LineKey
  | url | urlIp | urlPort | urlSuffix | version | method
  deriving DecidableEq, Repr

/-- The keys of `header_line_param_`. -/
inductive HeaderKey
  | cseq | rtpChannel | rtcpChannel | rtpPort | rtcpPort
  deriving DecidableEq, Repr

/-- `std::unordered_map<std::string, std::pair<std::string, uint32_t>>`. -/
abbrev Params (κ : Type) := List (κ × Bytes × Nat)

namespace Params

variable {κ : Type} [DecidableEq κ]

def find (ps : Params κ) (k : κ) : Option (Bytes × Nat) := ps.lookup k

/-- `emplace`: a key that is present keeps its value. -/
def emplace (ps : Params κ) (k : κ) (v : Bytes × Nat) : Params κ :=
  if (ps.find k).isSome then ps else ps ++ [(k, v)]

theorem find_emplace (ps : Params κ) (k j : κ) (v : Bytes × Nat) :
    (ps.emplace k v).find j =
      if j = k then some ((ps.find k).getD v) else ps.find j := by
  unfold emplace
  cases h : ps.find k with
  | some w =>
    simp only [Option.isSome_some, if_true, Option.getD_some]
    split
    · rename_i hj
      rw [hj, h]
    · rfl
  | none =>
    simp only [Option.isSome_none, Bool.false_eq_true, if_false, Option.getD_none]
    have hf : ∀ i, Params.find (ps ++ [(k, v)]) i =
        (ps.find i).or (if i = k then some v else none) := by
      intro i
      simp only [Params.find, List.lookup_append, List.lookup_cons, List.lookup_nil]
      by_cases hi : i = k
      · simp [hi]
      · have hb : (i == k) = false := by simpa using hi
        simp [hi, hb]
    rw [hf]
    split
    · rename_i hj
      rw [hj, h, Option.none_or]
    · rw [Option.or_none]

end Params

/-- `RtspRequest`. `method`, `channelId` and `transport` have no initial value in the source. -/
structure RtspRequest where
  method : Method
  channelId : MediaChannelId
  transport : TransportMode
  authResponse : Bytes
  requestLineParam : Params LineKey
  headerLineParam : Params HeaderKey
  state : ParseState
  deriving DecidableEq, Repr

/-- `strncmp(s, p, strlen(p)) == 0`. -/
def startsWith (p s : Bytes) : Bool := p.isPrefixOf s

namespace RtspRequest

def gotAll (r : RtspRequest) : Bool := r.state = .gotAll

def reset (r : RtspRequest) : RtspRequest :=
  { r with state := .parseRequestLine, requestLineParam := [], headerLineParam := [] }

/-! ## What the handlers ask for -/

def number (o : Option (Bytes × Nat)) : Nat := (o.map Prod.snd).getD 0

def text (o : Option (Bytes × Nat)) : Bytes := (o.map Prod.fst).getD []

def getCSeq (r : RtspRequest) : Nat := number (r.headerLineParam.find .cseq)

def getIp (r : RtspRequest) : Bytes := text (r.requestLineParam.find .urlIp)

def getRtspUrl (r : RtspRequest) : Bytes := text (r.requestLineParam.find .url)

def getRtspUrlSuffix (r : RtspRequest) : Bytes := text (r.requestLineParam.find .urlSuffix)

/-- The getter's return type is `uint8_t`. -/
def getRtpChannel (r : RtspRequest) : Nat := number (r.headerLineParam.find .rtpChannel) % 2 ^ 8

def getRtcpChannel (r : RtspRequest) : Nat := number (r.headerLineParam.find .rtcpChannel) % 2 ^ 8

def getRtpPort (r : RtspRequest) : Nat := number (r.headerLineParam.find .rtpPort) % 2 ^ 16

def getRtcpPort (r : RtspRequest) : Nat := number (r.headerLineParam.find .rtcpPort) % 2 ^ 16

/-! ## The request line -/

/-- Whether the text fields a scan assigned fit their arrays, terminator included. -/
def fits : List Field → List Nat → Bool
  | .text bs :: fs, size :: sizes => decide (bs.length < size) && fits fs sizes
  | .num _ :: fs, _ :: sizes => fits fs sizes
  | _, _ => true

/-- `"%s %s %s"`. -/
def lineFormat : List Directive := [.word, .space, .word, .space, .word]

/-- `"%[^:]:%hu/%s"`. -/
def portFormat : List Directive := [.until 58, .lit 58, .unsigned 16, .lit 47, .word]

/-- `"%[^/]/%s"`. -/
def pathFormat : List Directive := [.until 47, .lit 47, .word]

def methodOf (m : Bytes) : Option Method :=
  [Method.options, .describe, .setup, .play, .teardown, .getParameter].find? fun x =>
    x.toBytes = m

/-- The address, port and suffix of what follows `rtsp://`. The outer `none` is an overflow of
`ip[64]` or `suffix[64]`, the inner one a URL that neither pattern matches. -/
def parseUrl (rest : Bytes) : Option (Option (Bytes × Nat × Bytes)) :=
  let f₁ := sscanf rest portFormat
  if !fits f₁ [64, 0, 64] then none
  else match f₁ with
    | [.text ip, .num port, .text suffix] => some (some (ip, port, suffix))
    | _ =>
        let f₂ := sscanf rest pathFormat
        if !fits f₂ [64, 64] then none
        else match f₂ with
          | [.text ip, .text suffix] => some (some (ip, 554, suffix))
          | _ => some none

/-- `ParseRequestLine`. -/
def parseRequestLine (r : RtspRequest) (message : Bytes) : Option (Bool × RtspRequest) :=
  let f := sscanf message lineFormat
  if !fits f [64, 512, 64] then none
  else match f with
    | [.text method, .text url, .text version] =>
        match methodOf method with
        | none => some (false, { r with method := .none })
        | some m =>
            if !startsWith (ascii "rtsp://") url then some (false, { r with method := m })
            else match parseUrl (url.drop 7) with
              | none => none
              | some none => some (false, { r with method := m })
              | some (some (ip, port, suffix)) =>
                  some (true, { r with
                    method := m
                    requestLineParam :=
                      (((((r.requestLineParam.emplace .url (url, 0)).emplace .urlIp (ip, 0)
                        ).emplace .urlPort ([], port)).emplace .urlSuffix (suffix, 0)
                        ).emplace .version (version, 0)).emplace .method (method, 0)
                    state := .parseHeadersLine })
    | _ => some (true, r)

/-! ## The headers -/

/-- `"%*[^:]: %u"`. -/
def numberFormat : List Directive := [.skipUntil 58, .lit 58, .space, .unsigned 32]

/-- `"%*[^;];%*[^;];%*[^=]=%hu-%hu"`. -/
def pairFormat : List Directive :=
  [.skipUntil 59, .lit 59, .skipUntil 59, .lit 59, .skipUntil 61, .lit 61, .unsigned 16,
    .lit 45, .unsigned 16]

/-- The number `ParseCSeq` reads, if the name is there at all. -/
def cseqOf (message : Bytes) : Option Nat :=
  (findFirst (ascii "CSeq") message).map fun pos =>
    match sscanf (message.drop pos) numberFormat with
    | [.num n] => n
    | _ => 0

def parseCSeq (r : RtspRequest) (message : Bytes) : Bool × RtspRequest :=
  match cseqOf message with
  | some n => (true, { r with headerLineParam := r.headerLineParam.emplace .cseq ([], n) })
  | none => (false, r)

def parseAccept (message : Bytes) : Bool :=
  (findLast (ascii "Accept") message).isSome && (findLast (ascii "sdp") message).isSome

def parseSessionId (message : Bytes) : Bool :=
  match findFirst (ascii "Session") message with
  | some pos =>
      match sscanf (message.drop pos) numberFormat with
      | [.num _] => true
      | _ => false
  | none => false

/-- `emplace` of a pair of numbers under two keys. -/
def emplacePair (r : RtspRequest) (k₁ k₂ : HeaderKey) (n₁ n₂ : Nat) : RtspRequest :=
  { r with headerLineParam := (r.headerLineParam.emplace k₁ ([], n₁)).emplace k₂ ([], n₂) }

/-- `ParseTransport`. The transport mode is assigned before the numbers are read and stays when
they cannot be. -/
def parseTransport (r : RtspRequest) (message : Bytes) : Bool × RtspRequest :=
  match findFirst (ascii "Transport") message with
  | none => (false, r)
  | some _ =>
      match findFirst (ascii "RTP/AVP/TCP") message with
      | some pos =>
          let r := { r with transport := .rtpOverTcp }
          match sscanf (message.drop pos) pairFormat with
          | [.num rtp, .num rtcp] => (true, r.emplacePair .rtpChannel .rtcpChannel rtp rtcp)
          | _ => (false, r)
      | none =>
          match findFirst (ascii "RTP/AVP") message with
          | none => (false, r)
          | some pos =>
              if (findFirst (ascii "unicast") (message.drop pos)).isSome then
                let r := { r with transport := .rtpOverUdp }
                match sscanf (message.drop pos) pairFormat with
                | [.num rtp, .num rtcp] => (true, r.emplacePair .rtpPort .rtcpPort rtp rtcp)
                | _ => (false, r)
              else if (findFirst (ascii "multicast") (message.drop pos)).isSome then
                (true, { r with transport := .rtpOverMulticast }.emplacePair .rtpPort .rtcpPort 0 0)
              else (false, r)

def parseMediaChannel (r : RtspRequest) : RtspRequest :=
  match r.requestLineParam.find .url with
  | some (url, _) =>
      if (findFirst (ascii "track1") url).isSome then { r with channelId := .channel1 }
      else { r with channelId := .channel0 }
  | none => { r with channelId := .channel0 }

/-- `ParseAuthorization`: `substr(pos + 10, 32)` skips `response=` and the quote. -/
def parseAuthorization (r : RtspRequest) (message : Bytes) : Option RtspRequest :=
  match findFirst (ascii "Authorization") message with
  | none => some { r with authResponse := [] }
  | some _ =>
      match findFirst (ascii "response=") message with
      | none => some { r with authResponse := [] }
      | some pos =>
          if message.length < pos + 10 then none
          else
            let response := (message.drop (pos + 10)).take 32
            some { r with authResponse := if response.length = 32 then response else [] }

/-- The part of `ParseHeadersLine` that depends on the method: is the request complete? -/
def parseMethodHeaders (r : RtspRequest) (message : Bytes) : RtspRequest :=
  match r.method with
  | .options | .teardown | .getParameter => { r with state := .gotAll }
  | .describe => if parseAccept message then { r with state := .gotAll } else r
  | .setup =>
      match r.parseTransport message with
      | (true, r) => { r.parseMediaChannel with state := .gotAll }
      | (false, r) => r
  | .play => if parseSessionId message then { r with state := .gotAll } else r
  | .rtcp | .none => r

def authenticates : Method → Bool
  | .describe | .setup | .play => true
  | _ => false

/-- `ParseHeadersLine`. -/
def parseHeadersLine (r : RtspRequest) (message : Bytes) : Option (Bool × RtspRequest) :=
  let (found, r) := r.parseCSeq message
  if !found && (r.headerLineParam.find .cseq).isNone then some (false, r)
  else
    let auth := if authenticates r.method then r.parseAuthorization message else some r
    auth.map fun r => (true, r.parseMethodHeaders message)

/-! ## The machine -/

/-- The `kParseHeadersLine` round of the loop in `ParseRequest`; `ret` is what it returns when
there is no CRLF. -/
def headersRound (r : RtspRequest) (b : BufferReader) (ret : Bool) :
    Option (Bool × RtspRequest × BufferReader) :=
  match b.findLastCrlf with
  | none => some (ret, r, b)
  | some lastCrlf =>
      (r.parseHeadersLine (b.readable.take lastCrlf)).map fun (ret, r) =>
        (ret, r, b.retrieve (lastCrlf + 2))

/-- The `kParseRequestLine` round. -/
def requestLineRound (r : RtspRequest) (b : BufferReader) :
    Option (Bool × RtspRequest × BufferReader) :=
  match b.findFirstCrlf with
  | none => some (true, r, b)
  | some firstCrlf =>
      (r.parseRequestLine (b.readable.take firstCrlf)).map fun (ret, r) =>
        (ret, r, b.retrieve (firstCrlf + 2))

/-- `ParseRequest`. The loop goes round again only after a request line. -/
def parseRequest (r : RtspRequest) (b : BufferReader) :
    Option (Bool × RtspRequest × BufferReader) :=
  if b.readable.head? = some 36 then some (true, { r with method := .rtcp }, b)
  else match r.state with
    | .parseRequestLine =>
        match r.requestLineRound b with
        | none => none
        | some (ret, r, b) =>
            if r.state = .parseHeadersLine then r.headersRound b ret else some (ret, r, b)
    | .parseHeadersLine => r.headersRound b true
    | .gotAll => some (true, r, b.retrieveAll)

/-- What the parser makes of a request for `rtsp://h/live`, or for a track of it. -/
def forLive (method : Method) (transport : TransportMode) (chn : MediaChannelId)
    (headers : Params HeaderKey) : RtspRequest where
  method := method
  channelId := chn
  transport := transport
  authResponse := []
  requestLineParam :=
    let suffix := if method = .setup then
        if chn = .channel0 then ascii "live/track0" else ascii "live/track1"
      else ascii "live"
    [(.url, ascii "rtsp://h/" ++ suffix, 0), (.urlIp, ascii "h", 0), (.urlPort, [], 554),
      (.urlSuffix, suffix, 0), (.version, ascii "RTSP/1.0", 0), (.method, method.toBytes, 0)]
  headerLineParam := headers
  state := .gotAll

/-! ## The responses -/

/-- `%d` of a `uint32_t`. -/
def signedDecimal (n : Nat) : Bytes :=
  if n < 2 ^ 31 then decimal n else 45 :: decimal (2 ^ 32 - n)

/-- A response: the status line, `CSeq`, further header lines, an empty line and a body. -/
def response (status cseq : Bytes) (headers : List Bytes) (body : Bytes) : Bytes :=
  ascii "RTSP/1.0 " ++ status ++ crlf ++ ascii "CSeq: " ++ cseq ++ crlf ++
    headers.flatMap (· ++ crlf) ++ crlf ++ body

/-- `snprintf(buf, size, ..)` and then `strlen(buf)`. -/
def snprintf (size : Nat) (s : Bytes) : Bytes := cstr (s.take (size - 1))

def ok : Bytes := ascii "200 OK"

/-- `Session: %u`. -/
def sessionLine (sessionId : Nat) : Bytes := ascii "Session: " ++ decimal sessionId

def buildOptionRes (r : RtspRequest) : Bytes :=
  snprintf 2048 (response ok (decimal r.getCSeq)
    [ascii "Public: OPTIONS, DESCRIBE, SETUP, TEARDOWN, PLAY"] [])

def buildDescribeRes (r : RtspRequest) (sdp : Bytes) : Bytes :=
  snprintf 4096 (response ok (decimal r.getCSeq)
    [ascii "Content-Length: " ++ decimal (cstr sdp).length,
      ascii "Content-Type: application/sdp"] (cstr sdp))

def buildSetupMulticastRes (r : RtspRequest) (multicastIp : Bytes) (port sessionId : Nat) : Bytes :=
  snprintf 4096 (response ok (decimal r.getCSeq)
    [ascii "Transport: RTP/AVP;multicast;destination=" ++ cstr multicastIp ++ ascii ";source=" ++
        cstr r.getIp ++ ascii ";port=" ++ decimal port ++ ascii "-0;ttl=255",
      sessionLine sessionId] [])

def buildSetupUdpRes (r : RtspRequest) (rtpPort rtcpPort sessionId : Nat) : Bytes :=
  snprintf 4096 (response ok (decimal r.getCSeq)
    [ascii "Transport: RTP/AVP;unicast;client_port=" ++ decimal r.getRtpPort ++ [45] ++
        decimal r.getRtcpPort ++ ascii ";server_port=" ++ decimal rtpPort ++ [45] ++
        decimal rtcpPort,
      sessionLine sessionId] [])

def buildSetupTcpRes (r : RtspRequest) (rtpChannel rtcpChannel sessionId : Nat) : Bytes :=
  snprintf 4096 (response ok (decimal r.getCSeq)
    [ascii "Transport: RTP/AVP/TCP;unicast;interleaved=" ++ decimal rtpChannel ++ [45] ++
        decimal rtcpChannel,
      sessionLine sessionId] [])

/-- With `rtp_info == nullptr`, which is what the server passes. -/
def buildPlayRes (r : RtspRequest) (sessionId : Nat) : Bytes :=
  snprintf 2048 (response ok (signedDecimal r.getCSeq)
    [ascii "Range: npt=0.000-", sessionLine sessionId ++ ascii "; timeout=60"] [])

def buildTeardownRes (r : RtspRequest) (sessionId : Nat) : Bytes :=
  snprintf 2048 (response ok (signedDecimal r.getCSeq) [sessionLine sessionId] [])

def buildGetParamterRes (r : RtspRequest) (sessionId : Nat) : Bytes :=
  snprintf 2048 (response ok (signedDecimal r.getCSeq) [sessionLine sessionId] [])

def buildNotFoundRes (r : RtspRequest) : Bytes :=
  snprintf 4096 (response (ascii "404 Stream Not Found") (decimal r.getCSeq) [] [])

def buildServerErrorRes (r : RtspRequest) : Bytes :=
  snprintf 4096 (response (ascii "500 Internal Server Error") (decimal r.getCSeq) [] [])

def buildUnsupportedRes (r : RtspRequest) : Bytes :=
  snprintf 4096 (response (ascii "461 Unsupported transport") (signedDecimal r.getCSeq) [] [])

def buildUnauthorizedRes (r : RtspRequest) (realm nonce : Bytes) : Bytes :=
  snprintf 4096 (response (ascii "401 Unauthorized") (signedDecimal r.getCSeq)
    [ascii "WWW-Authenticate: Digest realm=\"" ++ cstr realm ++ ascii "\", nonce=\"" ++
      cstr nonce ++ ascii "\""] [])

end RtspRequest

end Maixii.Xop
