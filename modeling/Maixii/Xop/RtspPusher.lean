import Maixii.Xop.Answered
import Maixii.Xop.MediaFlow

/-!
# `Xop/RtspPusher.lean`: a connection that pushes

`RtspConnection` in its `RTSP_PUSHER` mode, with `RtspResponse` of `xop/RtspMessage.cpp`. The
roles are swapped: the connection asks, and a response to what it asked last makes it ask the
next thing. What it asked last is `method_`; there is no other state of the handshake, apart from
the channels that are set up.

`ParseResponse` works on C strings. `strstr` starts at `Peek()` and knows nothing of the writer
index: it sees whatever the buffer holds up to the first NUL (`peekString`). And `RetrieveUntil`
is given a string literal, which does not lie in the buffer at all.
-/

set_option autoImplicit false

namespace Maixii.Xop

open Maixii.Lib Maixii.Net

/-! ## The receive buffer, as a C string -/

/-- The C string at `Peek()`: the buffer up to the first NUL. `none` when there is none, and
`strstr` leaves the buffer. -/
def BufferReader.peekString (b : BufferReader) : Option Bytes :=
  let rest := b.buffer.drop b.readerIndex
  if (0 : UInt8) ∈ rest then some (cstr rest) else none

/-- Where a pusher's receive buffer is between two reads: at its beginning, and with a NUL behind
everything a read can still bring. -/
structure Rewound (b : BufferReader) : Prop where
  reader : b.readerIndex = 0
  writer : b.writerIndex ≤ maxRtspMessageSize
  size : b.buffer.length = 2048 ∧ b.writerIndex = 0 ∨ b.buffer.length = 6144
  nul : b.buffer.getLast? = some 0

theorem Rewound.new : Rewound BufferReader.new := by
  refine ⟨rfl, by decide, Or.inl ⟨?_, rfl⟩, ?_⟩
  · exact List.length_replicate
  · exact List.getLast?_replicate

theorem Rewound.canRead {b : BufferReader} (h : Rewound b) : b.canRead = true := by
  have hle : b.buffer.length ≤ maxBufferSize := by
    rcases h.size with ⟨hs, -⟩ | hs <;> rw [hs] <;> decide
  simp [BufferReader.canRead, hle]

/-- The buffer a read fills, and its last byte. -/
theorem Rewound.grown {b : BufferReader} (h : Rewound b) :
    b.grown.length = 6144 ∧ b.grown.getLast? = some 0 := by
  have hw := h.writer
  unfold maxRtspMessageSize at hw
  unfold BufferReader.grown BufferReader.writableBytes maxBytesPerRead
  rcases h.size with ⟨hs, hz⟩ | hs
  · rw [if_pos (by omega), List.length_append, List.length_replicate, hs]
    refine ⟨rfl, ?_⟩
    rw [List.getLast?_append, List.getLast?_replicate]
    rfl
  · rw [if_neg (by omega)]
    exact ⟨hs, h.nul⟩

/-- **What a read leaves**: what was read stands at the beginning, and behind it whatever the
buffer held there before, with a NUL in it. -/
theorem Rewound.read {b : BufferReader} {chunk : Chunk} (h : Rewound b)
    (hlen : (b.readable ++ chunk.bytes).length < 6144) :
    ∃ b' stale, b.read chunk = some b' ∧ b'.readerIndex = 0 ∧
      b'.writerIndex = (b.readable ++ chunk.bytes).length ∧
      b'.buffer = b.readable ++ chunk.bytes ++ stale ∧ (0 : UInt8) ∈ stale ∧
      b'.buffer.length = 6144 ∧ b'.buffer.getLast? = some 0 := by
  obtain ⟨b', hb'⟩ := BufferReader.read_isSome chunk h.canRead
  obtain ⟨hg, hl⟩ := h.grown
  have hread : b.readable = b.buffer.take b.writerIndex := by
    rw [BufferReader.readable, h.reader, List.drop_zero]
  have hwr : b.readable.length = b.writerIndex := by
    rw [hread, List.length_take, Nat.min_eq_left b.writer_le]
  have hroom := b.room
  have heq := hb'
  simp only [BufferReader.read, h.canRead, if_true, Option.some.injEq] at heq
  -- What is not written over keeps its last byte.
  have hstale : (b.grown.drop (b.writerIndex + chunk.bytes.length)).getLast? = some 0 := by
    rw [List.getLast?_drop, if_neg, hl]
    rw [List.length_append, hwr] at hlen
    omega
  refine ⟨b', b.grown.drop (b.writerIndex + chunk.bytes.length), hb', ?_⟩
  rw [← heq]
  refine ⟨h.reader, ?_, ?_, List.mem_of_getLast? hstale, ?_, ?_⟩
  · rw [List.length_append, hwr]
  · show b.grown.take b.writerIndex ++ chunk.bytes ++ _ = _
    rw [BufferReader.grown_take, hread]
  · simp only [List.length_append, List.length_take, List.length_drop]
    have := chunk.length_le
    omega
  · rw [List.getLast?_append, hstale]
    rfl

/-- What a C string function sees of it. -/
theorem peekString_read {b : BufferReader} {s stale : Bytes} (hr : b.readerIndex = 0)
    (hb : b.buffer = s ++ stale) (hn : (0 : UInt8) ∈ stale) :
    BufferReader.peekString b = some (cstr (s ++ stale)) := by
  simp [BufferReader.peekString, hr, hb, hn]

/-- A literal outside of the buffer is farther away than what is readable, so `RetrieveUntil`
takes everything. -/
theorem retrieve_all {b : BufferReader} {literal : Nat} (h : b.readableBytes ≤ literal) :
    b.retrieve literal = b.retrieveAll := by
  unfold BufferReader.retrieve
  split
  · rename_i hle
    have := b.reader_le
    unfold BufferReader.readableBytes at h hle
    rw [if_pos (by omega)]
  · rfl

/-! ## `RtspResponse` -/

/-- `RtspResponse::Method`. -/
inductive ResponseMethod
  | options | describe | announce | setup | record | rtcp | none
  deriving DecidableEq, Repr

/-- `RtspResponse`. `method` has no initial value in the source. -/
structure RtspResponse where
  method : ResponseMethod
  cseq : UInt32
  userAgent : Bytes
  rtspUrl : Bytes
  session : Bytes
  deriving DecidableEq, Repr

namespace RtspResponse

/-- `"\r\n\r\n"`. -/
def blankLine : Bytes := crlf ++ crlf

/-- `"%*[^:]: %s"`. -/
def sessionFormat : List Directive := [.skipUntil 58, .lit 58, .space, .word]

/-- `char session_id[50]`. -/
def sessionSize : Nat := 50

/-- What `sscanf` assigns, if `strstr` finds a `Session`. -/
def sessionFields (text : Bytes) : List Field :=
  match findFirst (ascii "Session") text with
  | none => []
  | some pos => sscanf (text.drop pos) sessionFormat

/-- `ParseResponse`. `literal` is how far the string literal `"\r\n\r\n"` lies from `Peek()`, as
a `size_t`. -/
def parseResponse (r : RtspResponse) (b : BufferReader) (literal : Nat) :
    Option (Bool × RtspResponse × BufferReader) :=
  (BufferReader.peekString b).bind fun text =>
    if occurs blankLine text then
      if !occurs (ascii "OK") text then some (false, r, b)
      else if !RtspRequest.fits (sessionFields text) [sessionSize] then none
      else
        let session := match sessionFields text with
          | [.text w] => w
          | _ => r.session
        some (true, { r with session := session, cseq := r.cseq + 1 }, b.retrieve literal)
    else some (true, r, b)

/-- A response is there: all of the buffer is taken with it. -/
theorem parseResponse_taken {r : RtspResponse} {b : BufferReader} {l : Nat} {text : Bytes}
    (hp : BufferReader.peekString b = some text) (hb : occurs blankLine text = true)
    (hok : occurs (ascii "OK") text = true)
    (hf : RtspRequest.fits (sessionFields text) [sessionSize] = true)
    (hl : b.readableBytes ≤ l) :
    ∃ session, r.parseResponse b l =
      some (true, { r with session := session, cseq := r.cseq + 1 }, b.retrieveAll) := by
  simp only [parseResponse, hp, Option.bind_some, hb, hok, hf, if_true, Bool.not_true,
    Bool.false_eq_true, if_false, retrieve_all hl]
  exact ⟨_, rfl⟩

/-- No response is there: **the answer is `true` all the same**. -/
theorem parseResponse_absent {r : RtspResponse} {b : BufferReader} {l : Nat} {text : Bytes}
    (hp : BufferReader.peekString b = some text) (hb : occurs blankLine text = false) :
    r.parseResponse b l = some (true, r, b) := by
  simp [parseResponse, hp, hb]

/-- A request with these header lines. -/
def request (verb target : Bytes) (headers : List Bytes) (body : Bytes) : Bytes :=
  verb ++ ascii " " ++ target ++ ascii " RTSP/1.0" ++ crlf ++ headers.flatMap (· ++ crlf) ++ crlf ++
    body

/-- `"CSeq: %u"` of `GetCSeq() + 1`. -/
def cseqLine (r : RtspResponse) : Bytes := ascii "CSeq: " ++ decimal (r.cseq + 1).toNat

def agentLine (r : RtspResponse) : Bytes := ascii "User-Agent: " ++ r.userAgent

def sessionLine (r : RtspResponse) : Bytes := ascii "Session: " ++ r.session

def buildOptionReq (r : RtspResponse) : RtspResponse × Bytes :=
  ({ r with method := .options },
    RtspRequest.snprintf 2048
      (request (ascii "OPTIONS") r.rtspUrl [r.cseqLine, r.agentLine] []))

def buildAnnounceReq (r : RtspResponse) (sdp : Bytes) : RtspResponse × Bytes :=
  ({ r with method := .announce },
    RtspRequest.snprintf 4096
      (request (ascii "ANNOUNCE") r.rtspUrl
        [ascii "Content-Type: application/sdp", r.cseqLine, r.agentLine, r.sessionLine,
          ascii "Content-Length: " ++ decimal (cstr sdp).length] (cstr sdp)))

/-- The number of a track, and its pair of interleaved channels. -/
def track : MediaChannelId → Nat × Nat × Nat
  | .channel0 => (0, 0, 1)
  | .channel1 => (1, 2, 3)

def buildSetupTcpReq (r : RtspResponse) (chn : MediaChannelId) : RtspResponse × Bytes :=
  let (trackId, rtp, rtcp) := track chn
  ({ r with method := .setup },
    RtspRequest.snprintf 2048
      (request (ascii "SETUP") (r.rtspUrl ++ ascii "/track" ++ decimal trackId)
        [ascii "Transport: RTP/AVP/TCP;unicast;mode=record;interleaved=" ++ decimal rtp ++
            ascii "-" ++ decimal rtcp,
          r.cseqLine, r.agentLine, r.sessionLine] []))

def buildRecordReq (r : RtspResponse) : RtspResponse × Bytes :=
  ({ r with method := .record },
    RtspRequest.snprintf 2048
      (request (ascii "RECORD") r.rtspUrl
        [ascii "Range: npt=0.000-", r.cseqLine, r.agentLine, r.sessionLine] []))

/-- A request has a text. -/
theorem snprintf_request_ne {size : Nat} {verb target body : Bytes} {headers : List Bytes}
    (hv : verb ≠ []) (hn : (0 : UInt8) ∉ verb) (hl : verb.length ≤ size - 1) :
    RtspRequest.snprintf size (request verb target headers body) ≠ [] := by
  obtain ⟨rest, hrest⟩ := snprintf_append (t := ascii " " ++ (target ++ (ascii " RTSP/1.0" ++
    (crlf ++ (headers.flatMap (· ++ crlf) ++ (crlf ++ body)))))) hn hl
  have heq : request verb target headers body = verb ++ (ascii " " ++ (target ++
      (ascii " RTSP/1.0" ++ (crlf ++ (headers.flatMap (· ++ crlf) ++ (crlf ++ body)))))) := by
    simp [request]
  rw [heq, hrest]
  intro h
  exact hv (List.append_eq_nil_iff.mp h).1

end RtspResponse

/-! ## The connection -/

/-- `RtpConnection::Record`. -/
def RtpConnection.record (c : RtpConnection) : RtpConnection :=
  { c with mediaChannelInfo := fun chn =>
      let i := c.mediaChannelInfo chn
      if i.isSetup then { i with isRecord := true, isPlay := true } else i }

/-- `RtspConnection::ConnectionState`. -/
inductive ConnectionState
  | startConnect | startPlay | startPush
  deriving DecidableEq, Repr

/-- What a pusher asks of the server. -/
inductive Ask
  | options
  | announce
  | setup (chn : MediaChannelId)
  | record
  deriving DecidableEq, Repr

/-- The text of a request. -/
def Ask.text (a : Ask) (sdp : Bytes) (r : RtspResponse) : Bytes :=
  match a with
  | .options => r.buildOptionReq.2
  | .announce => (r.buildAnnounceReq sdp).2
  | .setup chn => (r.buildSetupTcpReq chn).2
  | .record => r.buildRecordReq.2

theorem Ask.text_ne (a : Ask) (sdp : Bytes) (r : RtspResponse) : a.text sdp r ≠ [] := by
  cases a <;> exact RtspResponse.snprintf_request_ne (by decide) (by decide) (by decide)

/-- One request as it was sent: the `CSeq` printed in it, and its text. -/
structure Asked where
  ask : Ask
  cseq : UInt32
  bytes : Bytes
  deriving DecidableEq, Repr

/-- What the outside decides during one call: the pusher's session, if the pusher is still there
and has one; what the socket takes; and where the string literal lies. -/
structure PushEnv where
  session : Option MediaSession
  socket : Env
  literal : Nat

/-- What `TcpConnection` and `OnClose` see of it. A pusher has one session, whatever the id. -/
def PushEnv.env (e : PushEnv) : Env :=
  { e.socket with
    rtsp := some ⟨fun _ => none, fun id => if id = 0 then none else e.session, if_pos rfl⟩ }

/-- A connection in `RTSP_PUSHER` mode, with what it has asked so far. -/
structure PushConnection where
  conn : RtspConnection
  response : RtspResponse
  connState : ConnectionState
  asked : List Asked

namespace PushConnection

/-- `HandleClose`. -/
def close (c : PushConnection) (e : PushEnv) : PushConnection :=
  { c with conn := c.conn.close e.env }

/-- `SendRtspMessage` of a request that has just been built. -/
def send (c : PushConnection) (e : PushEnv) (ask : Ask) (built : RtspResponse × Bytes) :
    PushConnection :=
  { c with
    conn := c.conn.sendRtspMessage e.env built.2
    response := built.1
    asked := c.asked ++ [⟨ask, c.response.cseq + 1, built.2⟩] }

/-- `USER_AGENT`. -/
def userAgent : Bytes := ascii "-_-"

/-- `SendOptions(RTSP_PUSHER)`; `url` is the pusher's, if it is still there. -/
def sendOptions (c : PushConnection) (e : PushEnv) (url : Option Bytes) : PushConnection :=
  let rtp := c.conn.rtpConn.getD (RtpConnection.new e.socket.seed)
  let c := { c with conn := { c.conn with rtpConn := some rtp } }
  match url with
  | none => c.close e
  | some url =>
      let r := { c.response with userAgent := userAgent, rtspUrl := cstr url }
      { c with response := r }.send e .options r.buildOptionReq

/-- `SendAnnounce`. -/
def sendAnnounce (c : PushConnection) (e : PushEnv) : Option PushConnection :=
  match e.session with
  | none => some (c.close e)
  | some session =>
      c.conn.rtpConn.map fun rtp =>
        let c := { c with
          conn := { c.conn with
            sessionId := session.sessionId
            rtpConn := some (RtspConnection.describeSources rtp session) }.emit
              [.clientAdded session.sessionId] }
        if session.sdp = [] then c.close e
        else c.send e .announce (c.response.buildAnnounceReq session.sdp)

/-- The SETUP of one channel. -/
def setupTrack (c : PushConnection) (e : PushEnv) (rtp : RtpConnection) (chn : MediaChannelId) :
    PushConnection :=
  let (_, rtpChannel, rtcpChannel) := RtspResponse.track chn
  let rtp := rtp.setupRtpOverTcp c.conn.sockfd chn rtpChannel rtcpChannel
  { c with conn := { c.conn with rtpConn := some rtp } }.send e (.setup chn)
    (c.response.buildSetupTcpReq chn)

/-- Whether the session has a source for the channel, and the channel is not set up. -/
def lacks (session : MediaSession) (rtp : RtpConnection) (chn : MediaChannelId) : Bool :=
  (session.source chn).isSome && !(rtp.mediaChannelInfo chn).isSetup

/-- `SendSetup`. -/
def sendSetup (c : PushConnection) (e : PushEnv) : Option PushConnection :=
  match e.session with
  | none => some (c.close e)
  | some session =>
      c.conn.rtpConn.map fun rtp =>
        if lacks session rtp .channel0 then c.setupTrack e rtp .channel0
        else if lacks session rtp .channel1 then c.setupTrack e rtp .channel1
        else c.send e .record c.response.buildRecordReq

/-- `HandleRecord`. -/
def handleRecord (c : PushConnection) : Option PushConnection :=
  c.conn.rtpConn.map fun rtp =>
    { c with connState := .startPush, conn := { c.conn with rtpConn := some rtp.record } }

/-- `HandleRtspResponse` once `ParseResponse` has returned `true`. -/
def nextRequest (c : PushConnection) (e : PushEnv) : Option PushConnection :=
  match c.response.method with
  | .options => c.sendAnnounce e
  | .announce | .describe | .setup => c.sendSetup e
  | .record => c.handleRecord
  | .rtcp | .none => some c

/-- The receive buffer and the response are replaced. -/
def received (c : PushConnection) (r : RtspResponse) (b : BufferReader) : PushConnection :=
  { c with
    conn := { c.conn with reader := { c.conn.reader with buffer := b } }
    response := r }

/-- The end of `OnRead`. -/
def trim (c : PushConnection) : PushConnection :=
  if maxRtspMessageSize < c.conn.reader.buffer.readableBytes then
    c.received c.response c.conn.reader.buffer.retrieveAll
  else c

/-- `OnRead`, with its result. -/
def onRead (c : PushConnection) (e : PushEnv) : Option (Bool × PushConnection) :=
  if c.conn.reader.buffer.readableBytes = 0 then some (false, c)
  else
    (c.response.parseResponse c.conn.reader.buffer e.literal).bind fun (ret, r, b) =>
      if ret then ((c.received r b).nextRequest e).map fun c => (true, c.trim)
      else some (false, c.received r b)

/-- `HandleRead` when `recv` returned data. -/
def handleRead (c : PushConnection) (chunk : Chunk) (e : PushEnv) : Option PushConnection :=
  if c.conn.isClosed then some c
  else match c.conn.reader.buffer.read chunk with
    | none => some (c.close e)
    | some b =>
        ((c.received c.response b).onRead e).map fun (ret, c) => if ret then c else c.close e

/-- `HandleWrite`. -/
def handleWrite (c : PushConnection) (e : PushEnv) : PushConnection :=
  { c with conn := c.conn.handleWrite e.env }

/-! ## What sending does -/

/-- The send queue is one of a new connection, with at most `n` messages in it. -/
structure Queued (w : BufferWriter) (n : Nat) : Prop where
  length : w.buffer.length ≤ n
  capacity : w.maxQueueLength = 500

theorem Queued.isFull {w : BufferWriter} {n : Nat} (h : Queued w n) (hn : n < 500) :
    w.isFull = false := by
  have := h.length
  simp only [BufferWriter.isFull, h.capacity, decide_eq_false_iff_not]
  omega

/-- Closing leaves the queue alone. -/
theorem close_writeBuffer (c : RtspConnection) (env : Env) :
    (c.close env).writeBuffer = c.writeBuffer := by
  unfold RtspConnection.close
  split <;> rfl

/-- Writing does not fill the queue. -/
theorem Queued.handleWrite {c : RtspConnection} {n : Nat} (h : Queued c.writeBuffer n) (env : Env) :
    Queued (c.handleWrite env).writeBuffer n := by
  unfold RtspConnection.handleWrite
  split
  · exact h
  · cases env.writes with
    | none => exact h
    | some results =>
      dsimp only
      have hsend : Queued (c.writeBuffer.send results).2.1 n :=
        ⟨Nat.le_trans (BufferWriter.sendLoop_length _ _) h.length, h.capacity⟩
      split
      · rw [close_writeBuffer]
        exact hsend
      · split <;> split <;> exact hsend

/-- The responses a quiet stretch of the log holds. -/
theorem responses_quiet {c c' : RtspConnection} {es : List Effect} (h : RtspConnection.Quiet c es c') :
    responses c'.log = responses c.log := by
  have hnone : responses es = [] := by
    refine List.filterMap_eq_nil_iff.mpr (fun e he => ?_)
    cases h.plumbing e he <;> rfl
  rw [h.log, responses_append, hnone, List.append_nil]

/-- **A request that there is room for**: it is queued, and nothing else changes that the
handshake is about. -/
theorem send_spec {c : PushConnection} {e : PushEnv} {ask : Ask} {built : RtspResponse × Bytes}
    {n : Nat} (ho : c.conn.isClosed = false) (hq : Queued c.conn.writeBuffer n) (hn : n < 500)
    (hb : built.2 ≠ []) :
    RtspConnection.Frame c.conn (c.send e ask built).conn ∧
      responses (c.send e ask built).conn.log = responses c.conn.log ++ [(built.2, true)] ∧
      Queued (c.send e ask built).conn.writeBuffer (n + 1) := by
  obtain ⟨es, hquiet⟩ := c.conn.send_quiet e.env built.2 (.responded built.2)
  have htakes := RtspConnection.takes_true ho (hq.isFull hn) hb
  have hf := hquiet.frame
  refine ⟨⟨hf.1, hf.2, hf.3, hf.4, hf.5, hf.6, hf.7, hf.8, hf.9, hf.10⟩, ?_, ?_⟩
  · show responses (c.conn.send e.env built.2 (.responded built.2)).log = _
    rw [responses_quiet hquiet]
    show responses (c.conn.log ++ [.responded built.2 (c.conn.takes built.2)]) = _
    rw [responses_append, htakes]
    rfl
  · show Queued (c.conn.send e.env built.2 (.responded built.2)).writeBuffer (n + 1)
    rw [RtspConnection.send_eq]
    refine Queued.handleWrite ?_ _
    have hpos : ¬ built.2.length ≤ 0 := by
      rw [Nat.le_zero, List.length_eq_zero_iff]
      exact hb
    have happ : Queued (c.conn.writeBuffer.append built.2 0).2 (n + 1) := by
      simp only [BufferWriter.append, dif_neg hpos, hq.isFull hn, Bool.false_eq_true, if_false]
      refine ⟨?_, hq.capacity⟩
      rw [List.length_append]
      exact Nat.add_le_add_right hq.length 1
    show Queued (if c.conn.isClosed then c.conn.writeBuffer
      else (c.conn.writeBuffer.append built.2 0).2) (n + 1)
    rw [ho]
    exact happ

end PushConnection

end Maixii.Xop
