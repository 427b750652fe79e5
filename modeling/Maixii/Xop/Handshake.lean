import Maixii.Lib.Run
import Maixii.Xop.RtspPusher

/-!
# `Xop/Handshake.lean`: OPTIONS, ANNOUNCE, SETUP, RECORD

A server answers a pushing connection with 200s, and `recv` cuts them anywhere. `ParseResponse`
returns `true` both when it has taken a response and when there is none yet, and its caller asks
the next thing either way; and taking a response empties the whole buffer, because `RetrieveUntil`
is given an address outside of it. So the handshake keeps in step with the server exactly as long
as every read completes one response and brings nothing else (`Handshake.in_step`). Once the last
request is answered there is nothing more to ask, and a read that brings a part of a response does
no harm, unless what it shows is taken for a whole one.
-/

set_option autoImplicit false

namespace Maixii.Xop

open Maixii.Lib Maixii.Net

/-! ## What is sent, and what should come out -/

/-- A 200 of the server: what stands before the empty line, and what follows it. -/
structure Response where
  head : Bytes
  body : Bytes
  status : ascii "RTSP/1.0 200 OK" <+: head
  noNul : (0 : UInt8) ∉ head

/-- As it is sent. -/
def Response.wire (r : Response) : Bytes := r.head ++ RtspResponse.blankLine ++ r.body

theorem Response.wire_pos (r : Response) : 0 < r.wire.length := by
  have : (RtspResponse.blankLine).length = 4 := rfl
  simp only [Response.wire, List.length_append]
  omega

/-- How many responses `n` bytes of the stream complete. -/
def completed : List Response → Nat → Nat
  | [], _ => 0
  | r :: rs, n => if r.wire.length ≤ n then completed rs (n - r.wire.length) + 1 else 0

/-- The session that is pushed. Its list of sources has two entries from the start, so
`GetSdpMessage` is never empty. -/
structure Pushed extends MediaSession where
  sdp_ne : sdp ≠ []

/-- The requests of a handshake, for a session with these sources. -/
def planOf (video audio : Bool) : List Ask :=
  [.options, .announce] ++ (if video then [.setup .channel0] else []) ++
    (if audio then [.setup .channel1] else []) ++ [.record]

def Pushed.plan (p : Pushed) : List Ask :=
  planOf (p.source .channel0).isSome (p.source .channel1).isSome

/-! ## The system -/

/-- One call from outside, with what the outside decides in it: whether the pusher and its session
are still there, what the socket takes, and where the string literal lies. -/
structure Moment where
  there : Bool
  socket : Env
  literal : Nat

def Moment.env (m : Moment) (p : Pushed) : PushEnv where
  session := if m.there then some p.toMediaSession else none
  socket := m.socket
  literal := m.literal

inductive PushInput
  | recv (chunk : Chunk) (m : Moment)
  | writable (m : Moment)
  | close (m : Moment)

/-- The connection, and what has been received on it. -/
structure Handshake where
  c : PushConnection
  received : Bytes

namespace Handshake

/-- What is in the receive buffer. -/
def readable (x : Handshake) : Bytes := x.c.conn.reader.buffer.readable

/-- How many of the responses have come in completely. -/
def done (rs : List Response) (x : Handshake) : Nat := completed rs x.received.length

/-- One call. What is received are the next bytes of the stream, and the string literal is not in
the receive buffer. -/
def step (p : Pushed) (rs : List Response) (x : Handshake) : PushInput → Option Handshake
  | .recv chunk m =>
      let received := x.received ++ chunk.bytes
      if x.c.conn.isClosed then none
      else if !received.isPrefixOf (rs.flatMap Response.wire) then none
      else if m.literal < x.readable.length + chunk.bytes.length then none
      else (x.c.handleRead chunk (m.env p)).map fun c => ⟨c, received⟩
  | .writable m => some { x with c := x.c.handleWrite (m.env p) }
  | .close m => some { x with c := x.c.close (m.env p) }

/-- A new connection, with whatever the uninitialised parts of it hold, on which `OpenUrl` has
called `SendOptions`. -/
def opened (p : Pushed) (url : Bytes) (sockfd : Int) (auth : Option DigestAuthentication)
    (request : RtspRequest) (method : ResponseMethod) (m : Moment) : Handshake where
  c := PushConnection.sendOptions
    ⟨RtspConnection.new sockfd auth request, ⟨method, 0, [], [], []⟩, .startConnect, []⟩
    (m.env p) (some url)
  received := []

/-- A connection that pushes, and a server that answers with these responses. -/
def system (p : Pushed) (url : Bytes) (rs : List Response) : System Handshake PushInput :=
  System.ofStep (fun x => ∃ sockfd auth request method m, x = opened p url sockfd auth request method m)
    (step p rs)

/-! ## The property and the condition -/

/-- The text is that of the request, with this `CSeq`, for this URL. -/
def Spells (p : Pushed) (url : Bytes) (a : Asked) : Prop :=
  ∃ r : RtspResponse, r.cseq + 1 = a.cseq ∧ r.rtspUrl = cstr url ∧
    r.userAgent = PushConnection.userAgent ∧ a.bytes = a.ask.text p.sdp r

/-- The handshake keeps in step with the server. -/
structure InStep (p : Pushed) (url : Bytes) (rs : List Response) (x : Handshake) : Prop where
  /-- The requests are those of the plan, in order, none twice, numbered from 1. -/
  asks : x.c.asked.map Asked.ask <+: p.plan
  cseqs : x.c.asked.map Asked.cseq = (List.range x.c.asked.length).map fun i => UInt32.ofNat (i + 1)
  spelled : ∀ a ∈ x.c.asked, Spells p url a
  /-- They are what the send queue was given, and took. -/
  sent : responses x.c.conn.log = x.c.asked.map fun a => (a.bytes, true)
  /-- Each one only after the complete response to the one before, and then at once. -/
  inTime : x.c.asked.length ≤ x.done rs + 1
  next : x.c.conn.isClosed = false → x.c.asked.length = min (x.done rs + 1) p.plan.length
  /-- The connection starts to push when RECORD has been answered. -/
  records : x.c.connState = .startPush → p.plan.length ≤ x.done rs
  recorded : x.c.conn.isClosed = false → p.plan.length ≤ x.done rs → x.c.connState = .startPush
  /-- What is left to read begins where the last complete response ends. -/
  unread : x.c.conn.isClosed = false →
    x.readable = x.received.drop ((rs.take (x.done rs)).flatMap Response.wire).length

/-- What `strstr` sees once the chunk has been read. -/
def shown (x : Handshake) (chunk : Chunk) : Option Bytes :=
  (x.c.conn.reader.buffer.read chunk).bind BufferReader.peekString

/-- The read brings the next response and nothing else, and the session name that is found fits
its array. -/
def Whole (rs : List Response) (x : Handshake) (chunk : Chunk) : Prop :=
  (rs[x.done rs]?).map Response.wire = some (x.readable ++ chunk.bytes) ∧
    (x.readable ++ chunk.bytes).length < 6144 ∧
    ∀ text ∈ x.shown chunk,
      RtspRequest.fits (RtspResponse.sessionFields text) [RtspResponse.sessionSize] = true

/-- The read brings a part of a response when there is nothing left to ask, and nothing in the
buffer looks like a whole one. -/
def Idle (p : Pushed) (rs : List Response) (x : Handshake) (chunk : Chunk) : Prop :=
  p.plan.length ≤ x.done rs ∧
    (∀ r ∈ rs[x.done rs]?, (x.readable ++ chunk.bytes).length < r.wire.length) ∧
    (x.readable ++ chunk.bytes).length ≤ maxRtspMessageSize ∧
    ∀ text ∈ x.shown chunk, occurs RtspResponse.blankLine text = false

/-- The condition. -/
def OneByOne (p : Pushed) (rs : List Response) (x : Handshake) : PushInput → Prop
  | .recv chunk _ => x.Whole rs chunk ∨ x.Idle p rs chunk
  | .writable _ | .close _ => True

instance (rs : List Response) (x : Handshake) (chunk : Chunk) : Decidable (x.Whole rs chunk) :=
  inferInstanceAs (Decidable (_ ∧ _ ∧ _))

instance (p : Pushed) (rs : List Response) (x : Handshake) (chunk : Chunk) :
    Decidable (x.Idle p rs chunk) :=
  inferInstanceAs (Decidable (_ ∧ _ ∧ _ ∧ _))

instance (p : Pushed) (rs : List Response) (x : Handshake) :
    ∀ i, Decidable (x.OneByOne p rs i)
  | .recv chunk _ => inferInstanceAs (Decidable (x.Whole rs chunk ∨ x.Idle p rs chunk))
  | .writable _ | .close _ => inferInstanceAs (Decidable True)

end Handshake

/-! ## What has been asked -/

/-- The `method_` a request leaves behind. -/
def Ask.method : Ask → ResponseMethod
  | .options => .options
  | .announce => .announce
  | .setup _ => .setup
  | .record => .record

/-- What `SendSetup` asks, when this much has been asked. -/
def nextSetup (video audio : Bool) (asked : List Ask) : Ask :=
  if video && !decide (Ask.setup .channel0 ∈ asked) then .setup .channel0
  else if audio && !decide (Ask.setup .channel1 ∈ asked) then .setup .channel1
  else .record

theorem planOf_length (video audio : Bool) : (planOf video audio).length ≤ 5 := by
  cases video <;> cases audio <;> decide

/-- What comes next, by what has been asked last. -/
def nextAsk (video audio : Bool) (asked : List Ask) : Ask :=
  match asked.getLast? with
  | none => .options
  | some .options => .announce
  | some _ => nextSetup video audio asked

/-- That is the plan. -/
theorem planOf_next {video audio : Bool} {n : Nat} (hn : n < (planOf video audio).length) :
    (planOf video audio)[n]? = some (nextAsk video audio ((planOf video audio).take n)) ∧
      ((planOf video audio).take n).getLast? ≠ some .record := by
  have h5 : n < 5 := Nat.lt_of_lt_of_le hn (planOf_length video audio)
  have key : ∀ (v a : Bool) (n : Fin 5), n.val < (planOf v a).length →
      (planOf v a)[n.val]? = some (nextAsk v a ((planOf v a).take n.val)) ∧
        ((planOf v a).take n.val).getLast? ≠ some .record := by decide
  exact key video audio ⟨n, h5⟩ hn

/-- What is asked last is RECORD. -/
theorem planOf_getLast (video audio : Bool) : (planOf video audio).getLast? = some .record := by
  cases video <;> cases audio <;> rfl

/-! ## The invariant of the connection -/

/-- The requests that have been sent are sound: a beginning of the plan, numbered and spelled as
they should be. -/
structure Logged (p : Pushed) (url : Bytes) (c : PushConnection) : Prop where
  asks : c.asked.map Asked.ask <+: p.plan
  cseqs : c.asked.map Asked.cseq = (List.range c.asked.length).map fun i => UInt32.ofNat (i + 1)
  spelled : ∀ a ∈ c.asked, Handshake.Spells p url a
  sent : responses c.conn.log = c.asked.map fun a => (a.bytes, true)

/-- An open connection that has asked the first `n` things and has taken `m` responses. -/
structure Stage (p : Pushed) (url : Bytes) (c : PushConnection) (n m : Nat) : Prop where
  asks : c.asked.map Asked.ask = p.plan.take n
  method : ∀ a, (p.plan.take n).getLast? = some a → c.response.method = a.method
  cseq : c.response.cseq = UInt32.ofNat m
  url : c.response.rtspUrl = cstr url
  agent : c.response.userAgent = PushConnection.userAgent
  rtp : ∃ rtp, c.conn.rtpConn = some rtp ∧
    ∀ chn, (rtp.mediaChannelInfo chn).isSetup = decide (Ask.setup chn ∈ p.plan.take n)
  queue : PushConnection.Queued c.conn.writeBuffer n

/-- The connection as it is when a request is about to be sent. -/
structure Prepared (c d : PushConnection) : Prop where
  response : d.response = c.response
  asked : d.asked = c.asked
  connState : d.connState = c.connState
  isClosed : d.conn.isClosed = c.conn.isClosed
  writeBuffer : d.conn.writeBuffer = c.conn.writeBuffer
  reader : d.conn.reader = c.conn.reader
  log : responses d.conn.log = responses c.conn.log

theorem Stage.length {p : Pushed} {url : Bytes} {c : PushConnection} {n m : Nat}
    (h : Stage p url c n m) (hn : n ≤ p.plan.length) : c.asked.length = n := by
  have := congrArg List.length h.asks
  rw [List.length_map, List.length_take, Nat.min_eq_left hn] at this
  exact this

/-- **Asking the next thing.** -/
theorem Stage.ask {p : Pushed} {url : Bytes} {c d : PushConnection} {n : Nat} {ask : Ask}
    {e : PushEnv} {built : RtspResponse × Bytes} (h : Stage p url c n n) (hl : Logged p url c)
    (ho : c.conn.isClosed = false) (hnext : p.plan[n]? = some ask) (hd : Prepared c d)
    (hb : built = ({ c.response with method := ask.method }, ask.text p.sdp c.response))
    (hrtp : ∃ rtp, d.conn.rtpConn = some rtp ∧
      ∀ chn, (rtp.mediaChannelInfo chn).isSetup = decide (Ask.setup chn ∈ p.plan.take (n + 1))) :
    Logged p url (d.send e ask built) ∧ Stage p url (d.send e ask built) (n + 1) n ∧
      (d.send e ask built).conn.reader = c.conn.reader := by
  have hlt : n < p.plan.length := (List.getElem?_eq_some_iff.mp hnext).1
  have hlen := h.length (Nat.le_of_lt hlt)
  have htake : p.plan.take (n + 1) = p.plan.take n ++ [ask] := by
    rw [List.take_add_one, hnext]
    rfl
  have hb2 : built.2 ≠ [] := by
    rw [hb]
    exact ask.text_ne _ _
  have h500 : n < 500 := by
    have := planOf_length (p.source .channel0).isSome (p.source .channel1).isSome
    unfold Pushed.plan at hlt
    omega
  have hopen : d.conn.isClosed = false := by rw [hd.isClosed, ho]
  have hqueue : PushConnection.Queued d.conn.writeBuffer n := by
    rw [hd.writeBuffer]
    exact h.queue
  obtain ⟨hf, hlog, hq⟩ := PushConnection.send_spec hopen hqueue h500 hb2
  have hasks : (d.send e ask built).asked.map Asked.ask = p.plan.take (n + 1) := by
    show (d.asked ++ [_]).map Asked.ask = _
    rw [List.map_append, hd.asked, h.asks, htake]
    rfl
  have hcseq : d.response.cseq + 1 = UInt32.ofNat (n + 1) := by
    rw [hd.response, h.cseq, UInt32.ofNat_add]
    rfl
  refine ⟨⟨?_, ?_, ?_, ?_⟩, ⟨hasks, ?_, ?_, ?_, ?_, ?_, hq⟩, hf.reader.trans hd.reader⟩
  · rw [hasks]
    exact List.take_prefix _ _
  · show (d.asked ++ [_]).map Asked.cseq = (List.range (d.asked ++ [_]).length).map _
    rw [List.map_append, hd.asked, hl.cseqs, List.length_append, hlen, List.length_singleton,
      List.range_succ, List.map_append, List.map_singleton, List.map_singleton, hcseq]
  · intro a ha
    rcases List.mem_append.mp ha with ha | ha
    · rw [hd.asked] at ha
      exact hl.spelled a ha
    · obtain rfl := List.mem_singleton.mp ha
      refine ⟨c.response, ?_, h.url, h.agent, ?_⟩
      · rw [← hd.response]
      · rw [hb]
  · rw [hlog, hd.log, hl.sent]
    show _ = (d.asked ++ [_]).map _
    rw [List.map_append, hd.asked]
    rfl
  · intro a ha
    rw [htake, List.getLast?_append, List.getLast?_singleton] at ha
    obtain rfl : ask = a := Option.some.inj ha
    show built.1.method = _
    rw [hb]
  · show built.1.cseq = _
    rw [hb]
    exact h.cseq
  · show built.1.rtspUrl = _
    rw [hb]
    exact h.url
  · show built.1.userAgent = _
    rw [hb]
    exact h.agent
  · obtain ⟨rtp, hr, hset⟩ := hrtp
    exact ⟨rtp, hf.rtpConn.trans hr, hset⟩

theorem close_isClosed (c : RtspConnection) (env : Env) : (c.close env).isClosed = true := by
  unfold RtspConnection.close
  split
  · assumption
  · rfl

theorem close_responses (c : RtspConnection) (env : Env) :
    responses (c.close env).log = responses c.log := by
  obtain ⟨es, hq⟩ := c.close_quiet env
  exact PushConnection.responses_quiet hq

/-- `SetClockRate` and `SetPayloadType` set no channel up. -/
theorem describeSources_isSetup (rtp : RtpConnection) (session : MediaSession)
    (chn : MediaChannelId) :
    ((RtspConnection.describeSources rtp session).mediaChannelInfo chn).isSetup =
      (rtp.mediaChannelInfo chn).isSetup := by
  rw [describeSources_info]
  split <;> rfl

/-- `SetupRtpOverTcp` sets one channel up. -/
theorem setupRtpOverTcp_isSetup (rtp : RtpConnection) (fd : Int) (chn d : MediaChannelId)
    (a b : Nat) :
    ((rtp.setupRtpOverTcp fd chn a b).mediaChannelInfo d).isSetup =
      (decide (d = chn) || (rtp.mediaChannelInfo d).isSetup) := by
  by_cases hd : d = chn
  · subst hd
    simp [RtpConnection.setupRtpOverTcp, RtpConnection.updateInfo]
  · simp [RtpConnection.setupRtpOverTcp, RtpConnection.updateInfo, hd]

section

variable {p : Pushed} {url : Bytes} {c : PushConnection} {n m : Nat}

/-- What a closing leaves. -/
theorem Logged.close (h : Logged p url c) (e : PushEnv) : Logged p url (c.close e) :=
  ⟨h.asks, h.cseqs, h.spelled, (close_responses c.conn e.env).trans h.sent⟩

/-- `lacks` is what `nextSetup` goes by. -/
theorem Stage.lacks (h : Stage p url c n m) {rtp : RtpConnection} (hr : c.conn.rtpConn = some rtp)
    (chn : MediaChannelId) :
    PushConnection.lacks p.toMediaSession rtp chn =
      ((p.source chn).isSome && !decide (Ask.setup chn ∈ p.plan.take n)) := by
  obtain ⟨rtp', hr', hset⟩ := h.rtp
  obtain rfl : rtp' = rtp := Option.some.inj (hr'.symm.trans hr)
  rw [PushConnection.lacks, hset]

/-- ANNOUNCE follows OPTIONS. -/
theorem Stage.announce (h : Stage p url c n n) (hl : Logged p url c) (ho : c.conn.isClosed = false)
    (hnext : p.plan[n]? = some .announce) {e : PushEnv} (he : e.session = some p.toMediaSession) :
    ∃ c', c.sendAnnounce e = some c' ∧ Logged p url c' ∧ Stage p url c' (n + 1) n ∧
      c'.conn.reader = c.conn.reader ∧ c'.connState = c.connState := by
  obtain ⟨rtp, hr, hset⟩ := h.rtp
  have htake : p.plan.take (n + 1) = p.plan.take n ++ [.announce] := by
    rw [List.take_add_one, hnext]
    rfl
  simp only [PushConnection.sendAnnounce, he, hr, Option.map_some, if_neg p.sdp_ne]
  refine ⟨_, rfl, ?_⟩
  obtain ⟨h₁, h₂, h₃⟩ := h.ask hl ho (e := e) hnext
    (d := { c with
      conn := { c.conn with
        sessionId := p.sessionId
        rtpConn := some (RtspConnection.describeSources rtp p.toMediaSession) }.emit
          [.clientAdded p.sessionId] })
    ⟨rfl, rfl, rfl, rfl, rfl, rfl, by
      show responses (c.conn.log ++ [.clientAdded p.sessionId]) = _
      rw [responses_append]
      exact List.append_nil _⟩
    (rfl : c.response.buildAnnounceReq p.sdp = _)
    ⟨_, rfl, fun chn => by
      rw [describeSources_isSetup, hset, htake]
      simp⟩
  exact ⟨h₁, h₂, h₃, rfl⟩

/-- The SETUP of a channel that is to be set up next. -/
theorem Stage.setupTrack (h : Stage p url c n n) (hl : Logged p url c)
    (ho : c.conn.isClosed = false) {chn : MediaChannelId} (hnext : p.plan[n]? = some (.setup chn))
    {rtp : RtpConnection} (hr : c.conn.rtpConn = some rtp) (e : PushEnv) :
    Logged p url (c.setupTrack e rtp chn) ∧ Stage p url (c.setupTrack e rtp chn) (n + 1) n ∧
      (c.setupTrack e rtp chn).conn.reader = c.conn.reader ∧
      (c.setupTrack e rtp chn).connState = c.connState := by
  obtain ⟨rtp', hr', hset⟩ := h.rtp
  obtain rfl : rtp' = rtp := Option.some.inj (hr'.symm.trans hr)
  have htake : p.plan.take (n + 1) = p.plan.take n ++ [.setup chn] := by
    rw [List.take_add_one, hnext]
    rfl
  obtain ⟨h₁, h₂, h₃⟩ := h.ask hl ho (e := e) hnext
    (d := { c with conn := { c.conn with rtpConn := some (rtp'.setupRtpOverTcp c.conn.sockfd chn
      (RtspResponse.track chn).2.1 (RtspResponse.track chn).2.2) } })
    ⟨rfl, rfl, rfl, rfl, rfl, rfl, rfl⟩ (rfl : c.response.buildSetupTcpReq chn = _)
    ⟨_, rfl, fun d => by
      rw [setupRtpOverTcp_isSetup, hset, htake]
      simp [or_comm]⟩
  exact ⟨h₁, h₂, h₃, rfl⟩

/-- SETUP or RECORD follows ANNOUNCE or SETUP. -/
theorem Stage.setup (h : Stage p url c n n) (hl : Logged p url c) (ho : c.conn.isClosed = false)
    (hnext : p.plan[n]? = some (nextSetup (p.source .channel0).isSome
      (p.source .channel1).isSome (p.plan.take n)))
    {e : PushEnv} (he : e.session = some p.toMediaSession) :
    ∃ c', c.sendSetup e = some c' ∧ Logged p url c' ∧ Stage p url c' (n + 1) n ∧
      c'.conn.reader = c.conn.reader ∧ c'.connState = c.connState := by
  obtain ⟨rtp, hr, hset⟩ := h.rtp
  simp only [PushConnection.sendSetup, he, hr, Option.map_some, h.lacks hr]
  unfold nextSetup at hnext
  refine ⟨_, rfl, ?_⟩
  split
  · rename_i h0
    rw [if_pos h0] at hnext
    exact h.setupTrack hl ho hnext hr e
  · rename_i h0
    rw [if_neg h0] at hnext
    split
    · rename_i h1
      rw [if_pos h1] at hnext
      exact h.setupTrack hl ho hnext hr e
    · rename_i h1
      rw [if_neg h1] at hnext
      have htake : p.plan.take (n + 1) = p.plan.take n ++ [.record] := by
        rw [List.take_add_one, hnext]
        rfl
      obtain ⟨h₁, h₂, h₃⟩ := h.ask hl ho (e := e) hnext (d := c)
        ⟨rfl, rfl, rfl, rfl, rfl, rfl, rfl⟩ (rfl : c.response.buildRecordReq = _)
        ⟨rtp, hr, fun d => by
          rw [hset, htake]
          simp⟩
      exact ⟨h₁, h₂, h₃, rfl⟩

/-- Once RECORD has been asked, every `true` of `ParseResponse` starts the pushing. -/
theorem Stage.record (h : Stage p url c n m) (hl : Logged p url c) (hn : p.plan.length ≤ n)
    (e : PushEnv) {k : Nat} (hk : n ≤ k) :
    ∃ c', c.nextRequest e = some c' ∧ Logged p url c' ∧ Stage p url c' k m ∧
      c'.conn.reader = c.conn.reader ∧ c'.conn.isClosed = c.conn.isClosed ∧
      c'.connState = .startPush ∧ c'.asked = c.asked := by
  obtain ⟨rtp, hr, hset⟩ := h.rtp
  have hall : p.plan.take n = p.plan := List.take_of_length_le hn
  have hall' : p.plan.take k = p.plan := List.take_of_length_le (Nat.le_trans hn hk)
  have hm : c.response.method = .record := by
    refine h.method .record ?_
    rw [hall]
    exact planOf_getLast _ _
  simp only [PushConnection.nextRequest, hm, PushConnection.handleRecord, hr, Option.map_some]
  refine ⟨_, rfl, ⟨hl.asks, hl.cseqs, hl.spelled, hl.sent⟩, ?_, rfl, rfl, rfl, rfl⟩
  refine ⟨?_, ?_, h.cseq, h.url, h.agent, ⟨rtp.record, rfl, ?_⟩, ?_⟩
  · rw [hall', ← hall]
    exact h.asks
  · rw [hall', ← hall]
    exact h.method
  · intro chn
    rw [hall', ← hall, ← hset]
    show (if _ then _ else _ : MediaChannelInfo).isSetup = _
    split <;> rfl
  · exact ⟨Nat.le_trans h.queue.length hk, h.queue.capacity⟩

/-- What a taken response may lead to, when `n` things have been asked. -/
structure Moved (p : Pushed) (url : Bytes) (c : PushConnection) (n : Nat) (c' : PushConnection) :
    Prop where
  logged : Logged p url c'
  reader : c'.conn.reader = c.conn.reader
  length : c'.asked.length ≤ n + 1
  waits : n < p.plan.length → c'.connState = c.connState
  pushes : p.plan.length ≤ n → c'.connState = .startPush
  stage : c'.conn.isClosed = false → Stage p url c' (n + 1) n

theorem Stage.length_le (h : Stage p url c n m) : c.asked.length ≤ n := by
  have := congrArg List.length h.asks
  rw [List.length_map, List.length_take] at this
  omega

/-- The session is gone: the connection closes. -/
theorem Moved.closed (h : Stage p url c n n) (hl : Logged p url c) (hn : n < p.plan.length)
    (e : PushEnv) : Moved p url c n (c.close e) where
  logged := hl.close e
  reader := by
    obtain ⟨es, hq⟩ := c.conn.close_quiet e.env
    exact hq.frame.reader
  length := Nat.le_succ_of_le h.length_le
  waits := fun _ => rfl
  pushes := fun hge => absurd hge (Nat.not_le.mpr hn)
  stage := by
    intro hopen
    have := close_isClosed c.conn e.env
    rw [show (c.conn.close e.env).isClosed = false from hopen] at this
    exact absurd this (by decide)

/-- The next thing is asked. -/
theorem Moved.asked {c' : PushConnection} (hn : n < p.plan.length) (hl : Logged p url c')
    (hs : Stage p url c' (n + 1) n) (hr : c'.conn.reader = c.conn.reader)
    (hst : c'.connState = c.connState) : Moved p url c n c' :=
  ⟨hl, hr, hs.length_le, fun _ => hst, fun hge => absurd hge (Nat.not_le.mpr hn), fun _ => hs⟩

/-- **What a taken response leads to.** -/
theorem Stage.next (h : Stage p url c n n) (hl : Logged p url c) (ho : c.conn.isClosed = false)
    (hn : 0 < n) (i : Moment) :
    ∃ c', c.nextRequest (i.env p) = some c' ∧ Moved p url c n c' := by
  rcases Nat.lt_or_ge n p.plan.length with hlt | hge
  · obtain ⟨hnext, hlast⟩ := planOf_next hlt
    -- The handler is the one for what has been asked last.
    obtain ⟨a, ha⟩ : ∃ a, (p.plan.take n).getLast? = some a := by
      cases hx : (p.plan.take n).getLast? with
      | some a => exact ⟨a, rfl⟩
      | none =>
        have := congrArg List.length (List.getLast?_eq_none_iff.mp hx)
        rw [List.length_take, List.length_nil] at this
        omega
    have hm := h.method a ha
    unfold nextAsk at hnext
    change _ = some (match (p.plan.take n).getLast? with
      | none => _ | some .options => _ | some _ => _) at hnext
    rw [ha] at hnext
    unfold PushConnection.nextRequest
    rw [hm]
    have hsetup : p.plan[n]? = some (nextSetup (p.source .channel0).isSome
          (p.source .channel1).isSome (p.plan.take n)) →
        ∃ c', c.sendSetup (i.env p) = some c' ∧ Moved p url c n c' := by
      intro hnext
      cases hi : i.there with
      | true =>
        obtain ⟨c', hc', h₁, h₂, h₃, h₄⟩ := h.setup hl ho hnext (e := i.env p)
          (by simp [Moment.env, hi])
        exact ⟨c', hc', .asked hlt h₁ h₂ h₃ h₄⟩
      | false =>
        refine ⟨_, ?_, .closed h hl hlt (i.env p)⟩
        simp [PushConnection.sendSetup, Moment.env, hi]
    cases a with
    | options =>
      cases hi : i.there with
      | true =>
        obtain ⟨c', hc', h₁, h₂, h₃, h₄⟩ := h.announce hl ho hnext (e := i.env p)
          (by simp [Moment.env, hi])
        exact ⟨c', hc', .asked hlt h₁ h₂ h₃ h₄⟩
      | false =>
        refine ⟨_, ?_, .closed h hl hlt (i.env p)⟩
        simp [Ask.method, PushConnection.sendAnnounce, Moment.env, hi]
    | announce => exact hsetup hnext
    | setup chn => exact hsetup hnext
    | record => exact absurd ha hlast
  · obtain ⟨c', hc', h₁, h₂, h₃, -, h₅, h₆⟩ := h.record hl hge (i.env p) (Nat.le_succ n)
    refine ⟨c', hc', h₁, h₃, ?_, ?_, fun _ => h₅, fun _ => h₂⟩
    · rw [h₆]
      exact Nat.le_succ_of_le h.length_le
    · intro hlt
      exact absurd hge (Nat.not_le.mpr hlt)

/-! ## The invariant of the handshake -/

namespace Handshake

variable {rs : List Response} {x : Handshake} {k : Nat} {part : Bytes}

/-- `k` responses have been taken, and `part` of the next one is in the buffer. -/
structure Tracked (p : Pushed) (url : Bytes) (rs : List Response) (x : Handshake) (k : Nat)
    (part : Bytes) : Prop where
  received : x.received = (rs.take k).flatMap Response.wire ++ part
  count : k ≤ rs.length
  short : ∀ r, rs[k]? = some r → part.length < r.wire.length
  logged : Logged p url x.c
  inTime : x.c.asked.length ≤ k + 1
  records : x.c.connState = .startPush → p.plan.length ≤ k
  recorded : x.c.conn.isClosed = false → p.plan.length ≤ k → x.c.connState = .startPush
  stage : x.c.conn.isClosed = false → Stage p url x.c (k + 1) k
  rewound : x.c.conn.isClosed = false → Rewound x.c.conn.reader.buffer
  unread : x.c.conn.isClosed = false → x.readable = part

/-- Counting the complete responses in `k` of them and a part of the next. -/
theorem completed_eq : ∀ (rs : List Response) (k m : Nat), k ≤ rs.length →
    (∀ r, rs[k]? = some r → m < r.wire.length) →
    completed rs (((rs.take k).flatMap Response.wire).length + m) = k := by
  intro rs
  induction rs with
  | nil =>
    intro k m hk _
    rw [List.length_nil, Nat.le_zero] at hk
    subst hk
    rfl
  | cons r rs ih =>
    intro k m hk hm
    cases k with
    | zero =>
      have hlt : m < r.wire.length := hm r rfl
      simp only [List.take_zero, List.flatMap_nil, List.length_nil, Nat.zero_add, completed]
      rw [if_neg (Nat.not_le.mpr hlt)]
    | succ k =>
      have hk' := ih k m (Nat.le_of_succ_le_succ hk) (fun q hq => hm q hq)
      simp only [List.take_succ_cons, List.flatMap_cons, List.length_append, completed]
      rw [if_pos (by omega), Nat.add_assoc, Nat.add_sub_cancel_left, hk']

theorem Tracked.done (h : Tracked p url rs x k part) : x.done rs = k := by
  rw [Handshake.done, h.received, List.length_append]
  exact completed_eq rs k part.length h.count h.short

/-- **The invariant is what was promised.** -/
theorem Tracked.inStep (h : Tracked p url rs x k part) : InStep p url rs x where
  asks := h.logged.asks
  cseqs := h.logged.cseqs
  spelled := h.logged.spelled
  sent := h.logged.sent
  inTime := by
    rw [h.done]
    exact h.inTime
  next := by
    intro ho
    have := congrArg List.length (h.stage ho).asks
    rw [List.length_map, List.length_take] at this
    rw [h.done, this]
  records := by
    rw [h.done]
    exact h.records
  recorded := by
    rw [h.done]
    exact h.recorded
  unread := by
    intro ho
    rw [h.done, h.received, List.drop_left]
    exact h.unread ho

/-- Writing and closing. -/
theorem Tracked.quiet {conn : RtspConnection} {es : List Effect} (h : Tracked p url rs x k part)
    (hq : RtspConnection.Quiet x.c.conn es conn)
    (hw : ∀ n, PushConnection.Queued x.c.conn.writeBuffer n →
      PushConnection.Queued conn.writeBuffer n) :
    Tracked p url rs { x with c := { x.c with conn := conn } } k part := by
  have hopen : conn.isClosed = false → x.c.conn.isClosed = false := by
    intro ho
    cases hc : x.c.conn.isClosed with
    | false => rfl
    | true => rw [hq.closed_mono hc] at ho; exact absurd ho (by decide)
  refine ⟨h.received, h.count, h.short, ?_, h.inTime, h.records, ?_, ?_, ?_, ?_⟩
  · exact ⟨h.logged.asks, h.logged.cseqs, h.logged.spelled,
      (PushConnection.responses_quiet hq).trans h.logged.sent⟩
  · intro ho
    exact h.recorded (hopen ho)
  · intro ho
    have hs := h.stage (hopen ho)
    obtain ⟨rtp, hr, hset⟩ := hs.rtp
    exact ⟨hs.asks, hs.method, hs.cseq, hs.url, hs.agent, ⟨rtp, hq.frame.rtpConn.trans hr, hset⟩,
      hw _ hs.queue⟩
  · intro ho
    show Rewound conn.reader.buffer
    rw [hq.frame.reader]
    exact h.rewound (hopen ho)
  · intro ho
    show conn.reader.buffer.readable = part
    rw [hq.frame.reader]
    exact h.unread (hopen ho)

theorem tracked_opened (p : Pushed) (url : Bytes) (rs : List Response) (sockfd : Int)
    (auth : Option DigestAuthentication) (request : RtspRequest) (method : ResponseMethod)
    (m : Moment) : Tracked p url rs (opened p url sockfd auth request method m) 0 [] := by
  -- The connection just before OPTIONS is sent.
  let c : PushConnection :=
    ⟨{ RtspConnection.new sockfd auth request with
        rtpConn := some (RtpConnection.new (m.env p).socket.seed) },
      ⟨method, 0, PushConnection.userAgent, cstr url, []⟩, .startConnect, []⟩
  have hstage : Stage p url c 0 0 := by
    refine ⟨rfl, ?_, rfl, rfl, rfl, ⟨_, rfl, fun chn => ?_⟩, ⟨Nat.le_refl _, rfl⟩⟩
    · intro a ha
      simp at ha
    · simp [RtpConnection.new]
  have hlogged : Logged p url c := by
    refine ⟨List.nil_prefix, rfl, ?_, rfl⟩
    intro a ha
    simp [c] at ha
  have hpos : 0 < p.plan.length := by
    unfold Pushed.plan
    simp [planOf]
  obtain ⟨h₁, h₂, h₃⟩ := hstage.ask hlogged rfl (e := m.env p)
    (rfl : p.plan[0]? = some Ask.options) (d := c)
    ⟨rfl, rfl, rfl, rfl, rfl, rfl, rfl⟩ (rfl : c.response.buildOptionReq = _)
    ⟨_, rfl, fun chn => by simp [RtpConnection.new, Pushed.plan, planOf]⟩
  refine ⟨rfl, Nat.zero_le _, ?_, h₁, h₂.length_le, ?_, ?_, fun _ => h₂, ?_, ?_⟩
  · intro r _
    exact r.wire_pos
  · intro hst
    cases (show ConnectionState.startConnect = .startPush from hst)
  · intro _ hle
    exact absurd hle (Nat.not_le.mpr hpos)
  · intro _
    show Rewound (c.send (m.env p) .options c.response.buildOptionReq).conn.reader.buffer
    rw [h₃]
    exact Rewound.new
  · intro _
    show (c.send (m.env p) .options c.response.buildOptionReq).conn.reader.buffer.readable = []
    rw [h₃]
    exact BufferReader.readable_new

/-- A pattern is found in what holds it. -/
theorem occurs_of_infix {pat s : Bytes} (h : pat <:+: s) : occurs pat s = true := by
  obtain ⟨pre, post, rfl⟩ := h
  unfold occurs
  cases hf : findFirst pat (pre ++ pat ++ post) with
  | some n => rfl
  | none =>
    refine absurd ?_ (findFirst_none_iff.mp hf pre.length (by simp))
    rw [List.append_assoc, List.drop_left]
    exact List.prefix_append _ _

/-- A C string function that starts at a whole response sees its status and its empty line. -/
theorem shown_whole (r : Response) (stale : Bytes) :
    occurs RtspResponse.blankLine (cstr (r.wire ++ stale)) = true ∧
      occurs (ascii "OK") (cstr (r.wire ++ stale)) = true := by
  have hn : (0 : UInt8) ∉ r.head ++ RtspResponse.blankLine := by
    intro h
    rcases List.mem_append.mp h with h | h
    · exact r.noNul h
    · exact absurd h (by decide)
  rw [Response.wire, List.append_assoc _ r.body, cstr_append hn]
  constructor
  · exact occurs_of_infix ⟨r.head, cstr (r.body ++ stale), rfl⟩
  · obtain ⟨rest, hrest⟩ := r.status
    refine occurs_of_infix ?_
    rw [← hrest]
    exact ⟨ascii "RTSP/1.0 200 ", rest ++ RtspResponse.blankLine ++ cstr (r.body ++ stale), by
      simp [ascii]⟩

/-- What a read leaves behind for the next one. -/
theorem rewound_retrieveAll {b : BufferReader} (hsize : b.buffer.length = 6144)
    (hlast : b.buffer.getLast? = some 0) : Rewound b.retrieveAll :=
  ⟨rfl, Nat.zero_le _, Or.inr hsize, hlast⟩

/-- The response and the buffer are replaced: the stage is that of the new response. -/
theorem stage_received {n m : Nat} (h : Stage p url c n m) {r : RtspResponse} (b : BufferReader)
    {l : Nat} (hm : r.method = c.response.method) (hc : r.cseq = UInt32.ofNat l)
    (hu : r.rtspUrl = c.response.rtspUrl) (ha : r.userAgent = c.response.userAgent) :
    Stage p url (c.received r b) n l :=
  ⟨h.asks, fun a hl => hm.trans (h.method a hl), hc, hu.trans h.url, ha.trans h.agent, h.rtp, h.queue⟩

/-- A read, when `ParseResponse` returns `true` and what then is asked leaves little to read. -/
theorem handleRead_eq {chunk : Chunk} {e : PushEnv} {b b' : BufferReader} {r : RtspResponse}
    {c' : PushConnection} (ho : c.conn.isClosed = false)
    (hb : c.conn.reader.buffer.read chunk = some b) (hpos : b.readableBytes ≠ 0)
    (hparse : c.response.parseResponse b e.literal = some (true, r, b'))
    (hnext : (c.received r b').nextRequest e = some c')
    (hle : c'.conn.reader.buffer.readableBytes ≤ maxRtspMessageSize) :
    c.handleRead chunk e = some c' := by
  have hread : (c.received c.response b).onRead e = some (true, c') := by
    have hpos' : ¬ (c.received c.response b).conn.reader.buffer.readableBytes = 0 := hpos
    unfold PushConnection.onRead
    rw [if_neg hpos']
    show (c.response.parseResponse b e.literal).bind _ = _
    rw [hparse]
    show ((c.received r b').nextRequest e).map _ = _
    rw [hnext]
    show some (true, c'.trim) = _
    rw [PushConnection.trim, if_neg (Nat.not_lt.mpr hle)]
  unfold PushConnection.handleRead
  rw [ho, if_neg (by decide), hb]
  show ((c.received c.response b).onRead e).map _ = _
  rw [hread]
  rfl

/-- **A read that brings the next response and nothing else.** -/
theorem Tracked.whole {chunk : Chunk} {m : Moment} (h : Tracked p url rs x k part)
    (ho : x.c.conn.isClosed = false)
    (hlit : x.readable.length + chunk.bytes.length ≤ m.literal) (hg : x.Whole rs chunk) :
    ∃ c', x.c.handleRead chunk (m.env p) = some c' ∧
      Tracked p url rs ⟨c', x.received ++ chunk.bytes⟩ (k + 1) [] := by
  obtain ⟨hnext, hlen, hfits⟩ := hg
  rw [h.done, Option.map_eq_some_iff] at hnext
  obtain ⟨r, hr, hwire⟩ := hnext
  have hrew := h.rewound ho
  obtain ⟨b, stale, hb, hri, hwi, hbuf, hnul, hsize, hlast⟩ := hrew.read hlen
  have htext := peekString_read hri hbuf hnul
  have hbytes : b.readableBytes = x.readable.length + chunk.bytes.length := by
    rw [BufferReader.readableBytes, hri, hwi, Nat.sub_zero, List.length_append]
    rfl
  have hpos : ¬ b.readableBytes = 0 := by
    have := List.length_pos_of_ne_nil chunk.nonempty
    omega
  -- The parser sees a complete response, takes it and all the buffer with it.
  obtain ⟨hblank, hok⟩ := shown_whole r stale
  rw [hwire] at hblank hok
  obtain ⟨session, hparse⟩ := RtspResponse.parseResponse_taken (r := x.c.response)
    (l := m.literal) htext hblank hok (hfits _ (by simp [shown, hb, htext])) (by omega)
  have hstage := stage_received (l := k + 1) (h.stage ho) b.retrieveAll
    (r := { x.c.response with session := session, cseq := x.c.response.cseq + 1 }) rfl
    (by
      show x.c.response.cseq + 1 = _
      rw [(h.stage ho).cseq, UInt32.ofNat_add]
      rfl) rfl rfl
  obtain ⟨c', hc', hmoved⟩ := Stage.next hstage
    ⟨h.logged.asks, h.logged.cseqs, h.logged.spelled, h.logged.sent⟩ ho (Nat.succ_pos k) m
  have hbuffer : c'.conn.reader.buffer = b.retrieveAll :=
    congrArg RtspReader.buffer hmoved.reader
  refine ⟨c', ?_, ?_⟩
  · refine handleRead_eq ho hb hpos hparse hc' ?_
    rw [hbuffer]
    exact Nat.zero_le _
  · have hlt : k < rs.length := (List.getElem?_eq_some_iff.mp hr).1
    refine ⟨?_, hlt, fun q _ => q.wire_pos, hmoved.logged, hmoved.length, ?_, ?_, hmoved.stage,
      fun _ => ?_, fun _ => ?_⟩
    · rw [List.append_nil, h.received, List.take_add_one, hr, List.flatMap_append,
        List.append_assoc, ← h.unread ho, ← hwire]
      simp
    · intro hst
      by_contra hge
      have hlt := Nat.lt_of_not_le hge
      have hbefore := h.records ((hmoved.waits hlt).symm.trans hst)
      omega
    · intro _ hge
      exact hmoved.pushes hge
    · show Rewound c'.conn.reader.buffer
      rw [hbuffer]
      exact rewound_retrieveAll hsize hlast
    · show c'.conn.reader.buffer.readable = []
      rw [hbuffer]
      exact BufferReader.readable_retrieveAll b

/-- **A read that brings a part of a response, when nothing is left to ask.** -/
theorem Tracked.idle {chunk : Chunk} {m : Moment} (h : Tracked p url rs x k part)
    (ho : x.c.conn.isClosed = false) (hg : x.Idle p rs chunk) :
    ∃ c', x.c.handleRead chunk (m.env p) = some c' ∧
      Tracked p url rs ⟨c', x.received ++ chunk.bytes⟩ k (part ++ chunk.bytes) := by
  obtain ⟨hdone, hshort, hlen, hblank⟩ := hg
  rw [h.done] at hdone hshort
  have hrew := h.rewound ho
  have hlt : (x.readable ++ chunk.bytes).length < 6144 := Nat.lt_of_le_of_lt hlen (by decide)
  obtain ⟨b, stale, hb, hri, hwi, hbuf, hnul, hsize, hlast⟩ := hrew.read hlt
  have htext := peekString_read hri hbuf hnul
  have hbytes : b.readableBytes = (x.readable ++ chunk.bytes).length := by
    rw [BufferReader.readableBytes, hri, hwi, Nat.sub_zero]
    rfl
  have hpos : ¬ b.readableBytes = 0 := by
    have := List.length_pos_of_ne_nil chunk.nonempty
    rw [hbytes, List.length_append]
    omega
  have hparse := RtspResponse.parseResponse_absent (r := x.c.response) (l := m.literal) htext
    (hblank _ (by simp [shown, hb, htext]))
  have hstage := stage_received (h.stage ho) b (r := x.c.response) rfl (h.stage ho).cseq rfl rfl
  obtain ⟨c', hc', hlog, hst, hreader, -, hpush, hasked⟩ := hstage.record
    ⟨h.logged.asks, h.logged.cseqs, h.logged.spelled, h.logged.sent⟩ (Nat.le_succ_of_le hdone)
    (m.env p) (Nat.le_refl (k + 1))
  have hbuffer : c'.conn.reader.buffer = b := congrArg RtspReader.buffer hreader
  refine ⟨c', ?_, ?_⟩
  · refine handleRead_eq ho hb hpos hparse hc' ?_
    rw [hbuffer, hbytes]
    exact hlen
  · refine ⟨?_, h.count, ?_, hlog, ?_, fun _ => hdone, fun _ _ => hpush, fun _ => hst, fun _ => ?_,
      fun _ => ?_⟩
    · rw [h.received, List.append_assoc]
    · intro r hr
      rw [← h.unread ho]
      exact hshort r hr
    · show c'.asked.length ≤ k + 1
      rw [hasked]
      exact h.inTime
    · show Rewound c'.conn.reader.buffer
      rw [hbuffer]
      refine ⟨hri, ?_, Or.inr hsize, hlast⟩
      rw [hwi]
      exact hlen
    · show c'.conn.reader.buffer.readable = _
      rw [hbuffer, BufferReader.readable_read hb, ← h.unread ho]
      rfl

/-- One call. -/
theorem Tracked.step {i : PushInput} {x' : Handshake} (h : Tracked p url rs x k part)
    (hs : x.step p rs i = some x') (hg : x.OneByOne p rs i) :
    ∃ k' part', Tracked p url rs x' k' part' := by
  cases i with
  | writable m =>
    obtain rfl := Option.some.inj hs
    obtain ⟨es, hq⟩ := x.c.conn.handleWrite_quiet (m.env p).env
    exact ⟨k, part, h.quiet hq fun n hw => hw.handleWrite _⟩
  | close m =>
    obtain rfl := Option.some.inj hs
    obtain ⟨es, hq⟩ := x.c.conn.close_quiet (m.env p).env
    refine ⟨k, part, h.quiet hq fun n hw => ?_⟩
    rw [PushConnection.close_writeBuffer]
    exact hw
  | recv chunk m =>
    simp only [Handshake.step] at hs
    split at hs
    · simp at hs
    · rename_i ho
      split at hs
      · simp at hs
      · split at hs
        · simp at hs
        · rename_i hlit
          have hopen : x.c.conn.isClosed = false := by simpa using ho
          obtain ⟨c, hc, rfl⟩ := Option.map_eq_some_iff.mp hs
          rcases hg with hg | hg
          · obtain ⟨c', hc', ht⟩ := h.whole hopen (Nat.not_lt.mp hlit) hg
            obtain rfl := Option.some.inj (hc'.symm.trans hc)
            exact ⟨_, _, ht⟩
          · obtain ⟨c', hc', ht⟩ := h.idle (m := m) hopen hg
            obtain rfl := Option.some.inj (hc'.symm.trans hc)
            exact ⟨_, _, ht⟩

theorem tracked_reach {G : Handshake → PushInput → Prop}
    (hG : ∀ x i, G x i → x.OneByOne p rs i) (h : Reach (system p url rs) G x) :
    ∃ k part, Tracked p url rs x k part := by
  refine h.inv (P := fun x => ∃ k part, Tracked p url rs x k part) ?_ ?_
  · rintro s ⟨sockfd, auth, request, method, m, rfl⟩
    exact ⟨0, [], tracked_opened p url rs sockfd auth request method m⟩
  · rintro t i u ⟨k, part, ht⟩ hg hs
    exact ht.step hs (hG t i hg)

/-- **Read response by response, the handshake keeps in step with the server**, and every such read
can be handled. The second half is part of the promise, because a run says nothing of a read that
the pusher has no step for: as long as the connection is open and the bytes are the next ones of the
server, there is a next state. -/
theorem in_step (p : Pushed) (url : Bytes) (rs : List Response) (x : Handshake)
    (h : Reach (system p url rs) (fun x i => x.OneByOne p rs i) x) :
    InStep p url rs x ∧
      ∀ chunk m, x.c.conn.isClosed = false →
        (x.received ++ chunk.bytes).isPrefixOf (rs.flatMap Response.wire) = true →
        x.readable.length + chunk.bytes.length ≤ m.literal →
        x.OneByOne p rs (.recv chunk m) → ∃ x', x.step p rs (.recv chunk m) = some x' := by
  obtain ⟨k, part, ht⟩ := tracked_reach (fun _ _ h => h) h
  refine ⟨ht.inStep, ?_⟩
  intro chunk m ho hpre hlit hg
  obtain ⟨c', hc'⟩ : ∃ c', x.c.handleRead chunk (m.env p) = some c' := by
    rcases hg with hg | hg
    · obtain ⟨c', hc', -⟩ := ht.whole ho hlit hg
      exact ⟨c', hc'⟩
    · obtain ⟨c', hc', -⟩ := ht.idle (m := m) ho hg
      exact ⟨c', hc'⟩
  refine ⟨⟨c', x.received ++ chunk.bytes⟩, ?_⟩
  simp [Handshake.step, ho, List.isPrefixOf_iff_prefix.mp hpre, Nat.not_lt.mpr hlit, hc']

/-! ### Two runs -/

/-- A session with a video and an audio track. -/
def camera : Pushed where
  sessionId := 2
  isMulticast := false
  multicastIp := []
  multicastPort := fun _ => 0
  source := fun chn => some (if chn = .channel0 then ⟨90000, 96⟩ else ⟨8000, 97⟩)
  sdp := ascii "v=0"
  sdp_ne := by decide

/-- The response to the request with this number. -/
def answer (n : Nat) : Response where
  head := ascii "RTSP/1.0 200 OK" ++ crlf ++ ascii "CSeq: " ++ decimal n ++ crlf ++
    ascii "Session: 7"
  body := []
  status := ⟨crlf ++ ascii "CSeq: " ++ decimal n ++ crlf ++ ascii "Session: 7", by
    simp only [List.append_assoc]⟩
  noNul := by
    have hd : (0 : UInt8) ∉ decimal n := not_mem_decimal (by decide)
    simp only [List.mem_append, not_or]
    exact ⟨⟨⟨⟨⟨by decide, by decide⟩, by decide⟩, hd⟩, by decide⟩, by decide⟩

def answers : List Response := [answer 1, answer 2, answer 3, answer 4, answer 5]

/-- A moment at which everything is there and the socket takes nothing. -/
def still : Moment := ⟨true, Env.idle, 2 ^ 47⟩

def openedCamera : Handshake :=
  opened camera (ascii "rtsp://h/live") 5 none (RtspRequest.forLive .none .rtpOverTcp .channel0 [])
    .none still

theorem openedCamera_start :
    (system camera (ascii "rtsp://h/live") answers).start openedCamera :=
  ⟨5, none, _, .none, still, rfl⟩

/-- What a run shows. -/
def summary (x : Handshake) : List (Ask × UInt32) × ConnectionState × Nat :=
  (x.c.asked.map fun a => (a.ask, a.cseq), x.c.connState, x.done answers)

/-- Every response comes in one read. -/
def reads : List PushInput :=
  [.recv ⟨(answer 1).wire, by decide, by decide⟩ still,
    .recv ⟨(answer 2).wire, by decide, by decide⟩ still,
    .recv ⟨(answer 3).wire, by decide, by decide⟩ still,
    .recv ⟨(answer 4).wire, by decide, by decide⟩ still,
    .recv ⟨(answer 5).wire, by decide, by decide⟩ still]

/-- The handshake of a session with two tracks. -/
theorem in_step_five : ∃ x,
    Reach (system camera (ascii "rtsp://h/live") answers) (fun x i => x.OneByOne camera answers i)
      x ∧
    InStep camera (ascii "rtsp://h/live") answers x ∧
    x.summary = ([(.options, 1), (.announce, 2), (.setup .channel0, 3), (.setup .channel1, 4),
      (.record, 5)], .startPush, 5) := by
  obtain ⟨x, hr, hx⟩ := reach_of_runFrom
    (step camera answers)
    (fun x i => x.OneByOne camera answers i) openedCamera
    reads summary ([(.options, 1), (.announce, 2), (.setup .channel0, 3), (.setup .channel1, 4),
      (.record, 5)], .startPush, 5) openedCamera_start (by decide +kernel)
  exact ⟨x, hr, (in_step camera _ answers x hr).1, hx⟩

/-- **The first response in two parts**: with the first part, ANNOUNCE goes out. -/
theorem out_of_step : ∃ x,
    Reach (system camera (ascii "rtsp://h/live") answers) (anyStep _ _) x ∧
      x.summary = ([(.options, 1), (.announce, 1)], .startConnect, 0) ∧
      ¬ InStep camera (ascii "rtsp://h/live") answers x := by
  obtain ⟨x, hr, hx⟩ := reach_of_runFrom
    (step camera answers)
    (anyStep _ _) openedCamera
    [.recv ⟨(answer 1).wire.take 20, by decide, by decide⟩ still] summary
    ([(.options, 1), (.announce, 1)], .startConnect, 0) openedCamera_start (by decide +kernel)
  refine ⟨x, hr, hx, ?_⟩
  intro h
  have hdone : x.done answers = 0 := congrArg (fun s => s.2.2) hx
  have htwo : x.c.asked.length = 2 := by
    have := congrArg (fun s => s.1.length) hx
    simpa [summary] using this
  have hle := h.inTime
  rw [hdone, htwo] at hle
  exact absurd hle (by decide)

end Handshake

end

end Maixii.Xop
