import Maixii.Lib.Run
import Maixii.Xop.RtspConnection

/-!
# `Xop/RtspSteps.lean`: what one call can do

The inversion lemmas that every property of a connection is proved from, so that no later proof
unfolds a handler. Two ideas:

* A call of `HandleWrite` or `Close` is **quiet**: it moves bytes from the send queue to the
  socket, may close the connection, and leaves everything else as it is (`Quiet`).
* A handler first passes the authentication or answers 401, and then does one of a few things
  (`Body`), each followed by something quiet (`handleCommand_cases`).
-/

set_option autoImplicit false

namespace Maixii.Xop

open Maixii.Lib Maixii.Net

/-- The bytes the TCP socket has taken. -/
def writtenBytes (log : List Effect) : Bytes :=
  log.flatMap fun e => match e with
    | .written bs => bs
    | _ => []

@[simp] theorem writtenBytes_append (l m : List Effect) :
    writtenBytes (l ++ m) = writtenBytes l ++ writtenBytes m := List.flatMap_append

theorem writtenBytes_eq_nil {l : List Effect} (h : ∀ e ∈ l, ∀ bs, e ≠ .written bs) :
    writtenBytes l = [] := by
  refine List.flatMap_eq_nil_iff.mpr (fun e he => ?_)
  cases e with
  | written bs => exact absurd rfl (h _ he bs)
  | _ => rfl

/-- What `HandleWrite` and `Close` do to the outside. -/
inductive Plumbing (sockfd : Int) : Effect → Prop
  | written (bs : Bytes) : Plumbing sockfd (.written bs)
  | updated : Plumbing sockfd (.channelUpdated sockfd)
  | removed (fd : Int) : Plumbing sockfd (.channelRemoved fd)
  | clientRemoved (sessionId : Nat) : Plumbing sockfd (.clientRemoved sessionId)

namespace RtspConnection

/-- The connection with its send queue, its closing and its log left open. -/
structure Frame (c c' : RtspConnection) : Prop where
  sockfd : c'.sockfd = c.sockfd
  destroyed : c'.destroyed = c.destroyed
  reader : c'.reader = c.reader
  sessionId : c'.sessionId = c.sessionId
  hasAuth : c'.hasAuth = c.hasAuth
  nonce : c'.nonce = c.nonce
  authInfo : c'.authInfo = c.authInfo
  rtcpChannels : c'.rtcpChannels = c.rtcpChannels
  rtpConn : c'.rtpConn = c.rtpConn
  closures : c'.closures = c.closures

theorem Frame.refl (c : RtspConnection) : Frame c c :=
  ⟨rfl, rfl, rfl, rfl, rfl, rfl, rfl, rfl, rfl, rfl⟩

theorem Frame.trans {c d e : RtspConnection} (h₁ : Frame c d) (h₂ : Frame d e) : Frame c e :=
  ⟨h₂.1.trans h₁.1, h₂.2.trans h₁.2, h₂.3.trans h₁.3, h₂.4.trans h₁.4, h₂.5.trans h₁.5,
    h₂.6.trans h₁.6, h₂.7.trans h₁.7, h₂.8.trans h₁.8, h₂.9.trans h₁.9, h₂.10.trans h₁.10⟩

/-- The connection has closed: its channels are out of the scheduler, and none is put back. -/
structure Closing (c : RtspConnection) (es : List Effect) : Prop where
  updates : ∀ fd, Effect.channelUpdated fd ∉ es
  socket : Effect.channelRemoved c.sockfd ∈ es
  rtcp : ∀ chn fd, c.rtcpChannels chn = some fd → Effect.channelRemoved fd ∈ es

/-- From `c` to `c'` with the effects `es`, bytes went out and the connection may have closed. -/
structure Quiet (c : RtspConnection) (es : List Effect) (c' : RtspConnection) : Prop where
  frame : Frame c c'
  log : c'.log = c.log ++ es
  plumbing : ∀ e ∈ es, Plumbing c.sockfd e
  balance : writtenBytes es ++ c'.writeBuffer.pendingBytes = c.writeBuffer.pendingBytes
  closes : c'.isClosed = c.isClosed ∧ (c.isClosed = true → es = []) ∨
    c'.isClosed = true ∧ ∃ pre post, es = pre ++ post ∧ Closing c post

theorem Quiet.refl (c : RtspConnection) : Quiet c [] c :=
  ⟨Frame.refl c, (List.append_nil _).symm, by simp, rfl, Or.inl ⟨rfl, fun _ => rfl⟩⟩

theorem Quiet.closed_mono {c c' : RtspConnection} {es : List Effect} (h : Quiet c es c')
    (hc : c.isClosed = true) : c'.isClosed = true := by
  rcases h.closes with ⟨he, -⟩ | ⟨he, -⟩
  · rw [he, hc]
  · exact he

theorem mem_channels (chn : MediaChannelId) : chn ∈ channels := by
  cases chn <;> simp [channels]

theorem close_quiet (c : RtspConnection) (env : Env) : ∃ es, Quiet c es (c.close env) := by
  unfold close
  split
  · exact ⟨[], Quiet.refl c⟩
  · -- What a closing connection does: it takes itself and its channels out of the scheduler.
    have hcases : ∀ e ∈ (if c.sessionId = 0 then none
          else env.rtsp.bind fun r => r.lookId c.sessionId).toList.map
            (fun s => Effect.clientRemoved s.sessionId) ++
          channels.flatMap fun chn => (c.rtcpChannels chn).toList.map .channelRemoved,
        (∃ s, e = .clientRemoved s) ∨ ∃ fd, e = .channelRemoved fd := by
      intro e he
      simp only [List.mem_append, List.mem_map, List.mem_flatMap] at he
      rcases he with ⟨s, -, rfl⟩ | ⟨chn, -, fd, -, rfl⟩
      · exact Or.inl ⟨_, rfl⟩
      · exact Or.inr ⟨_, rfl⟩
    simp only [onClose, emit, List.append_assoc]
    refine ⟨_, ⟨⟨rfl, rfl, rfl, rfl, rfl, rfl, rfl, rfl, rfl, rfl⟩, rfl, ?_, ?_,
      Or.inr ⟨rfl, [], _, rfl, ?_, List.mem_cons_self, ?_⟩⟩⟩
    · intro e he
      rcases List.mem_cons.mp he with rfl | he
      · exact .removed _
      · rcases hcases e he with ⟨s, rfl⟩ | ⟨fd, rfl⟩
        · exact .clientRemoved s
        · exact .removed fd
    · rw [writtenBytes_eq_nil, List.nil_append]
      intro e he bs
      rcases List.mem_cons.mp he with rfl | he
      · simp
      · rcases hcases e he with ⟨s, rfl⟩ | ⟨fd, rfl⟩ <;> simp
    · intro fd he
      rcases List.mem_cons.mp he with h | he
      · simp at h
      · rcases hcases _ he with ⟨s, h⟩ | ⟨fd, h⟩ <;> simp at h
    · intro chn fd hfd
      have hmem : Effect.channelRemoved fd ∈
          channels.flatMap fun chn => (c.rtcpChannels chn).toList.map .channelRemoved :=
        List.mem_flatMap.mpr ⟨chn, mem_channels chn, by simp [hfd]⟩
      exact List.mem_cons_of_mem _ (List.mem_append_right [] (List.mem_append_right _ hmem))

/-- Bytes taken from the queue, before what follows from it. -/
theorem Quiet.after_write {c c' : RtspConnection} {w : BufferWriter} {out : Bytes}
    {es : List Effect} (ho : ¬ c.isClosed = true)
    (hbal : out ++ w.pendingBytes = c.writeBuffer.pendingBytes)
    (h : Quiet ({ c with writeBuffer := w }.emit [.written out]) es c') :
    Quiet c (.written out :: es) c' := by
  have hf := h.frame
  refine ⟨⟨hf.1, hf.2, hf.3, hf.4, hf.5, hf.6, hf.7, hf.8, hf.9, hf.10⟩, ?_, ?_, ?_, ?_⟩
  · rw [h.log]
    simp [emit]
  · intro e he
    rcases List.mem_cons.mp he with rfl | he
    · exact .written _
    · exact h.plumbing e he
  · have hb : writtenBytes es ++ c'.writeBuffer.pendingBytes = w.pendingBytes := h.balance
    show (out ++ writtenBytes es) ++ _ = _
    rw [List.append_assoc, hb, hbal]
  · rcases h.closes with ⟨he, -⟩ | ⟨he, pre, post, hes, hc⟩
    · exact Or.inl ⟨he, fun hc => absurd hc ho⟩
    · exact Or.inr ⟨he, .written out :: pre, post, by rw [hes]; rfl, hc.1, hc.2, hc.3⟩

theorem update_quiet (c : RtspConnection) (b : Bool) (ho : ¬ c.isClosed = true) :
    Quiet c [.channelUpdated c.sockfd] ({ c with isWriting := b }.emit [.channelUpdated c.sockfd]) :=
  ⟨⟨rfl, rfl, rfl, rfl, rfl, rfl, rfl, rfl, rfl, rfl⟩, rfl,
    by simpa using Plumbing.updated, rfl, Or.inl ⟨rfl, fun hc => absurd hc ho⟩⟩

theorem handleWrite_quiet (c : RtspConnection) (env : Env) :
    ∃ es, Quiet c es (c.handleWrite env) := by
  unfold handleWrite
  split
  · exact ⟨[], Quiet.refl c⟩
  · rename_i ho
    cases env.writes with
    | none => exact ⟨[], Quiet.refl c⟩
    | some results =>
      dsimp only
      have hbal := c.writeBuffer.send_balance results
      split
      · obtain ⟨es, hq⟩ := close_quiet
          ({ c with writeBuffer := (c.writeBuffer.send results).2.1 }.emit
            [.written (c.writeBuffer.send results).2.2]) env
        exact ⟨_, Quiet.after_write ho hbal hq⟩
      · split
        · split
          · exact ⟨_, Quiet.after_write ho hbal (update_quiet _ false ho)⟩
          · exact ⟨_, Quiet.after_write ho hbal (Quiet.refl _)⟩
        · split
          · exact ⟨_, Quiet.after_write ho hbal (Quiet.refl _)⟩
          · exact ⟨_, Quiet.after_write ho hbal (update_quiet _ true ho)⟩

/-- Whether `Send` gets the bytes into the queue. -/
def takes (c : RtspConnection) (bytes : Bytes) : Bool :=
  !c.isClosed && (c.writeBuffer.append bytes 0).1

/-- `Send` up to `HandleWrite`. -/
def queue (c : RtspConnection) (bytes : Bytes) (note : Bool → Effect) : RtspConnection :=
  { c with writeBuffer := if c.isClosed then c.writeBuffer
                          else (c.writeBuffer.append bytes 0).2 }.emit [note (c.takes bytes)]

theorem send_eq (c : RtspConnection) (env : Env) (bytes : Bytes) (note : Bool → Effect) :
    c.send env bytes note = (c.queue bytes note).handleWrite env := by
  cases h : c.isClosed with
  | true => simp [send, queue, takes, h, handleWrite, emit]
  | false => simp [send, queue, takes, h, emit]

theorem send_quiet (c : RtspConnection) (env : Env) (bytes : Bytes) (note : Bool → Effect) :
    ∃ es, Quiet (c.queue bytes note) es (c.send env bytes note) := by
  rw [send_eq]
  exact handleWrite_quiet _ env

/-- What waits after `Send` has queued its bytes. -/
theorem pendingBytes_queue (c : RtspConnection) (bytes : Bytes) (note : Bool → Effect) :
    (c.queue bytes note).writeBuffer.pendingBytes =
      c.writeBuffer.pendingBytes ++ if c.takes bytes then bytes else [] := by
  cases h : c.isClosed with
  | true => simp [queue, takes, h, emit]
  | false => simp [queue, takes, h, emit, BufferWriter.pendingBytes_append]

/-! ## What a handler can do -/

/-- A text that answers the request: one of the server's responses, with the request's `CSeq` as
`%d` (`signed`) or `%u` prints it. -/
def Answers (req : RtspRequest) (signed : Bool) (res : Bytes) : Prop :=
  ∃ size status headers body, 2048 ≤ size ∧ (∀ b ∈ status, b ≠ 0 ∧ b ≠ 13) ∧
    status.length ≤ 26 ∧
    res = RtspRequest.snprintf size (RtspRequest.response status
      (if signed then RtspRequest.signedDecimal req.getCSeq else decimal req.getCSeq) headers body)

/-- The authentication lets the handler go on from `d`. -/
inductive Passed (c : RtspConnection) (req : RtspRequest) : RtspConnection → Prop
  | free (h : c.authInfo = none ∨ c.hasAuth = true) : Passed c req c
  | now {auth : DigestAuthentication} (ha : c.authInfo = some auth) (hh : c.hasAuth = false)
      (hn : c.nonce ≠ [])
      (he : auth.getResponse c.nonce req.method.toBytes req.getRtspUrl = req.authResponse) :
      Passed c req ({ c with nonce := [], hasAuth := true }.emit [.authorized req c.nonce])

/-- The same as a test. -/
def passes (c : RtspConnection) (req : RtspRequest) : Bool :=
  match c.authInfo with
  | none => true
  | some auth => c.hasAuth || (decide (c.nonce ≠ []) &&
      decide (auth.getResponse c.nonce req.method.toBytes req.getRtspUrl = req.authResponse))

theorem Passed.passes {c d : RtspConnection} {req : RtspRequest} (h : Passed c req d) :
    c.passes req = true := by
  unfold RtspConnection.passes
  cases h with
  | free h =>
    rcases h with h | h
    · simp [h]
    · cases c.authInfo <;> simp [h]
  | now ha hh hn he => simp [ha, hn, he]

/-- A response goes out. -/
inductive Sent (c : RtspConnection) (env : Env) (req : RtspRequest) (signed : Bool) :
    RtspConnection → Prop
  | intro {res : Bytes} {es : List Effect} {c' : RtspConnection} (ha : Answers req signed res)
      (hc : c' = c.sendRtspMessage env res) (hq : Quiet (c.queue res (.responded res)) es c') :
      Sent c env req signed c'

theorem sendRtspMessage_sent {c : RtspConnection} {env : Env} {req : RtspRequest} {signed : Bool}
    {res : Bytes} (ha : Answers req signed res) :
    Sent c env req signed (c.sendRtspMessage env res) := by
  obtain ⟨es, hq⟩ := c.send_quiet env res (.responded res)
  exact .intro ha rfl hq

/-- The responses of the handlers: the status is short, and stays on its line. -/
theorem response_sent {c : RtspConnection} {env : Env} {req : RtspRequest} {signed : Bool}
    {res : Bytes} (size : Nat) (status : Bytes) (headers : List Bytes) (body : Bytes)
    (hstatus : 2048 ≤ size ∧ status.all (fun b => decide (b ≠ 0 ∧ b ≠ 13)) = true ∧
      status.length ≤ 26)
    (hres : res = RtspRequest.snprintf size (RtspRequest.response status
      (if signed then RtspRequest.signedDecimal req.getCSeq else decimal req.getCSeq) headers
      body)) :
    Sent c env req signed (c.sendRtspMessage env res) := by
  obtain ⟨hsize, hplain, hshort⟩ := hstatus
  exact sendRtspMessage_sent
    ⟨size, status, headers, body, hsize, forall_mem_of_all hplain, hshort, hres⟩

/-- What a handler does once it may: `c` to `c'`. -/
inductive Body (c : RtspConnection) (env : Env) (req : RtspRequest) : RtspConnection → Prop
  /-- Nothing, and no response. -/
  | ignored (h : c.rtpConn = none ∧ (req.method = .play ∨ req.method = .teardown ∨
      req.method = .getParameter) ∨ req.method = .rtcp ∨ req.method = .none) :
      Body c env req c
  | options {c'} (hm : req.method = .options) (hs : Sent c env req false c') : Body c env req c'
  | notFound {c'} (hm : req.method = .describe)
      (hl : (env.rtsp.bind fun r => r.lookSuffix req.getRtspUrlSuffix) = none)
      (hs : Sent { c with rtpConn := some (c.rtpConn.getD (RtpConnection.new env.seed)) }
        env req false c') : Body c env req c'
  | described {c'} {session : MediaSession} {es : List Effect} (hm : req.method = .describe)
      (hl : (env.rtsp.bind fun r => r.lookSuffix req.getRtspUrlSuffix) = some session)
      (hes : es = [] ∧ session.sdp = [] ∨ es = [.described session.sdp] ∧ session.sdp ≠ [])
      (hs : Sent ({ c with
          sessionId := session.sessionId
          rtpConn := some (describeSources (c.rtpConn.getD (RtpConnection.new env.seed)) session)
          }.emit (.clientAdded session.sessionId :: es)) env req false c') : Body c env req c'
  /-- A SETUP refused before anything was touched. -/
  | unsupported {c'} {session : MediaSession} (hm : req.method = .setup)
      (hl : (env.rtsp.bind fun r => r.lookId c.sessionId) = some session)
      (ht : session.isMulticast = true ∧ req.transport ≠ .rtpOverMulticast ∨
        session.isMulticast = false ∧ req.transport = .rtpOverMulticast)
      (hs : Sent c env req true c') : Body c env req c'
  | noSession {c'} (hm : req.method = .setup)
      (hl : (env.rtsp.bind fun r => r.lookId c.sessionId) = none)
      (hs : Sent c env req false c') : Body c env req c'
  | multicast {c'} {session : MediaSession} {rtp rtp' : RtpConnection} {ok : Bool}
      {ops : List FdOp} (hm : req.method = .setup)
      (hl : (env.rtsp.bind fun r => r.lookId c.sessionId) = some session)
      (ht : session.isMulticast = true ∧ req.transport = .rtpOverMulticast)
      (hr : c.rtpConn = some rtp)
      (hset : rtp.setupRtpOverMulticast env.attempts req.channelId session.multicastIp
        (session.multicastPort req.channelId) = (ok, rtp', ops))
      (hs : Sent ({ c with rtpConn := some rtp' }.emit
        (ops.map Effect.fd ++ if ok then [Effect.setUp req.channelId
            (.datagrams (rtp'.rtpfd req.channelId) none
              ⟨session.multicastIp, session.multicastPort req.channelId⟩)]
          else [Effect.exhausted req.channelId false])) env req false c') :
      Body c env req c'
  | tcp {c'} {session : MediaSession} {rtp : RtpConnection} (hm : req.method = .setup)
      (hl : (env.rtsp.bind fun r => r.lookId c.sessionId) = some session)
      (ht : session.isMulticast = false ∧ req.transport = .rtpOverTcp)
      (hr : c.rtpConn = some rtp)
      (hs : Sent ({ c with rtpConn := some (rtp.setupRtpOverTcp c.sockfd req.channelId
          req.getRtpChannel req.getRtcpChannel) }.emit
            [.setUp req.channelId (.interleaved req.getRtpChannel)]) env req false c') :
      Body c env req c'
  | udp {c'} {session : MediaSession} {rtp rtp' : RtpConnection} {ops : List FdOp}
      (hm : req.method = .setup)
      (hl : (env.rtsp.bind fun r => r.lookId c.sessionId) = some session)
      (ht : session.isMulticast = false ∧ req.transport = .rtpOverUdp)
      (hr : c.rtpConn = some rtp)
      (hset : rtp.setupRtpOverUdp env.peerAddr env.attempts req.channelId req.getRtpPort
        req.getRtcpPort = (true, rtp', ops))
      (hs : Sent ({ c with
          rtpConn := some rtp'
          rtcpChannels := Function.update c.rtcpChannels req.channelId
            (some (rtp'.rtcpfd req.channelId)) }.emit
        (ops.map Effect.fd ++
          [Effect.channelUpdated (rtp'.rtcpfd req.channelId), Effect.setUp req.channelId
            (.datagrams (rtp'.rtpfd req.channelId) (some (rtp'.rtcpfd req.channelId))
              ⟨env.peerAddr.getD [], req.getRtpPort⟩)]))
        env req false c') : Body c env req c'
  | udpFailed {c'} {session : MediaSession} {rtp rtp' : RtpConnection} {ops : List FdOp}
      (hm : req.method = .setup)
      (hl : (env.rtsp.bind fun r => r.lookId c.sessionId) = some session)
      (ht : session.isMulticast = false ∧ req.transport = .rtpOverUdp)
      (hr : c.rtpConn = some rtp)
      (hset : rtp.setupRtpOverUdp env.peerAddr env.attempts req.channelId req.getRtpPort
        req.getRtcpPort = (false, rtp', ops))
      (hs : Sent ({ c with rtpConn := some rtp' }.emit
        (ops.map Effect.fd ++ if env.peerAddr.isSome then
          [Effect.exhausted req.channelId (env.attempts.1.any Attempt.rtpBound)] else []))
        env req false c') : Body c env req c'
  | played {c'} {rtp : RtpConnection} (hm : req.method = .play) (hr : c.rtpConn = some rtp)
      (hs : Sent ({ c with rtpConn := some rtp.play }.emit [.played]) env req true c') :
      Body c env req c'
  | tornDown {c'} {rtp : RtpConnection} (hm : req.method = .teardown) (hr : c.rtpConn = some rtp)
      (hs : Sent { c with rtpConn := some rtp.teardown } env req true c') : Body c env req c'
  | parameter {c'} {rtp : RtpConnection} (hm : req.method = .getParameter)
      (hr : c.rtpConn = some rtp) (hs : Sent c env req true c') : Body c env req c'

/-- What `handleAuthentication` can answer. -/
theorem handleAuthentication_cases (c : RtspConnection) (env : Env) (req : RtspRequest) :
    (∃ d, c.handleAuthentication env req = (true, d) ∧ Passed c req d) ∨
    ∃ auth d, c.handleAuthentication env req = (false, d) ∧ c.authInfo = some auth ∧
      c.hasAuth = false ∧
      ¬ (c.nonce ≠ [] ∧
        auth.getResponse c.nonce req.method.toBytes req.getRtspUrl = req.authResponse) ∧
      Sent ({ c with nonce := env.nonce }.emit [.challenged env.nonce]) env req true d := by
  cases ha : c.authInfo with
  | none => exact Or.inl ⟨c, by simp [handleAuthentication, ha], .free (Or.inl ha)⟩
  | some auth =>
    cases hh : c.hasAuth with
    | true => exact Or.inl ⟨c, by simp [handleAuthentication, ha, hh], .free (Or.inr hh)⟩
    | false =>
      by_cases hok : c.nonce ≠ [] ∧
          auth.getResponse c.nonce req.method.toBytes req.getRtspUrl = req.authResponse
      · exact Or.inl ⟨_, by simp [handleAuthentication, ha, hh, hok], .now ha hh hok.1 hok.2⟩
      · refine Or.inr ⟨auth, _, by simp only [handleAuthentication, ha, hh, if_neg hok]; rfl, rfl,
          rfl, hok, response_sent 4096 (ascii "401 Unauthorized") _ [] (by decide) rfl⟩

/-- The handler's way in: those that authenticate pass, the others just enter. -/
def Entered (c : RtspConnection) (req : RtspRequest) (d : RtspConnection) : Prop :=
  if RtspRequest.authenticates req.method then Passed (c.emit [.dispatched req]) req d
  else d = c.emit [.dispatched req]

/-- The way in leaves its mark in the log, and may use the nonce up. -/
theorem Entered.eq {c d : RtspConnection} {req : RtspRequest} (h : Entered c req d) :
    ∃ nonce hasAuth es, d = { c with nonce := nonce, hasAuth := hasAuth }.emit
      (.dispatched req :: es) ∧ ∀ e ∈ es, ∃ n, e = .authorized req n := by
  unfold Entered at h
  split at h
  · cases h with
    | free _ => exact ⟨c.nonce, c.hasAuth, [], rfl, by simp⟩
    | now _ _ _ _ => exact ⟨[], true, [.authorized req c.nonce], by simp [emit], by simp⟩
  · exact ⟨c.nonce, c.hasAuth, [], h, by simp⟩

/-- A SETUP gets as far as its channel: it passes the authentication, finds the session with the
transport it asks for, and for UDP the address of the peer. -/
def carriedOut (c : RtspConnection) (env : Env) (req : RtspRequest) : Bool :=
  decide (req.method = .setup) && c.passes req &&
    (match env.rtsp.bind fun r => r.lookId c.sessionId with
      | none => false
      | some session => decide (session.isMulticast = true ↔ req.transport = .rtpOverMulticast)) &&
    decide (req.transport = .rtpOverUdp → env.peerAddr.isSome = true)

theorem Entered.carriedOut {c d : RtspConnection} {env : Env} {req : RtspRequest}
    {session : MediaSession} (h : Entered c req d) (hm : req.method = .setup)
    (hl : (env.rtsp.bind fun r => r.lookId d.sessionId) = some session)
    (ht : session.isMulticast = true ↔ req.transport = .rtpOverMulticast)
    (hp : req.transport = .rtpOverUdp → env.peerAddr.isSome = true) :
    c.carriedOut env req = true := by
  have hs : d.sessionId = c.sessionId := by
    obtain ⟨_, _, _, rfl, -⟩ := h.eq
    rfl
  have hpass : c.passes req = true := by
    rw [Entered, if_pos (by rw [hm]; rfl)] at h
    exact h.passes
  rw [hs] at hl
  simp only [RtspConnection.carriedOut, hm, hpass, hl, ht, decide_eq_true_eq, decide_true,
    Bool.and_true, Bool.true_and]
  exact hp

/-- The way in is barred: a 401 with a new nonce. -/
def Challenged (c : RtspConnection) (env : Env) (req : RtspRequest) (c' : RtspConnection) : Prop :=
  ∃ auth, c.authInfo = some auth ∧ c.hasAuth = false ∧
    RtspRequest.authenticates req.method = true ∧
    ¬ (c.nonce ≠ [] ∧
      auth.getResponse c.nonce req.method.toBytes req.getRtspUrl = req.authResponse) ∧
    Sent ({ c with nonce := env.nonce }.emit [.dispatched req, .challenged env.nonce]) env req true c'

theorem describe_body {c : RtspConnection} {env : Env} {req : RtspRequest}
    (hm : req.method = .describe) : Body c env req (c.describe env req) := by
  unfold describe
  dsimp only
  split
  · rename_i hl
    exact .notFound hm hl (response_sent 4096 (ascii "404 Stream Not Found") [] [] (by decide) rfl)
  · rename_i session hl
    split
    · rename_i hsdp
      exact .described hm hl (Or.inl ⟨rfl, hsdp⟩)
        (response_sent 4096 (ascii "500 Internal Server Error") [] [] (by decide) rfl)
    · rename_i hsdp
      refine .described hm hl (Or.inr ⟨rfl, hsdp⟩) ?_
      have he : ∀ x : RtspConnection, (x.emit [.clientAdded session.sessionId]).emit
          [.described session.sdp] =
          x.emit [.clientAdded session.sessionId, .described session.sdp] := by
        intro x
        simp [emit]
      rw [he]
      exact response_sent 4096 RtspRequest.ok _ _ (by decide) rfl

theorem emit_emit (c : RtspConnection) (es fs : List Effect) :
    (c.emit es).emit fs = c.emit (es ++ fs) := by
  simp [emit]

theorem serverError_sent (c : RtspConnection) (env : Env) (req : RtspRequest) :
    Sent c env req false (c.serverError env req) :=
  response_sent 4096 (ascii "500 Internal Server Error") [] [] (by decide) rfl

theorem transportUnsupport_sent (c : RtspConnection) (env : Env) (req : RtspRequest) :
    Sent c env req true (c.transportUnsupport env req) :=
  response_sent 4096 (ascii "461 Unsupported transport") [] [] (by decide) rfl

theorem setup_body {c c' : RtspConnection} {env : Env} {req : RtspRequest}
    (hm : req.method = .setup) (h : c.setup env req = some c') : Body c env req c' := by
  unfold setup at h
  split at h
  · rename_i hl
    simp only [Option.some.injEq] at h
    exact .noSession hm hl (h ▸ serverError_sent c env req)
  · rename_i session hl
    cases hmc : session.isMulticast with
    | true =>
      simp only [hmc, if_true] at h
      split at h
      · rename_i ht
        simp only [Option.map_eq_some_iff] at h
        obtain ⟨rtp, hr, h⟩ := h
        unfold setupMulticast at h
        dsimp only at h
        split at h
        · rename_i rtp' ops hset
          refine .multicast hm hl ⟨hmc, ht⟩ hr hset ?_
          rw [← h]
          exact serverError_sent _ env req
        · rename_i rtp' ops hset
          refine .multicast hm hl ⟨hmc, ht⟩ hr hset ?_
          rw [← h, setupDone, emit_emit]
          exact response_sent 4096 RtspRequest.ok _ [] (by decide) rfl
      · rename_i ht
        simp only [Option.some.injEq] at h
        exact .unsupported hm hl (Or.inl ⟨hmc, ht⟩) (h ▸ transportUnsupport_sent c env req)
    | false =>
      simp only [hmc, Bool.false_eq_true, if_false] at h
      cases ht : req.transport with
      | rtpOverTcp =>
        simp only [ht, Option.map_eq_some_iff] at h
        obtain ⟨rtp, hr, h⟩ := h
        refine .tcp hm hl ⟨hmc, ht⟩ hr ?_
        rw [← h, setupTcp, setupDone]
        exact response_sent 4096 RtspRequest.ok _ [] (by decide) rfl
      | rtpOverUdp =>
        simp only [ht, Option.map_eq_some_iff] at h
        obtain ⟨rtp, hr, h⟩ := h
        unfold setupUdp at h
        dsimp only at h
        split at h
        · rename_i rtp' ops hset
          refine .udpFailed hm hl ⟨hmc, ht⟩ hr hset ?_
          rw [← h]
          exact serverError_sent _ env req
        · rename_i rtp' ops hset
          refine .udp hm hl ⟨hmc, ht⟩ hr hset ?_
          rw [← h, setupDone, emit_emit, List.append_assoc]
          exact response_sent 4096 RtspRequest.ok _ [] (by decide) rfl
      | rtpOverMulticast =>
        simp only [ht, Option.some.injEq] at h
        exact .unsupported hm hl (Or.inr ⟨hmc, ht⟩) (h ▸ transportUnsupport_sent c env req)

theorem play_body {c : RtspConnection} {env : Env} {req : RtspRequest} (hm : req.method = .play) :
    Body c env req (c.play env req) := by
  unfold play
  cases hr : c.rtpConn with
  | none => exact .ignored (Or.inl ⟨hr, Or.inl hm⟩)
  | some rtp =>
    exact .played hm hr (response_sent 2048 RtspRequest.ok _ [] (by decide) rfl)

/-- **Every handler**: a 401, or the way in and then its body. -/
theorem handleCommand_cases {c c' : RtspConnection} {env : Env} {req : RtspRequest}
    (h : c.handleCommand env req = some c') :
    Challenged c env req c' ∨ ∃ d, Entered c req d ∧ Body d env req c' := by
  have hauth : ∀ body : RtspConnection → Option RtspConnection,
      RtspRequest.authenticates req.method = true →
      (∀ d d', body d = some d' → Body d env req d') →
      (if ((c.emit [.dispatched req]).handleAuthentication env req).1 then
        body ((c.emit [.dispatched req]).handleAuthentication env req).2
      else some ((c.emit [.dispatched req]).handleAuthentication env req).2) = some c' →
      Challenged c env req c' ∨ ∃ d, Entered c req d ∧ Body d env req c' := by
    intro body hm hbody h
    rcases (c.emit [.dispatched req]).handleAuthentication_cases env req with
      ⟨d, hd, hp⟩ | ⟨auth, d, hd, ha, hh, hno, hs⟩
    · rw [hd] at h
      exact Or.inr ⟨d, by rw [Entered, if_pos hm]; exact hp, hbody d c' h⟩
    · rw [hd] at h
      cases Option.some.inj h
      refine Or.inl ⟨auth, ha, hh, hm, hno, ?_⟩
      simpa [emit] using hs
  have henter : RtspRequest.authenticates req.method = false →
      Body (c.emit [.dispatched req]) env req c' →
      Challenged c env req c' ∨ ∃ d, Entered c req d ∧ Body d env req c' := by
    intro hm hb
    exact Or.inr ⟨_, by rw [Entered, if_neg (by simp [hm])], hb⟩
  unfold handleCommand at h
  cases hm : req.method with
  | options =>
    simp only [hm, Option.some.injEq] at h
    refine henter (by rw [hm]; rfl) (.options hm ?_)
    rw [← h]
    exact response_sent 2048 RtspRequest.ok _ [] (by decide) rfl
  | describe =>
    refine hauth (fun d => some (d.describe env req)) (by rw [hm]; rfl) ?_ ?_
    · intro d d' hd
      simp only [Option.some.injEq] at hd
      exact hd ▸ describe_body hm
    · simp only [hm, handleCmdDescribe] at h
      rw [← h]
      rcases (c.emit [.dispatched req]).handleAuthentication env req with ⟨_ | _, d⟩ <;> rfl
  | setup =>
    refine hauth (fun d => d.setup env req) (by rw [hm]; rfl)
      (fun d d' hd => setup_body hm hd) ?_
    simp only [hm, handleCmdSetup] at h
    refine Eq.trans ?_ h
    rcases (c.emit [.dispatched req]).handleAuthentication env req with ⟨_ | _, d⟩ <;> rfl
  | play =>
    refine hauth (fun d => some (d.play env req)) (by rw [hm]; rfl) ?_ ?_
    · intro d d' hd
      simp only [Option.some.injEq] at hd
      exact hd ▸ play_body hm
    · simp only [hm, handleCmdPlay] at h
      rw [← h]
      rcases (c.emit [.dispatched req]).handleAuthentication env req with ⟨_ | _, d⟩ <;> rfl
  | teardown =>
    simp only [hm, Option.some.injEq] at h
    refine henter (by rw [hm]; rfl) ?_
    rw [← h, handleCmdTeardown]
    cases hr : (c.emit [.dispatched req]).rtpConn with
    | none => exact .ignored (Or.inl ⟨hr, Or.inr (Or.inl hm)⟩)
    | some rtp =>
      exact .tornDown hm hr (response_sent 2048 RtspRequest.ok _ [] (by decide) rfl)
  | getParameter =>
    simp only [hm, Option.some.injEq] at h
    refine henter (by rw [hm]; rfl) ?_
    rw [← h, handleCmdGetParamter]
    cases hr : (c.emit [.dispatched req]).rtpConn with
    | none => exact .ignored (Or.inl ⟨hr, Or.inr (Or.inr hm)⟩)
    | some rtp =>
      exact .parameter hm hr (response_sent 2048 RtspRequest.ok _ [] (by decide) rfl)
  | rtcp =>
    simp only [hm, Option.some.injEq] at h
    exact henter (by rw [hm]; rfl) (h ▸ .ignored (Or.inr (Or.inl hm)))
  | none =>
    simp only [hm, Option.some.injEq] at h
    exact henter (by rw [hm]; rfl) (h ▸ .ignored (Or.inr (Or.inr hm)))

/-! ## What a handler leaves alone -/

/-- A response changes nothing but the send queue and the log. -/
theorem Sent.log {c c' : RtspConnection} {env : Env} {req : RtspRequest} {signed : Bool}
    (h : Sent c env req signed c') :
    Frame c c' ∧ ∃ res es, c'.log = c.log ++ .responded res (c.takes res) :: es ∧
      ∀ e ∈ es, Plumbing c.sockfd e := by
  obtain @⟨res, es, _, -, -, hq⟩ := h
  have hf := hq.frame
  refine ⟨⟨hf.1, hf.2, hf.3, hf.4, hf.5, hf.6, hf.7, hf.8, hf.9, hf.10⟩, res, es, ?_, hq.plumbing⟩
  rw [hq.log]
  simp [queue, emit]

/-- Past the authentication, a handler changes the session and the channels only, and what it
does to the outside is no part of the authentication. -/
structure Kept (c c' : RtspConnection) : Prop where
  sockfd : c'.sockfd = c.sockfd
  destroyed : c'.destroyed = c.destroyed
  reader : c'.reader = c.reader
  hasAuth : c'.hasAuth = c.hasAuth
  nonce : c'.nonce = c.nonce
  authInfo : c'.authInfo = c.authInfo
  closures : c'.closures = c.closures
  log : ∃ es, c'.log = c.log ++ es ∧ ∀ e ∈ es, (∀ req n, e ≠ .authorized req n) ∧
    (∀ n, e ≠ .challenged n) ∧ ∀ req, e ≠ .dispatched req

theorem not_auth_of_plumbing {fd : Int} {e : Effect} (h : Plumbing fd e) :
    (∀ req n, e ≠ .authorized req n) ∧ (∀ n, e ≠ .challenged n) ∧ ∀ req, e ≠ .dispatched req := by
  cases h <;> simp

theorem emit_nil (c : RtspConnection) : c.emit [] = c := by
  simp [emit]

/-- Changes of the session and the channels, some effects, and then a response. -/
theorem Sent.kept {c c' : RtspConnection} {env : Env} {req : RtspRequest} {signed : Bool}
    {sessionId : Nat} {rtcp : MediaChannelId → Option Int} {rtp : Option RtpConnection}
    {es : List Effect} (h : Sent ({ c with sessionId := sessionId, rtcpChannels := rtcp, rtpConn := rtp }.emit es)
      env req signed c')
    (hes : ∀ e ∈ es, (∀ req n, e ≠ .authorized req n) ∧ (∀ n, e ≠ .challenged n) ∧
      ∀ req, e ≠ .dispatched req) : Kept c c' := by
  obtain ⟨hf, res, fs, hl, hp⟩ := h.log
  refine ⟨hf.1, hf.2, hf.3, hf.5, hf.6, hf.7, hf.10, _, hl.trans (List.append_assoc _ _ _), ?_⟩
  intro e he
  rcases List.mem_append.mp he with he | he
  · exact hes e he
  · rcases List.mem_cons.mp he with rfl | he
    · simp
    · exact not_auth_of_plumbing (hp e he)

theorem Body.kept {c c' : RtspConnection} {env : Env} {req : RtspRequest}
    (h : Body c env req c') : Kept c c' := by
  have hplain : ∀ {x : RtspConnection} {signed : Bool}, Sent c env req signed x → Kept c x := by
    intro x signed hs
    rw [← emit_nil c] at hs
    exact hs.kept (by simp)
  cases h with
  | ignored _ =>
    exact ⟨rfl, rfl, rfl, rfl, rfl, rfl, rfl, [], by simp, by simp⟩
  | options _ hs | unsupported _ _ _ hs | noSession _ _ hs | parameter _ _ hs => exact hplain hs
  | notFound _ _ hs =>
    rw [← emit_nil { c with rtpConn := _ }] at hs
    exact hs.kept (by simp)
  | described _ _ hes hs =>
    refine hs.kept ?_
    rcases hes with ⟨rfl, -⟩ | ⟨rfl, -⟩ <;> simp
  | multicast _ _ _ _ _ hs =>
    refine hs.kept (fun e he => ?_)
    rcases List.mem_append.mp he with he | he
    · obtain ⟨op, -, rfl⟩ := List.mem_map.mp he
      simp
    · split at he <;> simp at he <;> subst he <;> simp
  | tcp _ _ _ _ hs => exact hs.kept (by simp)
  | udp _ _ _ _ _ hs =>
    refine hs.kept (fun e he => ?_)
    rcases List.mem_append.mp he with he | he
    · obtain ⟨op, -, rfl⟩ := List.mem_map.mp he
      simp
    · simp only [List.mem_cons, List.not_mem_nil, or_false] at he
      rcases he with rfl | rfl <;> simp
  | udpFailed _ _ _ _ _ hs =>
    refine hs.kept (fun e he => ?_)
    rcases List.mem_append.mp he with he | he
    · obtain ⟨op, -, rfl⟩ := List.mem_map.mp he
      simp
    · split at he <;> simp at he
      subst he
      simp
  | played _ _ hs => exact hs.kept (by simp)
  | tornDown _ _ hs =>
    rw [← emit_nil { c with rtpConn := _ }] at hs
    exact hs.kept (by simp)

/-! ## The other calls -/

/-- The oldest closure: nothing is sent, or a frame is queued, or a datagram goes out. -/
theorem runClosure_cases {c c' : RtspConnection} {data : PacketData} {env : Env}
    (h : c.runClosure data env = some c') :
    ∃ chn pkt rest rtp rtp' out, c.closures = (chn, pkt) :: rest ∧ c.rtpConn = some rtp ∧
      rtp.sendPacket chn pkt data = (rtp', out) ∧
      (out.2 = none ∧ c' = { c with closures := rest, rtpConn := some rtp' } ∨
      (∃ bytes es, out.2 = some (.tcp bytes) ∧
        Quiet ({ c with closures := rest, rtpConn := some rtp' }.queue bytes (.framed chn bytes))
          es c') ∨
      ∃ fd peer bytes, out.2 = some (.udp fd peer bytes) ∧
        c' = { c with
          closures := rest
          rtpConn := some (if env.sendto then rtp' else rtp'.teardown) }.emit
            [.sentTo chn fd peer bytes]) := by
  unfold runClosure at h
  split at h
  · rename_i chn pkt rest rtp hc hr
    refine ⟨chn, pkt, rest, rtp, (rtp.sendPacket chn pkt data).1, (rtp.sendPacket chn pkt data).2,
      hc, hr, rfl, ?_⟩
    dsimp only at h
    split at h
    · rename_i rtp' d' hs
      rw [hs]
      exact Or.inl ⟨rfl, (Option.some.inj h).symm⟩
    · rename_i rtp' d' bytes hs
      rw [hs]
      simp only [Option.some.injEq] at h
      obtain ⟨es, hq⟩ := send_quiet ({ c with closures := rest, rtpConn := some rtp' }) env bytes
        (.framed chn bytes)
      exact Or.inr (Or.inl ⟨bytes, es, rfl, h ▸ hq⟩)
    · rename_i rtp' d' fd peer bytes hs
      rw [hs]
      exact Or.inr (Or.inr ⟨fd, peer, bytes, rfl, (Option.some.inj h).symm⟩)
  · simp at h

/-- `SendRtpPacket` queues a closure or does nothing. -/
theorem sendRtpPacket_cases {c c' : RtspConnection} {chn : MediaChannelId} {pkt : RtpPacket}
    {taken : Bool} (h : c.sendRtpPacket chn pkt taken = some c') :
    ∃ rtp, c.rtpConn = some rtp ∧
      (c' = c ∨ c' = { c with closures := c.closures ++ [(chn, pkt)] } ∧ rtp.isClosed = false) := by
  simp only [sendRtpPacket, Option.map_eq_some_iff] at h
  obtain ⟨rtp, hr, h⟩ := h
  refine ⟨rtp, hr, ?_⟩
  cases hc : rtp.isClosed with
  | true => exact Or.inl (by simpa [hc] using h.symm)
  | false =>
    cases taken with
    | true => exact Or.inr ⟨by simpa [hc] using h.symm, rfl⟩
    | false => exact Or.inl (by simpa [hc] using h.symm)

/-! ## Runs -/

/-- A connection of a server, at the level of requests. -/
def requests (authInfo : Option DigestAuthentication) : System RtspConnection Input :=
  System.ofStep (fun c => ∃ fd request, 0 < fd ∧ c = new fd authInfo request) serve

/-- The same connection, at the level of bytes. -/
def socket (charSigned : Bool) (authInfo : Option DigestAuthentication) :
    System RtspConnection SocketInput :=
  System.ofStep (fun c => ∃ fd request, 0 < fd ∧ c = new fd authInfo request) (step charSigned)

/-- Every state the program reaches is one that requests reach. -/
theorem reach_requests {charSigned : Bool} {authInfo : Option DigestAuthentication}
    {c : RtspConnection} (h : Reach (socket charSigned authInfo) (anyStep _ _) c) :
    Reach (requests authInfo) (anyStep _ _) c := by
  refine h.inv (fun s hs => Reach.start hs) (fun t i u ht _ hst => ?_)
  rcases step_serve hst with rfl | ⟨j, hj⟩ | ⟨r, d, j, hr, hj⟩
  · exact ht
  · exact ht.next trivial hj
  · exact (ht.next trivial hr).next trivial hj

end RtspConnection

end Maixii.Xop
