import Maixii.Net.BufferWriter
import Maixii.Xop.RtpConnection
import Maixii.Xop.RtspReader

/-!
# `Xop/RtspConnection.lean`: one connection of the server

`xop/RtspConnection.cpp` over `net/TcpConnection.cpp`. The state is the fields of the object and
what of it lies in the scheduler: the closures `SendRtpPacket` has queued. A step is one call
from outside: a request has been read, the socket is writable, the media source pushes a packet,
the scheduler runs the next closure, the connection is closed or destroyed.

What the outside decides in a call is the step's `Env`: the sessions the server has at that
moment, the descriptors and `bind` results the kernel hands out, the nonce that is drawn, how
much of the send queue the socket takes. Everything a connection does to the outside is
recorded, in order, in its `log`; the properties of a connection are statements about it.

`none` stands for undefined behaviour (see `RtspMessage.lean`; here also a null `rtp_conn_`)
and for an input that cannot occur in the state.
-/

set_option autoImplicit false

namespace Maixii.Xop

open Maixii.Lib Maixii.Net

/-! ## The rest of the server, as a connection sees it -/

/-- What a handler asks a `MediaSource`. -/
structure MediaSource where
  clockRate : Nat
  payloadType : Nat
  deriving DecidableEq, Repr

/-- What a handler asks a `MediaSession`; `sdp` is what `GetSdpMessage` returns. -/
structure MediaSession where
  sessionId : Nat
  isMulticast : Bool
  multicastIp : Bytes
  multicastPort : MediaChannelId → Nat
  source : MediaChannelId → Option MediaSource
  sdp : Bytes

/-- `Rtsp`: the two ways to look a session up. Session ids are handed out from 2 on. -/
structure Rtsp where
  lookSuffix : Bytes → Option MediaSession
  lookId : Nat → Option MediaSession
  lookId_zero : lookId 0 = none

/-- `DigestAuthentication`, with the hash it uses. -/
structure DigestAuthentication where
  realm : Bytes
  username : Bytes
  password : Bytes
  md5HashHex : Bytes → Bytes

/-- `GetResponse`. -/
def DigestAuthentication.getResponse (d : DigestAuthentication) (nonce cmd url : Bytes) : Bytes :=
  let hex1 := d.md5HashHex (d.username ++ [58] ++ d.realm ++ [58] ++ d.password)
  let hex2 := d.md5HashHex (cmd ++ [58] ++ url)
  d.md5HashHex (hex1 ++ [58] ++ nonce ++ [58] ++ hex2)

/-- What the outside decides during one call. -/
structure Env where
  /-- `rtsp_.lock()`. -/
  rtsp : Option Rtsp
  /-- `GetPeerAddr`. -/
  peerAddr : Option Bytes
  attempts : Attempts
  /-- `GetNonce`. -/
  nonce : Bytes
  seed : RtpSeed
  /-- What `::send` answers in `HandleWrite`; `none` when the mutex is taken. -/
  writes : Option (List SendResult)
  /-- Whether `sendto` succeeds. -/
  sendto : Bool

/-- An outside that has nothing to offer: no sessions, no ports, a full socket. -/
def Env.idle : Env where
  rtsp := none
  peerAddr := none
  attempts := ⟨List.replicate 10 ⟨0, -1, false, -1, false, by decide, by decide⟩, rfl⟩
  nonce := [1]
  seed := ⟨0, .rtpOverTcp, fun _ => 0, fun _ => 0, fun _ => 0⟩
  writes := none
  sendto := true

/-- A server with one unicast session, `live`, of a video and an audio track. -/
def Rtsp.live : Rtsp :=
  let session : MediaSession :=
    ⟨2, false, [], fun _ => 0,
      fun chn => some (if chn = .channel0 then ⟨90000, 96⟩ else ⟨8000, 97⟩), ascii "v=0"⟩
  ⟨fun suffix => if suffix = ascii "live" then some session else none,
    fun id => if id = 2 then some session else none, by simp⟩

/-- An outside with that server, in which `socket` answers these two descriptors and both can be
bound. -/
def Env.live (rtpFd rtcpFd : Nat) : Env :=
  { Env.idle with
    rtsp := some Rtsp.live
    peerAddr := some (ascii "10.0.0.2")
    attempts := ⟨List.replicate 10 ⟨6970, rtpFd, true, rtcpFd, true, by simp, by simp⟩, by simp⟩ }

/-! ## What a connection does -/

/-- Where the 200 to a SETUP says the packets of the channel will go: into frames with this
interleaved channel number, or from this socket to this address, with an RTCP socket beside it
unless it is multicast. -/
inductive Target
  | interleaved (channel : Nat)
  | datagrams (fd : Int) (rtcpFd : Option Int) (peer : SockAddr)
  deriving DecidableEq, Repr

inductive Effect
  /-- The request's handler is entered. -/
  | dispatched (request : RtspRequest)
  /-- `HandleAuthentication` accepts the request's response to this nonce. -/
  | authorized (request : RtspRequest) (nonce : Bytes)
  /-- A 401 with this nonce is sent. -/
  | challenged (nonce : Bytes)
  /-- `SendRtspMessage`, and whether the send queue took the message. -/
  | responded (bytes : Bytes) (queued : Bool)
  /-- A 200 with an SDP is sent. -/
  | described (sdp : Bytes)
  | clientAdded (sessionId : Nat)
  | clientRemoved (sessionId : Nat)
  /-- A SETUP is answered with 200. -/
  | setUp (chn : MediaChannelId) (target : Target)
  /-- A SETUP found no free port; some round got as far as the RTCP socket (`rtcp`). -/
  | exhausted (chn : MediaChannelId) (rtcp : Bool)
  /-- `Play` on the RTP connection. -/
  | played
  | fd (op : FdOp)
  /-- `UpdateChannel` with events enabled, and `RemoveChannel`. -/
  | channelUpdated (fd : Int)
  | channelRemoved (fd : Int)
  /-- An RTP packet is given to `Send`, and whether the send queue took it. -/
  | framed (chn : MediaChannelId) (bytes : Bytes) (queued : Bool)
  /-- An RTP packet is given to `sendto`. -/
  | sentTo (chn : MediaChannelId) (fd : Int) (peer : SockAddr) (bytes : Bytes)
  /-- Bytes the TCP socket has taken from the send queue. -/
  | written (bytes : Bytes)
  deriving DecidableEq

structure RtspConnection where
  sockfd : Int
  isClosed : Bool
  /-- The object is gone. -/
  destroyed : Bool
  writeBuffer : BufferWriter
  isWriting : Bool
  reader : RtspReader
  sessionId : Nat
  hasAuth : Bool
  nonce : Bytes
  authInfo : Option DigestAuthentication
  rtcpChannels : MediaChannelId → Option Int
  rtpConn : Option RtpConnection
  /-- The closures of `SendRtpPacket` in the scheduler's queue. -/
  closures : List (MediaChannelId × RtpPacket)
  log : List Effect

/-- One call from outside. -/
inductive Input
  /-- The receive buffer and the parser have moved on without a request coming out. -/
  | read (reader : RtspReader)
  /-- `HandleRtspRequest` calls the handler of a request. -/
  | request (req : RtspRequest) (env : Env)
  /-- `HandleRead` with nothing more to come or nothing acceptable, `HandleClose`,
  `HandleError`, or the closure that `Disconnect` queues: all of them `Close`. -/
  | close (env : Env)
  /-- `HandleWrite`. -/
  | writable (env : Env)
  /-- `SendRtpPacket`, and whether the scheduler takes the closure. -/
  | push (chn : MediaChannelId) (pkt : RtpPacket) (taken : Bool)
  /-- The scheduler runs the oldest closure. The packet's buffer is shared with other
  connections, which may have written into it. -/
  | trigger (data : PacketData) (env : Env)
  /-- The last reference to the connection is dropped. -/
  | destroy

/-- One call from outside, with what is read still bytes. -/
inductive SocketInput
  /-- `HandleRead` when `recv` returned data. -/
  | recv (chunk : Chunk) (env : Env)
  | call (i : Input)

namespace RtspConnection

/-- A connection whose constructor has run; `request` is the parser's uninitialised part. -/
def new (sockfd : Int) (authInfo : Option DigestAuthentication) (request : RtspRequest) :
    RtspConnection where
  sockfd := sockfd
  isClosed := false
  destroyed := false
  writeBuffer := BufferWriter.new 500
  isWriting := false
  reader := ⟨{ request with
    authResponse := [], requestLineParam := [], headerLineParam := [],
    state := .parseRequestLine }, BufferReader.new⟩
  sessionId := 0
  hasAuth := authInfo.isNone
  nonce := []
  authInfo := authInfo
  rtcpChannels := fun _ => none
  rtpConn := none
  closures := []
  log := [.fd (.opened sockfd), .channelUpdated sockfd]

def emit (c : RtspConnection) (es : List Effect) : RtspConnection := { c with log := c.log ++ es }

/-! ## `TcpConnection` -/

/-- `OnClose`. -/
def onClose (c : RtspConnection) (env : Env) : RtspConnection :=
  let session := if c.sessionId = 0 then none else env.rtsp.bind fun r => r.lookId c.sessionId
  c.emit ((session.toList.map fun s => Effect.clientRemoved s.sessionId) ++
    channels.flatMap fun chn => (c.rtcpChannels chn).toList.map .channelRemoved)

/-- `Close`. -/
def close (c : RtspConnection) (env : Env) : RtspConnection :=
  if c.isClosed then c
  else ({ c with isClosed := true }.emit [.channelRemoved c.sockfd]).onClose env

/-- `HandleWrite`. -/
def handleWrite (c : RtspConnection) (env : Env) : RtspConnection :=
  if c.isClosed then c
  else match env.writes with
    | none => c
    | some results =>
        let (ret, w, out) := c.writeBuffer.send results
        let c := { c with writeBuffer := w }.emit [.written out]
        if ret < 0 then c.close env
        else if w.isEmpty then
          if c.isWriting then { c with isWriting := false }.emit [.channelUpdated c.sockfd] else c
        else if c.isWriting then c
        else { c with isWriting := true }.emit [.channelUpdated c.sockfd]

/-- `Send`; `note` records whether the queue took the bytes. -/
def send (c : RtspConnection) (env : Env) (bytes : Bytes) (note : Bool → Effect) :
    RtspConnection :=
  if c.isClosed then c.emit [note false]
  else
    let (queued, w) := c.writeBuffer.append bytes 0
    ({ c with writeBuffer := w }.emit [note queued]).handleWrite env

def sendRtspMessage (c : RtspConnection) (env : Env) (bytes : Bytes) : RtspConnection :=
  c.send env bytes (.responded bytes)

/-! ## The command handlers -/

/-- The request whose handler is running. -/
abbrev Handler := RtspConnection → Env → RtspRequest → RtspConnection

def handleCmdOption : Handler := fun c env req => c.sendRtspMessage env req.buildOptionRes

/-- `HandleAuthentication`. -/
def handleAuthentication (c : RtspConnection) (env : Env) (req : RtspRequest) :
    Bool × RtspConnection :=
  match c.authInfo with
  | none => (true, c)
  | some auth =>
      if c.hasAuth then (true, c)
      else if c.nonce ≠ [] ∧
          auth.getResponse c.nonce req.method.toBytes req.getRtspUrl = req.authResponse then
        (true, { c with nonce := [], hasAuth := true }.emit [.authorized req c.nonce])
      else
        (false, ({ c with nonce := env.nonce }.emit [.challenged env.nonce]).sendRtspMessage env
          (req.buildUnauthorizedRes auth.realm env.nonce))

/-- `SetClockRate` and `SetPayloadType` for every source of the session. -/
def describeSources (rtp : RtpConnection) (session : MediaSession) : RtpConnection :=
  channels.foldl
    (fun rtp chn =>
      match session.source chn with
      | some source => (rtp.setClockRate chn source.clockRate).setPayloadType chn source.payloadType
      | none => rtp)
    rtp

/-- `HandleCmdDescribe` past the authentication. -/
def describe (c : RtspConnection) (env : Env) (req : RtspRequest) : RtspConnection :=
  let rtp := c.rtpConn.getD (RtpConnection.new env.seed)
  match env.rtsp.bind fun r => r.lookSuffix req.getRtspUrlSuffix with
  | none => { c with rtpConn := some rtp }.sendRtspMessage env req.buildNotFoundRes
  | some session =>
      let c := { c with
        sessionId := session.sessionId
        rtpConn := some (describeSources rtp session) }.emit [.clientAdded session.sessionId]
      if session.sdp = [] then c.sendRtspMessage env req.buildServerErrorRes
      else (c.emit [.described session.sdp]).sendRtspMessage env (req.buildDescribeRes session.sdp)

def handleCmdDescribe : Handler := fun c env req =>
  match c.handleAuthentication env req with
  | (false, c) => c
  | (true, c) => c.describe env req

/-- The 200 of a SETUP. -/
def setupDone (c : RtspConnection) (env : Env) (chn : MediaChannelId) (target : Target)
    (response : Bytes) : RtspConnection :=
  (c.emit [.setUp chn target]).sendRtspMessage env response

def transportUnsupport (c : RtspConnection) (env : Env) (req : RtspRequest) : RtspConnection :=
  c.sendRtspMessage env req.buildUnsupportedRes

def serverError (c : RtspConnection) (env : Env) (req : RtspRequest) : RtspConnection :=
  c.sendRtspMessage env req.buildServerErrorRes

/-- A SETUP of a multicast session, over multicast. -/
def setupMulticast (c : RtspConnection) (env : Env) (req : RtspRequest) (session : MediaSession)
    (rtp : RtpConnection) : RtspConnection :=
  let chn := req.channelId
  let port := session.multicastPort chn
  match rtp.setupRtpOverMulticast env.attempts chn session.multicastIp port with
  | (false, rtp, ops) =>
      ({ c with rtpConn := some rtp }.emit
        (ops.map Effect.fd ++ [Effect.exhausted chn false])).serverError env req
  | (true, rtp, ops) =>
      ({ c with rtpConn := some rtp }.emit (ops.map Effect.fd)).setupDone env chn
        (.datagrams (rtp.rtpfd chn) none ⟨session.multicastIp, port⟩)
        (req.buildSetupMulticastRes session.multicastIp port (rtp.rtpSessionId % 2 ^ 16))

/-- A SETUP over TCP. -/
def setupTcp (c : RtspConnection) (env : Env) (req : RtspRequest) (rtp : RtpConnection) :
    RtspConnection :=
  let chn := req.channelId
  let rtp := rtp.setupRtpOverTcp c.sockfd chn req.getRtpChannel req.getRtcpChannel
  { c with rtpConn := some rtp }.setupDone env chn (.interleaved req.getRtpChannel)
    (req.buildSetupTcpRes req.getRtpChannel req.getRtcpChannel (rtp.rtpSessionId % 2 ^ 16))

/-- A SETUP over UDP. The new RTCP channel replaces the one there was. -/
def setupUdp (c : RtspConnection) (env : Env) (req : RtspRequest) (rtp : RtpConnection) :
    RtspConnection :=
  let chn := req.channelId
  match rtp.setupRtpOverUdp env.peerAddr env.attempts chn req.getRtpPort req.getRtcpPort with
  | (false, rtp, ops) =>
      ({ c with rtpConn := some rtp }.emit
        (ops.map Effect.fd ++ if env.peerAddr.isSome then
          [Effect.exhausted chn (env.attempts.1.any Attempt.rtpBound)] else [])).serverError env req
  | (true, rtp, ops) =>
      let rtcpFd := rtp.rtcpfd chn
      ({ c with
          rtpConn := some rtp
          rtcpChannels := Function.update c.rtcpChannels chn (some rtcpFd) }.emit
        (ops.map Effect.fd ++ [Effect.channelUpdated rtcpFd])).setupDone env chn
        (.datagrams (rtp.rtpfd chn) (some rtcpFd) ⟨env.peerAddr.getD [], req.getRtpPort⟩)
        (req.buildSetupUdpRes (rtp.localRtpPort chn) (rtp.localRtcpPort chn)
          (rtp.rtpSessionId % 2 ^ 16))

/-- `HandleCmdSetup` past the authentication. -/
def setup (c : RtspConnection) (env : Env) (req : RtspRequest) : Option RtspConnection :=
  match env.rtsp.bind fun r => r.lookId c.sessionId with
  | none => some (c.serverError env req)
  | some session =>
      if session.isMulticast then
        if req.transport = .rtpOverMulticast then
          c.rtpConn.map fun rtp => c.setupMulticast env req session rtp
        else some (c.transportUnsupport env req)
      else match req.transport with
        | .rtpOverTcp => c.rtpConn.map fun rtp => c.setupTcp env req rtp
        | .rtpOverUdp => c.rtpConn.map fun rtp => c.setupUdp env req rtp
        | .rtpOverMulticast => some (c.transportUnsupport env req)

def handleCmdSetup (c : RtspConnection) (env : Env) (req : RtspRequest) : Option RtspConnection :=
  match c.handleAuthentication env req with
  | (false, c) => some c
  | (true, c) => c.setup env req

/-- `HandleCmdPlay` past the authentication. -/
def play (c : RtspConnection) (env : Env) (req : RtspRequest) : RtspConnection :=
  match c.rtpConn with
  | none => c
  | some rtp =>
      ({ c with rtpConn := some rtp.play }.emit [.played]).sendRtspMessage env
        (req.buildPlayRes (rtp.rtpSessionId % 2 ^ 16))

def handleCmdPlay : Handler := fun c env req =>
  match c.handleAuthentication env req with
  | (false, c) => c
  | (true, c) => c.play env req

def handleCmdTeardown : Handler := fun c env req =>
  match c.rtpConn with
  | none => c
  | some rtp =>
      { c with rtpConn := some rtp.teardown }.sendRtspMessage env
        (req.buildTeardownRes (rtp.rtpSessionId % 2 ^ 16))

def handleCmdGetParamter : Handler := fun c env req =>
  match c.rtpConn with
  | none => c
  | some rtp => c.sendRtspMessage env (req.buildGetParamterRes (rtp.rtpSessionId % 2 ^ 16))

/-- The `switch` of `HandleRtspRequest`. -/
def handleCommand (c : RtspConnection) (env : Env) (req : RtspRequest) : Option RtspConnection :=
  let c := c.emit [.dispatched req]
  match req.method with
  | .options => some (c.handleCmdOption env req)
  | .describe => some (c.handleCmdDescribe env req)
  | .setup => c.handleCmdSetup env req
  | .play => some (c.handleCmdPlay env req)
  | .teardown => some (c.handleCmdTeardown env req)
  | .getParameter => some (c.handleCmdGetParamter env req)
  | .rtcp | .none => some c

/-! ## The calls from outside -/

/-- `SendRtpPacket`: refused once `Teardown` has been called. -/
def sendRtpPacket (c : RtspConnection) (chn : MediaChannelId) (pkt : RtpPacket) (taken : Bool) :
    Option RtspConnection :=
  c.rtpConn.map fun rtp =>
    if rtp.isClosed then c
    else if taken then { c with closures := c.closures ++ [(chn, pkt)] }
    else c

/-- The oldest closure. -/
def runClosure (c : RtspConnection) (data : PacketData) (env : Env) : Option RtspConnection :=
  match c.closures, c.rtpConn with
  | (chn, pkt) :: rest, some rtp =>
      let c := { c with closures := rest }
      match rtp.sendPacket chn pkt data with
      | (rtp, _, none) => some { c with rtpConn := some rtp }
      | (rtp, _, some (.tcp bytes)) =>
          some ({ c with rtpConn := some rtp }.send env bytes (.framed chn bytes))
      | (rtp, _, some (.udp fd peer bytes)) =>
          some ({ c with rtpConn := some (if env.sendto then rtp else rtp.teardown) }.emit
            [.sentTo chn fd peer bytes])
  | _, _ => none

/-- `~RtspConnection`: first the RTP connection goes, then the socket. -/
def destroy (c : RtspConnection) : RtspConnection :=
  { c with destroyed := true, rtpConn := none, rtcpChannels := fun _ => none }.emit
    ((c.rtpConn.toList.flatMap RtpConnection.destroy ++
      if 0 < c.sockfd then [FdOp.closed c.sockfd] else []).map Effect.fd)

/-- One call from outside. A closed connection reads nothing. -/
def serve (c : RtspConnection) (i : Input) : Option RtspConnection :=
  if c.destroyed then none
  else match i with
    | .read reader => if c.isClosed then none else some { c with reader := reader }
    | .request req env => if c.isClosed then none else c.handleCommand env req
    | .close env => some (c.close env)
    | .writable env => some (c.handleWrite env)
    | .push chn pkt taken => c.sendRtpPacket chn pkt taken
    | .trigger data env => c.runClosure data env
    | .destroy => if c.isClosed then some c.destroy else none

/-- `HandleRead` when `recv` returned data. -/
def handleRead (charSigned : Bool) (c : RtspConnection) (chunk : Chunk) (env : Env) :
    Option RtspConnection :=
  if c.isClosed then some c
  else match c.reader.buffer.read chunk with
    | none => some (c.close env)
    | some b =>
        (onRead charSigned ⟨c.reader.request, b⟩).bind fun o =>
          let c := { c with reader := o.reader }
          match o.command with
          | some req => c.handleCommand env req
          | none => if o.ok then some c else some (c.close env)

def step (charSigned : Bool) (c : RtspConnection) : SocketInput → Option RtspConnection
  | .recv chunk env => if c.destroyed then none else c.handleRead charSigned chunk env
  | .call (.request _ _) | .call (.read _) => none
  | .call i => c.serve i

/-- **The byte level refines the request level.** -/
theorem step_serve {charSigned : Bool} {c c' : RtspConnection} {i : SocketInput}
    (h : c.step charSigned i = some c') :
    c' = c ∨ (∃ j, c.serve j = some c') ∨
      ∃ r d j, c.serve (.read r) = some d ∧ d.serve j = some c' := by
  cases i with
  | call i =>
    cases i with
    | read _ | request _ _ => simp [step] at h
    | close env => exact Or.inr (Or.inl ⟨.close env, h⟩)
    | writable env => exact Or.inr (Or.inl ⟨.writable env, h⟩)
    | push chn pkt taken => exact Or.inr (Or.inl ⟨.push chn pkt taken, h⟩)
    | trigger data env => exact Or.inr (Or.inl ⟨.trigger data env, h⟩)
    | destroy => exact Or.inr (Or.inl ⟨.destroy, h⟩)
  | recv chunk env =>
    simp only [step] at h
    split at h
    · simp at h
    · rename_i hd
      unfold handleRead at h
      split at h
      · exact Or.inl (Option.some.inj h).symm
      · rename_i hc
        split at h
        · exact Or.inr (Or.inl ⟨.close env, by simpa [serve, hd] using h⟩)
        · rename_i b hb
          simp only [Option.bind_eq_some_iff] at h
          obtain ⟨o, -, h⟩ := h
          have hread : c.serve (.read o.reader) = some { c with reader := o.reader } := by
            simp [serve, hd, hc]
          split at h
          · rename_i req hreq
            refine Or.inr (Or.inr ⟨_, _, .request req env, hread, ?_⟩)
            simpa [serve, hd, hc] using h
          · split at h
            · exact Or.inr (Or.inl ⟨_, hread.trans h⟩)
            · refine Or.inr (Or.inr ⟨_, _, .close env, hread, ?_⟩)
              simpa [serve, hd] using h

end RtspConnection

end Maixii.Xop
