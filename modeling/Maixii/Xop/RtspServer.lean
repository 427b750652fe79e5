import Maixii.Xop.RtspSteps

/-!
# `Xop/RtspServer.lean`: sessions, and the connections registered in them

`xop/RtspServer.cpp` and the client map of `xop/MediaSession.cpp`. The server is its sessions and
all the connections it ever accepted, by number. A connection runs as before (`RtspConnection`), and
what it does to a session, `AddClient` and `RemoveClient`, is read off its log and done here: the
map is keyed by **socket number**, and what it holds is a weak pointer, here the number of the
connection. A packet that a source emits is offered to the clients the map has at that moment, one
after the other (`Push`).

What one call does to the sessions is said once (`serve_events`).
-/

set_option autoImplicit false

namespace Maixii.Xop

open Maixii.Lib Maixii.Net

/-! ## The model -/

/-- A `MediaSession` with its map of clients, in the order of `std::map`, and how often each kind of
callback has been called. -/
structure LiveSession where
  media : MediaSession
  suffix : Bytes
  clients : List (Int × Nat)
  connected : Nat
  disconnected : Nat

def LiveSession.id (s : LiveSession) : Nat := s.media.sessionId

/-- `AddClient`: a socket number that is there stays with whom it is. -/
def LiveSession.addClient (s : LiveSession) (fd : Int) (i : Nat) : LiveSession :=
  if s.clients.any (·.1 = fd) then s
  else { s with
    clients := s.clients.filter (·.1 < fd) ++ (fd, i) :: s.clients.filter (fd < ·.1)
    connected := s.connected + 1 }

/-- `RemoveClient`: the callbacks hear of it if the client is still there. -/
def LiveSession.removeClient (s : LiveSession) (alive : Nat → Bool) (fd : Int) : LiveSession :=
  match s.clients.find? (·.1 = fd) with
  | none => s
  | some (_, i) => { s with
      clients := s.clients.filter (·.1 ≠ fd)
      disconnected := if alive i then s.disconnected + 1 else s.disconnected }

/-- A packet on its way to the clients that were in the map: those that are still to come. -/
structure Push where
  sessionId : Nat
  isMulticast : Bool
  chn : MediaChannelId
  pkt : RtpPacket
  clients : List Nat

structure RtspServer where
  sessions : List LiveSession
  /-- What `RemoveSession` has taken out. -/
  removed : List LiveSession
  conns : List RtspConnection
  pushes : List Push

/-- What may happen to a server. -/
inductive ServerInput
  | addSession (media : MediaSession) (suffix : Bytes)
  | removeSession (id : Nat)
  /-- A connection on this socket; `request` is the parser's uninitialised part. -/
  | accept (fd : Int) (request : RtspRequest)
  /-- A call of a connection. -/
  | call (i : Nat) (input : Input)
  /-- A source of a session emits a packet: the send-frame callback takes the clients. -/
  | frame (id : Nat) (chn : MediaChannelId) (pkt : RtpPacket)
  /-- The callback goes on to the next client of a push, and whether the scheduler takes the
  closure. -/
  | offer (k : Nat) (taken : Bool)

namespace RtspServer

/-- No session, no connection. -/
def new : RtspServer := ⟨[], [], [], []⟩

def lookId (srv : RtspServer) (id : Nat) : Option LiveSession :=
  srv.sessions.find? fun s => s.id = id

/-- The server, as its connections see it. -/
def rtsp (srv : RtspServer) : Rtsp where
  lookSuffix suffix := (srv.sessions.find? fun s => s.suffix = suffix).map LiveSession.media
  lookId id := if id = 0 then none else (srv.lookId id).map LiveSession.media
  lookId_zero := rfl

/-- `weak_ptr::lock` on a client: the RTP connection goes with its connection. -/
def alive (srv : RtspServer) (i : Nat) : Bool :=
  match srv.conns[i]? with
  | some c => !c.destroyed
  | none => false

/-- What a connection does to the sessions. -/
def apply (alive : Nat → Bool) (fd : Int) (i : Nat) (ss : List LiveSession) :
    Effect → List LiveSession
  | .clientAdded id => ss.map fun s => if s.id = id then s.addClient fd i else s
  | .clientRemoved id => ss.map fun s => if s.id = id then s.removeClient alive fd else s
  | _ => ss

end RtspServer

/-- `AddClient` and `RemoveClient` among the effects. -/
def clientEvents (es : List Effect) : List Effect :=
  es.filter fun e => match e with
    | .clientAdded _ | .clientRemoved _ => true
    | _ => false

/-- The handlers ask this server. -/
def Env.within (env : Env) (r : Rtsp) : Env := { env with rtsp := some r }

/-- The outside of a call, if it asks it anything. -/
def Input.env : Input → Option Env
  | .request _ env | .close env | .writable env | .trigger _ env => some env
  | .read _ | .push _ _ _ | .destroy => none

def Input.within (r : Rtsp) : Input → Input
  | .request req env => .request req (env.within r)
  | .close env => .close (env.within r)
  | .writable env => .writable (env.within r)
  | .trigger data env => .trigger data (env.within r)
  | .read reader => .read reader
  | .push chn pkt taken => .push chn pkt taken
  | .destroy => .destroy

namespace RtspServer

/-- A connection has moved on. -/
def advance (srv : RtspServer) (i : Nat) (c c' : RtspConnection) : RtspServer :=
  let conns := srv.conns.set i c'
  { srv with
    conns := conns
    sessions := ((clientEvents c'.log).drop (clientEvents c.log).length).foldl
      (apply { srv with conns := conns }.alive c.sockfd i) srv.sessions }

/-- `SendRtpPacket` for one client of a push: the connection afterwards, and whether it returned 0. -/
def sendTo (c : RtspConnection) (chn : MediaChannelId) (pkt : RtpPacket) (taken : Bool) :
    RtspConnection × Bool :=
  if c.destroyed then (c, false)
  else match c.rtpConn with
    | none => (c, false)
    | some rtp => ((c.sendRtpPacket chn pkt taken).getD c, !rtp.isClosed && taken)

/-- The send-frame callback, up to its loop: expired clients go, the others wait in a
`forward_list`, so the last one comes first. -/
def startPush (srv : RtspServer) (s : LiveSession) (chn : MediaChannelId) (pkt : RtpPacket) :
    RtspServer :=
  let clients := s.clients.filter fun e => srv.alive e.2
  { srv with
    sessions := srv.sessions.map fun t => if t.id = s.id then { t with clients := clients } else t
    pushes := srv.pushes ++
      [⟨s.id, s.media.isMulticast, chn, pkt, (clients.map Prod.snd).reverse⟩] }

/-- One client further. In a multicast session the loop ends with the first 0. -/
def continuePush (srv : RtspServer) (k : Nat) (taken : Bool) : Option RtspServer :=
  match srv.pushes[k]? with
  | none => none
  | some push =>
      match push.clients with
      | [] => some { srv with pushes := srv.pushes.eraseIdx k }
      | i :: rest =>
          (srv.conns[i]?).map fun c =>
            let (c', ok) := sendTo c push.chn push.pkt taken
            let rest := if push.isMulticast && ok then [] else rest
            { srv with
              conns := srv.conns.set i c'
              pushes := srv.pushes.set k { push with clients := rest } }

def step (authInfo : Option DigestAuthentication) (srv : RtspServer) :
    ServerInput → Option RtspServer
  | .addSession media suffix =>
      -- Ids are drawn from a counter that starts behind 1; a suffix that is taken is refused.
      if 2 ≤ media.sessionId ∧ (∀ s ∈ srv.sessions ++ srv.removed, s.id ≠ media.sessionId) ∧
          ∀ s ∈ srv.sessions, s.suffix ≠ suffix then
        some { srv with sessions := srv.sessions ++ [⟨media, suffix, [], 0, 0⟩] }
      else none
  | .removeSession id =>
      (srv.lookId id).map fun s =>
        { srv with
          sessions := srv.sessions.filter fun t => t.id ≠ id
          removed := srv.removed ++ [s] }
  | .accept fd request =>
      -- The kernel gives no number that is in use.
      if 0 < fd ∧ ∀ c ∈ srv.conns, c.destroyed = false → c.sockfd ≠ fd then
        some { srv with conns := srv.conns ++ [RtspConnection.new fd authInfo request] }
      else none
  | .call _ (.push _ _ _) => none
  | .call i input =>
      (srv.conns[i]?).bind fun c =>
        (c.serve (input.within srv.rtsp)).map fun c' => srv.advance i c c'
  | .frame id chn pkt => (srv.lookId id).map fun s => srv.startPush s chn pkt
  | .offer k taken => srv.continuePush k taken

/-- A server that starts with nothing. -/
def server (authInfo : Option DigestAuthentication) : System RtspServer ServerInput :=
  System.ofStep (· = new) (step authInfo)

end RtspServer

/-! ## What a call does to the sessions -/

@[simp] theorem clientEvents_append (l m : List Effect) :
    clientEvents (l ++ m) = clientEvents l ++ clientEvents m := List.filter_append ..

namespace RtspConnection

/-- The session `OnClose` takes the client out of. -/
def departure (sessionId : Nat) (env : Env) : List Effect :=
  (if sessionId = 0 then none else env.rtsp.bind fun r => r.lookId sessionId).toList.map
    fun s => .clientRemoved s.sessionId

/-- From `c` to `c'` nothing happens to the sessions, unless the connection closes. -/
structure Departs (c : RtspConnection) (env : Env) (c' : RtspConnection) : Prop where
  sockfd : c'.sockfd = c.sockfd
  destroyed : c'.destroyed = c.destroyed
  sessionId : c'.sessionId = c.sessionId
  closed : c.isClosed = true → c'.isClosed = true
  events : clientEvents c'.log = clientEvents c.log ++
    if c'.isClosed && !c.isClosed then departure c.sessionId env else []

variable {c c' d : RtspConnection} {env : Env} {req : RtspRequest}

/-- A step that only writes other effects. -/
theorem Departs.plain (hfd : c'.sockfd = c.sockfd) (hd : c'.destroyed = c.destroyed)
    (hs : c'.sessionId = c.sessionId) (hc : c'.isClosed = c.isClosed)
    (hl : clientEvents c'.log = clientEvents c.log) : Departs c env c' := by
  refine ⟨hfd, hd, hs, fun h => hc.trans h, ?_⟩
  rw [hc, hl]
  cases c.isClosed <;> simp

theorem Departs.trans (h₁ : Departs c env d) (h₂ : Departs d env c') : Departs c env c' := by
  refine ⟨h₂.sockfd.trans h₁.sockfd, h₂.destroyed.trans h₁.destroyed,
    h₂.sessionId.trans h₁.sessionId, fun h => h₂.closed (h₁.closed h), ?_⟩
  rw [h₂.events, h₁.events, h₁.sessionId, List.append_assoc]
  congr 1
  cases hc : c.isClosed with
  | true => simp [h₁.closed hc]
  | false =>
    cases hd : d.isClosed with
    | true => simp [h₂.closed hd]
    | false => cases c'.isClosed <;> simp

theorem close_departs (c : RtspConnection) (env : Env) : Departs c env (c.close env) := by
  unfold close
  split
  · exact .plain rfl rfl rfl rfl rfl
  · rename_i ho
    refine ⟨rfl, rfl, rfl, fun _ => rfl, ?_⟩
    have hrem : clientEvents (channels.flatMap fun chn =>
        (c.rtcpChannels chn).toList.map Effect.channelRemoved) = [] := by
      refine List.filter_eq_nil_iff.mpr ?_
      intro e he
      obtain ⟨chn, -, hc⟩ := List.mem_flatMap.mp he
      obtain ⟨fd, -, rfl⟩ := List.mem_map.mp hc
      simp
    have hdep : clientEvents (departure c.sessionId env) = departure c.sessionId env := by
      refine List.filter_eq_self.mpr ?_
      intro e he
      obtain ⟨s, -, rfl⟩ := List.mem_map.mp he
      rfl
    have hlog : (({ c with isClosed := true }.emit [.channelRemoved c.sockfd]).onClose env).log =
        c.log ++ [.channelRemoved c.sockfd] ++ (departure c.sessionId env ++
          channels.flatMap fun chn => (c.rtcpChannels chn).toList.map .channelRemoved) := rfl
    rw [hlog, clientEvents_append, clientEvents_append, clientEvents_append, hrem, hdep]
    have hopen : c.isClosed = false := by simpa using ho
    simp only [hopen]
    simp [clientEvents, onClose, emit]

/-- Writing. -/
theorem handleWrite_departs (c : RtspConnection) (env : Env) : Departs c env (c.handleWrite env) := by
  unfold handleWrite
  split
  · exact .plain rfl rfl rfl rfl rfl
  · cases env.writes with
    | none => exact .plain rfl rfl rfl rfl rfl
    | some results =>
      dsimp only
      have hwrite : ∀ (w : BufferWriter) (out : Bytes),
          Departs c env ({ c with writeBuffer := w }.emit [.written out]) := fun w out =>
        .plain rfl rfl rfl rfl (by simp [emit, clientEvents])
      have hupdate : ∀ (x : RtspConnection) (b : Bool),
          Departs x env ({ x with isWriting := b }.emit [.channelUpdated x.sockfd]) := fun x b =>
        .plain rfl rfl rfl rfl (by simp [emit, clientEvents])
      split
      · exact (hwrite _ _).trans (close_departs _ env)
      · split
        · split
          · exact (hwrite _ _).trans (hupdate _ false)
          · exact hwrite _ _
        · split
          · exact hwrite _ _
          · exact (hwrite _ _).trans (hupdate _ true)

theorem send_departs (c : RtspConnection) (env : Env) (bytes : Bytes) {note : Bool → Effect}
    (hn : ∀ b, clientEvents [note b] = []) : Departs c env (c.send env bytes note) := by
  rw [send_eq]
  have hq : Departs c env (c.queue bytes note) := .plain rfl rfl rfl rfl (by simp [queue, emit, hn])
  exact hq.trans (handleWrite_departs _ env)

theorem Sent.departs {signed : Bool} (h : Sent c env req signed c') : Departs c env c' := by
  obtain ⟨-, rfl, -⟩ := h
  exact send_departs _ _ _ fun _ => rfl

theorem clientEvents_fds (ops : List FdOp) : clientEvents (ops.map Effect.fd) = [] := by
  refine List.filter_eq_nil_iff.mpr ?_
  intro e he
  obtain ⟨op, -, rfl⟩ := List.mem_map.mp he
  simp

/-- The way in does nothing to the sessions. -/
theorem Entered.departs (h : Entered c req d) : Departs c env d := by
  obtain ⟨nonce, hasAuth, es, rfl, hes⟩ := h.eq
  refine .plain rfl rfl rfl rfl ?_
  have hnil : clientEvents es = [] := by
    refine List.filter_eq_nil_iff.mpr ?_
    intro e he
    obtain ⟨n, rfl⟩ := hes e he
    simp
  show clientEvents (c.log ++ ([.dispatched req] ++ es)) = _
  rw [clientEvents_append, clientEvents_append, hnil]
  simp [clientEvents]

/-- A DESCRIBE that finds this session. -/
structure Describes (c : RtspConnection) (env : Env) (req : RtspRequest) (session : MediaSession) :
    Prop where
  method : req.method = .describe
  passes : c.passes req = true
  found : (env.rtsp.bind fun r => r.lookSuffix req.getRtspUrlSuffix) = some session

/-- From `c` to `c'` nothing happens to the sessions but what closing does, or first the client is
added to a session it has described. -/
def Handled (c : RtspConnection) (env : Env) (req : RtspRequest) (c' : RtspConnection) : Prop :=
  Departs c env c' ∨ ∃ session d, Describes c env req session ∧ d.sockfd = c.sockfd ∧
    d.sessionId = session.sessionId ∧ d.isClosed = c.isClosed ∧
    d.destroyed = c.destroyed ∧
    clientEvents d.log = clientEvents c.log ++ [.clientAdded session.sessionId] ∧ Departs d env c'

theorem Body.departs (h : Body c env req c') : Departs c env c' ∨ ∃ session d,
    req.method = .describe ∧
    (env.rtsp.bind fun r => r.lookSuffix req.getRtspUrlSuffix) = some session ∧
    d.sockfd = c.sockfd ∧ d.sessionId = session.sessionId ∧ d.isClosed = c.isClosed ∧
    d.destroyed = c.destroyed ∧
    clientEvents d.log = clientEvents c.log ++ [.clientAdded session.sessionId] ∧
    Departs d env c' := by
  -- Other fields, and other effects.
  have hplain : ∀ {signed : Bool} {rtcp : MediaChannelId → Option Int} {rtp : Option RtpConnection}
      {es : List Effect}, Sent ({ c with rtcpChannels := rtcp, rtpConn := rtp }.emit es) env req
        signed c' → clientEvents es = [] → Departs c env c' := by
    intro signed rtcp rtp es hs hes
    have hd : Departs c env ({ c with rtcpChannels := rtcp, rtpConn := rtp }.emit es) :=
      .plain rfl rfl rfl rfl (by simp [emit, hes])
    exact hd.trans hs.departs
  cases h with
  | ignored _ => exact Or.inl (.plain rfl rfl rfl rfl rfl)
  | options _ hs | unsupported _ _ _ hs | noSession _ _ hs | parameter _ _ hs =>
    exact Or.inl hs.departs
  | notFound _ _ hs | tornDown _ _ hs =>
    rw [← emit_nil { c with rtpConn := _ }] at hs
    exact Or.inl (hplain hs rfl)
  | @described c' session es hm hl hes hs =>
    refine Or.inr ⟨session, _, hm, hl, ?_, ?_, ?_, ?_, ?_, hs.departs⟩
    · rfl
    · rfl
    · rfl
    · rfl
    · rcases hes with ⟨rfl, -⟩ | ⟨rfl, -⟩ <;> simp [emit, clientEvents]
  | multicast _ _ _ _ _ hs =>
    refine Or.inl (hplain hs ?_)
    rw [clientEvents_append, clientEvents_fds]
    split <;> rfl
  | tcp _ _ _ _ hs => exact Or.inl (hplain hs rfl)
  | udp _ _ _ _ _ hs =>
    refine Or.inl (hplain hs ?_)
    rw [clientEvents_append, clientEvents_fds]
    rfl
  | udpFailed _ _ _ _ _ hs =>
    refine Or.inl (hplain hs ?_)
    rw [clientEvents_append, clientEvents_fds]
    split <;> rfl
  | played _ _ hs => exact Or.inl (hplain hs rfl)

theorem handleCommand_handled (h : c.handleCommand env req = some c') : Handled c env req c' := by
  rcases handleCommand_cases h with ⟨auth, -, -, -, -, hs⟩ | ⟨d, hent, hbody⟩
  · have hd : Departs c env ({ c with nonce := env.nonce }.emit
        [.dispatched req, .challenged env.nonce]) :=
      .plain rfl rfl rfl rfl (by simp [emit, clientEvents])
    exact Or.inl (hd.trans hs.departs)
  · have hd : Departs c env d := hent.departs
    have hdc : d.isClosed = c.isClosed := by
      obtain ⟨_, _, _, rfl, -⟩ := hent.eq
      rfl
    have hev : clientEvents d.log = clientEvents c.log := by
      rw [hd.events, hdc]
      cases c.isClosed <;> simp
    rcases hbody.departs with hb | ⟨session, x, hm, hl, hfd, hs, hc, hdes, hl', hx⟩
    · exact Or.inl (hd.trans hb)
    · have hpass : c.passes req = true := by
        rw [Entered, if_pos (by rw [hm]; rfl)] at hent
        exact hent.passes
      exact Or.inr ⟨session, x, ⟨hm, hpass, hl⟩, hfd.trans hd.sockfd, hs, hc.trans hdc,
        hdes.trans hd.destroyed, by rw [hl', hev], hx⟩

/-- **What one call does to the sessions.** -/
theorem serve_handled {i : Input} (h : c.serve i = some c') :
    (∃ env, Departs c env c' ∧ (i.env = some env ∨ c'.isClosed = c.isClosed)) ∨
    (∃ env req, i = .request req env ∧ c.isClosed = false ∧ Handled c env req c') ∨
    (i = .destroy ∧ c.isClosed = true ∧ c' = c.destroy) := by
  unfold serve at h
  split at h
  · simp at h
  · cases i with
    | read reader =>
      simp only at h
      split at h
      · simp at h
      · simp only [Option.some.injEq] at h
        subst h
        exact Or.inl ⟨Env.idle, .plain rfl rfl rfl rfl rfl, Or.inr rfl⟩
    | request req env =>
      simp only at h
      split at h
      · simp at h
      · rename_i ho
        exact Or.inr (Or.inl ⟨env, req, rfl, by simpa using ho, handleCommand_handled h⟩)
    | close env =>
      simp only [Option.some.injEq] at h
      subst h
      exact Or.inl ⟨env, close_departs c env, Or.inl rfl⟩
    | writable env =>
      simp only [Option.some.injEq] at h
      subst h
      exact Or.inl ⟨env, handleWrite_departs c env, Or.inl rfl⟩
    | push chn pkt taken =>
      obtain ⟨rtp, -, rfl | ⟨rfl, -⟩⟩ := sendRtpPacket_cases h
      · exact Or.inl ⟨Env.idle, .plain rfl rfl rfl rfl rfl, Or.inr rfl⟩
      · exact Or.inl ⟨Env.idle, .plain rfl rfl rfl rfl rfl, Or.inr rfl⟩
    | trigger data env =>
      refine Or.inl ⟨env, ?_, Or.inl rfl⟩
      simp only [runClosure] at h
      split at h
      · rename_i chn pkt rest rtp hc hr
        split at h
        · simp only [Option.some.injEq] at h
          subst h
          exact .plain rfl rfl rfl rfl rfl
        · rename_i rtp' d' bytes hsend
          simp only [Option.some.injEq] at h
          subst h
          have hx : Departs c env { c with closures := rest, rtpConn := some rtp' } :=
            .plain rfl rfl rfl rfl rfl
          exact hx.trans (send_departs _ env bytes fun _ => rfl)
        · simp only [Option.some.injEq] at h
          subst h
          exact .plain rfl rfl rfl rfl (by simp [emit, clientEvents])
      · simp at h
    | destroy =>
      simp only at h
      split at h
      · rename_i hc
        simp only [Option.some.injEq] at h
        exact Or.inr (Or.inr ⟨rfl, hc, h.symm⟩)
      · simp at h

theorem destroy_events (c : RtspConnection) : clientEvents c.destroy.log = clientEvents c.log := by
  simp only [destroy, emit, clientEvents_append, clientEvents_fds, List.append_nil]

end RtspConnection

/-! ## What a step does to one connection -/

namespace RtspServer

variable {authInfo : Option DigestAuthentication} {srv srv' : RtspServer}

/-- A client that is offered a packet is pushed it, or nothing happens. -/
theorem sendTo_serve (c : RtspConnection) (chn : MediaChannelId) (pkt : RtpPacket) (taken : Bool) :
    (sendTo c chn pkt taken).1 = c ∨
      c.serve (.push chn pkt taken) = some (sendTo c chn pkt taken).1 := by
  unfold sendTo
  split
  · exact Or.inl rfl
  · rename_i hd
    split
    · exact Or.inl rfl
    · rename_i rtp hr
      refine Or.inr ?_
      simp [RtspConnection.serve, hd, RtspConnection.sendRtpPacket, hr]

/-- One connection, over one step: it is left alone, or called, or offered a packet. -/
inductive ConnStep (srv : RtspServer) (i : Nat) (c : RtspConnection) (inp : ServerInput) :
    RtspConnection → Prop
  | idle (hi : ∀ input, inp ≠ .call i input) : ConnStep srv i c inp c
  | call {input : Input} {c' : RtspConnection} (hi : inp = .call i input)
      (h : c.serve (input.within srv.rtsp) = some c') : ConnStep srv i c inp c'
  | offer {k : Nat} {chn : MediaChannelId} {pkt : RtpPacket} {taken : Bool} {c' : RtspConnection}
      (hi : inp = .offer k taken) (h : c.serve (.push chn pkt taken) = some c') :
      ConnStep srv i c inp c'

/-- A call of a connection. -/
theorem call_cases {i : Nat} {input : Input} (hs : srv.step authInfo (.call i input) = some srv') :
    ∃ c c', srv.conns[i]? = some c ∧ c.serve (input.within srv.rtsp) = some c' ∧
      srv' = srv.advance i c c' := by
  have hcall : ((srv.conns[i]?).bind fun c =>
      (c.serve (input.within srv.rtsp)).map fun c' => srv.advance i c c') = some srv' := by
    cases input <;> first | exact hs | simp [step] at hs
  obtain ⟨c, hc, hserve⟩ := Option.bind_eq_some_iff.mp hcall
  obtain ⟨c', hc', rfl⟩ := Option.map_eq_some_iff.mp hserve
  exact ⟨c, c', hc, hc', rfl⟩

theorem step_conn {i : Nat} {c : RtspConnection} {inp : ServerInput}
    (hs : srv.step authInfo inp = some srv') (hc : srv.conns[i]? = some c) :
    ∃ c', srv'.conns[i]? = some c' ∧ ConnStep srv i c inp c' := by
  have hi : i < srv.conns.length := (List.getElem?_eq_some_iff.mp hc).1
  have hsame : srv'.conns = srv.conns → (∀ input, inp ≠ .call i input) →
      ∃ c', srv'.conns[i]? = some c' ∧ ConnStep srv i c inp c' := by
    intro heq hne
    exact ⟨c, by rw [heq]; exact hc, .idle hne⟩
  cases inp with
  | addSession media suffix =>
    simp only [step] at hs
    split at hs
    · obtain rfl := Option.some.inj hs
      exact hsame rfl fun _ => ServerInput.noConfusion
    · simp at hs
  | removeSession id =>
    simp only [step, Option.map_eq_some_iff] at hs
    obtain ⟨s, -, rfl⟩ := hs
    exact hsame rfl fun _ => ServerInput.noConfusion
  | accept fd request =>
    simp only [step] at hs
    split at hs
    · obtain rfl := Option.some.inj hs
      refine ⟨c, ?_, .idle fun _ => ServerInput.noConfusion⟩
      rw [List.getElem?_append_left hi]
      exact hc
    · simp at hs
  | call j input =>
    obtain ⟨d, d', hd, hd', rfl⟩ := call_cases hs
    by_cases hij : j = i
    · subst hij
      obtain rfl := Option.some.inj (hc.symm.trans hd)
      exact ⟨d', List.getElem?_set_self hi, ConnStep.call rfl hd'⟩
    · refine ⟨c, ?_, .idle fun _ heq => hij (ServerInput.call.inj heq).1⟩
      exact (List.getElem?_set_ne hij).trans hc
  | frame id chn pkt =>
    simp only [step, Option.map_eq_some_iff] at hs
    obtain ⟨s, -, rfl⟩ := hs
    exact hsame rfl fun _ => ServerInput.noConfusion
  | offer k taken =>
    simp only [step, continuePush] at hs
    split at hs
    · simp at hs
    · split at hs
      · obtain rfl := Option.some.inj hs
        exact hsame rfl fun _ => ServerInput.noConfusion
      · rename_i push _ _ j rest _
        obtain ⟨d, hd, rfl⟩ := Option.map_eq_some_iff.mp hs
        by_cases hij : j = i
        · subst hij
          obtain rfl := Option.some.inj (hc.symm.trans hd)
          refine ⟨_, List.getElem?_set_self hi, ?_⟩
          rcases sendTo_serve c push.chn push.pkt taken with he | he
          · rw [he]
            exact .idle fun _ => ServerInput.noConfusion
          · exact .offer rfl he
        · exact ⟨c, (List.getElem?_set_ne hij).trans hc,
            .idle fun _ => ServerInput.noConfusion⟩

/-- Only `accept` makes connections. -/
theorem step_length {inp : ServerInput} (hs : srv.step authInfo inp = some srv')
    (hne : ∀ fd request, inp ≠ .accept fd request) : srv'.conns.length = srv.conns.length := by
  cases inp with
  | addSession media suffix =>
    simp only [step] at hs
    split at hs
    · obtain rfl := Option.some.inj hs
      rfl
    · simp at hs
  | removeSession id =>
    simp only [step, Option.map_eq_some_iff] at hs
    obtain ⟨s, -, rfl⟩ := hs
    rfl
  | accept fd request => exact absurd rfl (hne fd request)
  | call j input =>
    obtain ⟨d, d', hd, hd', rfl⟩ := call_cases hs
    exact List.length_set
  | frame id chn pkt =>
    simp only [step, Option.map_eq_some_iff] at hs
    obtain ⟨s, -, rfl⟩ := hs
    rfl
  | offer k taken =>
    simp only [step, continuePush] at hs
    split at hs
    · simp at hs
    · split at hs
      · obtain rfl := Option.some.inj hs
        rfl
      · obtain ⟨d, hd, rfl⟩ := Option.map_eq_some_iff.mp hs
        exact List.length_set

/-- A connection that was not there before has just been accepted. -/
theorem step_new {i : Nat} {c' : RtspConnection} {inp : ServerInput}
    (hs : srv.step authInfo inp = some srv') (hc : srv.conns[i]? = none)
    (hc' : srv'.conns[i]? = some c') :
    ∃ fd request, 0 < fd ∧ c' = RtspConnection.new fd authInfo request := by
  have hlen : srv.conns.length ≤ i := List.getElem?_eq_none_iff.mp hc
  have hlt : i < srv'.conns.length := (List.getElem?_eq_some_iff.mp hc').1
  obtain ⟨fd, request, hacc⟩ : ∃ fd request, inp = .accept fd request := by
    by_contra hne
    have hsame := step_length hs (fun fd request h => hne ⟨fd, request, h⟩)
    omega
  subst hacc
  simp only [step] at hs
  split at hs
  · rename_i hok
    obtain rfl := Option.some.inj hs
    have hlast : (srv.conns ++ [RtspConnection.new fd authInfo request])[i]? = some c' := hc'
    rw [List.getElem?_append_right hlen] at hlast
    obtain ⟨h0, rfl⟩ := List.getElem?_eq_some_iff.mp hlast
    refine ⟨fd, request, hok.1, ?_⟩
    simp
  · simp at hs

/-- **What holds of a connection holds of every connection of a server.** -/
theorem reach_conn {G : RtspServer → ServerInput → Prop} {P : RtspConnection → Prop}
    (hnew : ∀ fd request, P (RtspConnection.new fd authInfo request))
    (hserve : ∀ c i c', P c → c.serve i = some c' → P c')
    (h : Reach (server authInfo) G srv) :
    ∀ (i : Nat) (c : RtspConnection), srv.conns[i]? = some c → P c := by
  refine h.inv (P := fun srv => ∀ (i : Nat) (c : RtspConnection), srv.conns[i]? = some c → P c)
    ?_ ?_
  · rintro _ rfl i c hc
    simp [new] at hc
  · intro s inp t hs _ hst i c' hc'
    cases hc : s.conns[i]? with
    | none =>
      obtain ⟨fd, request, -, rfl⟩ := step_new hst hc hc'
      exact hnew fd request
    | some c =>
      obtain ⟨d, hd, hstep⟩ := step_conn hst hc
      obtain rfl := Option.some.inj (hc'.symm.trans hd)
      cases hstep with
      | idle _ => exact hs i c' hc
      | call _ hcall => exact hserve c _ c' (hs i c hc) hcall
      | offer _ hoff => exact hserve c _ c' (hs i c hc) hoff

end RtspServer

end Maixii.Xop
