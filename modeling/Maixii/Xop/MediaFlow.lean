import Maixii.Xop.RtspServer

/-!
# `Xop/MediaFlow.lean`: what starts, stops and carries the packets

Of everything a connection does, three things concern the packets of a source: a PLAY opens the
channels that are set up, a TEARDOWN shuts them for good, and the closure of `SendRtpPacket` hands
a packet on or lets it fall. `Flow` says for one call which of these it is, and that every other
call leaves the flow as it was; the properties of the flow are proved from it alone.
-/

set_option autoImplicit false

namespace Maixii.Xop

open Maixii.Lib Maixii.Net

/-- PLAYs and packets among the effects. -/
def mediaEvents (es : List Effect) : List Effect :=
  es.filter fun e => match e with
    | .played | .framed _ _ _ | .sentTo _ _ _ _ => true
    | _ => false

@[simp] theorem mediaEvents_append (l m : List Effect) :
    mediaEvents (l ++ m) = mediaEvents l ++ mediaEvents m := List.filter_append ..

theorem mediaEvents_plumbing {fd : Int} {es : List Effect} (h : ∀ e ∈ es, Plumbing fd e) :
    mediaEvents es = [] := by
  refine List.filter_eq_nil_iff.mpr ?_
  intro e he
  cases h e he <;> simp

theorem mediaEvents_fds (ops : List FdOp) : mediaEvents (ops.map Effect.fd) = [] := by
  refine List.filter_eq_nil_iff.mpr ?_
  intro e he
  obtain ⟨op, -, rfl⟩ := List.mem_map.mp he
  simp

/-! ## The RTP half between two packets -/

/-- From `i` to `i'` the channel neither starts nor stops, and no header is written. -/
structure MediaChannelInfo.Idles (i i' : MediaChannelInfo) : Prop where
  isPlay : i'.isPlay = i.isPlay
  isRecord : i'.isRecord = i.isRecord
  isSetup : i.isSetup = true → i'.isSetup = true
  packetSeq : i'.packetSeq = i.packetSeq
  rtpHeader : i'.rtpHeader = i.rtpHeader

theorem MediaChannelInfo.Idles.refl (i : MediaChannelInfo) : i.Idles i :=
  ⟨rfl, rfl, id, rfl, rfl⟩

namespace RtpConnection

/-- The same for a connection. -/
structure Idles (r r' : RtpConnection) : Prop where
  isClosed : r'.isClosed = r.isClosed
  hasKeyFrame : r'.hasKeyFrame = r.hasKeyFrame
  info : ∀ chn, (r.mediaChannelInfo chn).Idles (r'.mediaChannelInfo chn)

theorem Idles.refl (r : RtpConnection) : Idles r r := ⟨rfl, rfl, fun _ => .refl _⟩

theorem Idles.trans {q r s : RtpConnection} (h₁ : Idles q r) (h₂ : Idles r s) : Idles q s := by
  refine ⟨h₂.isClosed.trans h₁.isClosed, h₂.hasKeyFrame.trans h₁.hasKeyFrame, ?_⟩
  intro chn
  have i₁ := h₁.info chn
  have i₂ := h₂.info chn
  exact ⟨i₂.isPlay.trans i₁.isPlay, i₂.isRecord.trans i₁.isRecord,
    fun h => i₂.isSetup (i₁.isSetup h), i₂.packetSeq.trans i₁.packetSeq,
    i₂.rtpHeader.trans i₁.rtpHeader⟩

theorem updateInfo_idles (r : RtpConnection) (chn : MediaChannelId)
    {f : MediaChannelInfo → MediaChannelInfo} (hf : ∀ i : MediaChannelInfo, i.Idles (f i)) :
    Idles r (r.updateInfo chn f) := by
  refine ⟨rfl, rfl, ?_⟩
  intro d
  by_cases hd : d = chn
  · subst hd
    have hinfo : (r.updateInfo d f).mediaChannelInfo d = f (r.mediaChannelInfo d) :=
      Function.update_self ..
    rw [hinfo]
    exact hf _
  · have hinfo : (r.updateInfo chn f).mediaChannelInfo d = r.mediaChannelInfo d :=
      Function.update_of_ne hd ..
    rw [hinfo]
    exact .refl _

/-- Looking for a port touches no channel's state. -/
theorem SameBut.idles {chn : MediaChannelId} {r r' : RtpConnection} (h : SameBut chn r r') :
    Idles r r' := by
  refine ⟨h.isClosed, h.hasKeyFrame, ?_⟩
  intro d
  rw [h.mediaChannelInfo]
  exact .refl _

theorem setupRtpOverTcp_idles (r : RtpConnection) (sockfd : Int) (chn : MediaChannelId)
    (rtpChannel rtcpChannel : Nat) :
    Idles r (r.setupRtpOverTcp sockfd chn rtpChannel rtcpChannel) := by
  have h : Idles r (r.updateInfo chn fun i =>
      { i with rtpChannel := rtpChannel, rtcpChannel := rtcpChannel, isSetup := true }) :=
    r.updateInfo_idles chn fun _ => ⟨rfl, rfl, fun _ => rfl, rfl, rfl⟩
  exact ⟨h.isClosed, h.hasKeyFrame, h.info⟩

theorem setupRtpOverUdp_idles (r : RtpConnection) (peer : Option Bytes) (attempts : Attempts)
    (chn : MediaChannelId) (rtpPort rtcpPort : Nat) :
    Idles r (r.setupRtpOverUdp peer attempts chn rtpPort rtcpPort).2.1 := by
  cases peer with
  | none => exact Idles.refl r
  | some addr =>
    rw [setupRtpOverUdp_eq]
    have hports : Idles r (r.updateInfo chn fun i =>
        { i with rtpPort := rtpPort, rtcpPort := rtcpPort }) :=
      r.updateInfo_idles chn fun _ => ⟨rfl, rfl, id, rfl, rfl⟩
    have hbind := hports.trans (bindPair_same chn attempts.1 _).idles
    dsimp only
    split
    · have hset := hbind.trans (updateInfo_idles _ chn (f := fun i => { i with isSetup := true })
        fun _ => ⟨rfl, rfl, fun _ => rfl, rfl, rfl⟩)
      exact ⟨hset.isClosed, hset.hasKeyFrame, hset.info⟩
    · exact hbind

theorem setupRtpOverMulticast_idles (r : RtpConnection) (attempts : Attempts)
    (chn : MediaChannelId) (ip : Bytes) (port : Nat) :
    Idles r (r.setupRtpOverMulticast attempts chn ip port).2.1 := by
  rw [setupRtpOverMulticast_eq]
  have hbind := (bindOne_same chn attempts.1 r).1.idles
  dsimp only
  split
  · have hset := hbind.trans (updateInfo_idles _ chn
      (f := fun i => { i with rtpPort := port, isSetup := true })
      fun _ => ⟨rfl, rfl, fun _ => rfl, rfl, rfl⟩)
    exact ⟨hset.isClosed, hset.hasKeyFrame, hset.info⟩
  · exact hbind

/-- A closure hands its packet on exactly when the channel is open and a key frame has been seen,
this one included. -/
theorem sendPacket_flow (r : RtpConnection) (chn : MediaChannelId) (pkt : RtpPacket)
    (data : PacketData) :
    (r.sendPacket chn pkt data).2.2.isSome = (r.setFrameType pkt.type).sends chn ∧
      (r.sendPacket chn pkt data).1.hasKeyFrame = (r.setFrameType pkt.type).hasKeyFrame := by
  rcases r.sendPacket_cases chn pkt data with ⟨hs, h⟩ | ⟨hs, data', -, ⟨-, h⟩ | ⟨-, h⟩⟩
  all_goals
    rw [h, hs]
    exact ⟨rfl, rfl⟩

theorem play_info (r : RtpConnection) (chn : MediaChannelId) :
    r.play.mediaChannelInfo chn = if (r.mediaChannelInfo chn).isSetup then
      { r.mediaChannelInfo chn with isPlay := true } else r.mediaChannelInfo chn := rfl

/-- A TEARDOWN opens nothing. -/
theorem teardown_play {r : RtpConnection} {chn : MediaChannelId}
    (h : (r.teardown.mediaChannelInfo chn).isPlay = true) :
    (r.mediaChannelInfo chn).isPlay = true := by
  unfold teardown at h
  split at h
  · exact h
  · simp at h

theorem teardown_record {r : RtpConnection} {chn : MediaChannelId}
    (h : (r.mediaChannelInfo chn).isRecord = false) :
    (r.teardown.mediaChannelInfo chn).isRecord = false := by
  unfold teardown
  split
  · exact h
  · rfl

theorem teardown_hasKeyFrame (r : RtpConnection) : r.teardown.hasKeyFrame = r.hasKeyFrame := by
  unfold teardown
  split <;> rfl

end RtpConnection

/-- Setting clock rates and payload types. -/
theorem describeSources_info (r : RtpConnection) (session : MediaSession) (chn : MediaChannelId) :
    (RtspConnection.describeSources r session).mediaChannelInfo chn =
      match session.source chn with
      | some source => { r.mediaChannelInfo chn with
          clockRate := source.clockRate
          rtpHeader := { (r.mediaChannelInfo chn).rtpHeader with
            payload := Fin.ofNat 128 source.payloadType } }
      | none => r.mediaChannelInfo chn := by
  have h : ∀ (q : RtpConnection) (d : MediaChannelId) (source : MediaSource),
      ((q.setClockRate d source.clockRate).setPayloadType d source.payloadType).mediaChannelInfo =
        Function.update q.mediaChannelInfo d { q.mediaChannelInfo d with
          clockRate := source.clockRate
          rtpHeader := { (q.mediaChannelInfo d).rtpHeader with
            payload := Fin.ofNat 128 source.payloadType } } := by
    intro q d source
    simp [RtpConnection.setPayloadType, RtpConnection.setClockRate, RtpConnection.updateInfo]
  unfold RtspConnection.describeSources channels
  cases h₀ : session.source .channel0 <;> cases h₁ : session.source .channel1 <;>
    cases chn <;> simp [h₀, h₁, h]

theorem describeSources_rest (r : RtpConnection) (session : MediaSession) :
    (RtspConnection.describeSources r session).isClosed = r.isClosed ∧
      (RtspConnection.describeSources r session).hasKeyFrame = r.hasKeyFrame := by
  unfold RtspConnection.describeSources channels
  cases h₀ : session.source .channel0 <;> cases h₁ : session.source .channel1 <;>
    simp [h₀, h₁, RtpConnection.setPayloadType, RtpConnection.setClockRate,
      RtpConnection.updateInfo]

/-! ## One call -/

namespace RtspConnection

variable {c c' d : RtspConnection} {env : Env} {req : RtspRequest}

/-- The RTP connection idles, or has just been made. -/
inductive Rests : Option RtpConnection → Option RtpConnection → Prop
  | absent : Rests none none
  | made (seed : RtpSeed) : Rests none (some (RtpConnection.new seed))
  | idles {r r' : RtpConnection} (h : r.Idles r') : Rests (some r) (some r')

theorem Rests.refl (o : Option RtpConnection) : Rests o o := by
  cases o with
  | none => exact .absent
  | some r => exact .idles (.refl r)

theorem Rests.getD (o : Option RtpConnection) (seed : RtpSeed) :
    Rests o (some (o.getD (RtpConnection.new seed))) := by
  cases o with
  | none => exact .made seed
  | some r => exact .idles (.refl r)

/-- An open connection whose send queue has room takes what is not empty. -/
theorem takes_true {bytes : Bytes} (ho : c.isClosed = false) (hf : c.writeBuffer.isFull = false)
    (hb : bytes ≠ []) : c.takes bytes = true := by
  have hpos : ¬ bytes.length ≤ 0 := by
    rw [Nat.le_zero, List.length_eq_zero_iff]
    exact hb
  simp [takes, ho, BufferWriter.append, hpos, hf]

/-- What the closure reports of a packet it has handed on. -/
inductive HandedOn (c : RtspConnection) (chn : MediaChannelId) :
    Option Transmission → List Effect → Prop
  | nothing : HandedOn c chn none []
  | frame (bytes : Bytes) :
      HandedOn c chn (some (.tcp bytes)) [.framed chn bytes (c.takes bytes)]
  | datagram (fd : Int) (peer : SockAddr) (bytes : Bytes) :
      HandedOn c chn (some (.udp fd peer bytes)) [.sentTo chn fd peer bytes]

/-- **What one call does to the flow.** -/
inductive Flow (c : RtspConnection) : Input → RtspConnection → Prop
  | rests {i : Input} {c' : RtspConnection} (hi : ∀ data env, i ≠ .trigger data env)
      (hr : Rests c.rtpConn c'.rtpConn) (hev : mediaEvents c'.log = mediaEvents c.log)
      (hcl : c'.closures = c.closures) : Flow c i c'
  | describes {req : RtspRequest} {env : Env} {session : MediaSession} {c' : RtspConnection}
      (hd : Describes c env req session)
      (hr : c'.rtpConn =
        some (describeSources (c.rtpConn.getD (RtpConnection.new env.seed)) session))
      (hev : mediaEvents c'.log = mediaEvents c.log) (hcl : c'.closures = c.closures) :
      Flow c (.request req env) c'
  | plays {req : RtspRequest} {env : Env} {rtp : RtpConnection} {c' : RtspConnection}
      (hm : req.method = .play) (hp : c.passes req = true) (hr : c.rtpConn = some rtp)
      (hr' : c'.rtpConn = some rtp.play)
      (hev : mediaEvents c'.log = mediaEvents c.log ++ [.played])
      (hcl : c'.closures = c.closures) : Flow c (.request req env) c'
  | stops {req : RtspRequest} {env : Env} {rtp : RtpConnection} {c' : RtspConnection}
      (hm : req.method = .teardown) (hr : c.rtpConn = some rtp)
      (hr' : c'.rtpConn = some rtp.teardown) (hev : mediaEvents c'.log = mediaEvents c.log)
      (hcl : c'.closures = c.closures) : Flow c (.request req env) c'
  | queues {chn : MediaChannelId} {pkt : RtpPacket} {rtp : RtpConnection} {c' : RtspConnection}
      (hr : c.rtpConn = some rtp) (ho : rtp.isClosed = false) (hr' : c'.rtpConn = c.rtpConn)
      (hev : mediaEvents c'.log = mediaEvents c.log)
      (hcl : c'.closures = c.closures ++ [(chn, pkt)]) : Flow c (.push chn pkt true) c'
  | runs {chn : MediaChannelId} {pkt : RtpPacket} {data data' : PacketData} {env : Env}
      {rtp rtp' : RtpConnection} {out : Option Transmission} {es : List Effect}
      {c' : RtspConnection} (hcl : c.closures = (chn, pkt) :: c'.closures)
      (hr : c.rtpConn = some rtp) (hs : rtp.sendPacket chn pkt data = (rtp', data', out))
      (he : HandedOn c chn out es) (hev : mediaEvents c'.log = mediaEvents c.log ++ es)
      (hr' : c'.rtpConn = some rtp' ∨
        c'.rtpConn = some rtp'.teardown ∧ ∃ fd peer bytes, out = some (.udp fd peer bytes)) :
      Flow c (.trigger data env) c'
  | ends {c' : RtspConnection} (hd : c'.destroyed = true) (hr : c'.rtpConn = none)
      (hev : mediaEvents c'.log = mediaEvents c.log) (hcl : c'.closures = c.closures) :
      Flow c .destroy c'

theorem Quiet.media {es : List Effect} (h : Quiet c es c') :
    mediaEvents c'.log = mediaEvents c.log := by
  rw [h.log, mediaEvents_append, mediaEvents_plumbing h.plumbing, List.append_nil]

theorem Sent.media {signed : Bool} (h : Sent c env req signed c') :
    mediaEvents c'.log = mediaEvents c.log ∧ c'.rtpConn = c.rtpConn ∧ c'.closures = c.closures := by
  obtain ⟨hf, res, es, hl, hp⟩ := h.log
  refine ⟨?_, hf.rtpConn, hf.closures⟩
  rw [hl, mediaEvents_append, ← List.singleton_append, mediaEvents_append, mediaEvents_plumbing hp,
    List.append_nil]
  exact List.append_nil _

/-- The way in does nothing to the flow. -/
theorem Entered.media (h : Entered c req d) :
    mediaEvents d.log = mediaEvents c.log ∧ d.rtpConn = c.rtpConn ∧ d.closures = c.closures := by
  obtain ⟨nonce, hasAuth, es, rfl, hes⟩ := h.eq
  refine ⟨?_, rfl, rfl⟩
  have hnil : mediaEvents es = [] := by
    refine List.filter_eq_nil_iff.mpr ?_
    intro e he
    obtain ⟨n, rfl⟩ := hes e he
    simp
  show mediaEvents (c.log ++ ([.dispatched req] ++ es)) = _
  rw [mediaEvents_append, mediaEvents_append, hnil]
  exact List.append_nil _

theorem Body.flow (hent : Entered c req d) (h : Body d env req c') :
    Flow c (.request req env) c' := by
  obtain ⟨hev₀, hr₀, hcl₀⟩ := hent.media
  -- Whoever gets to the body of such a request has passed.
  have hpass : RtspRequest.authenticates req.method = true → c.passes req = true := by
    intro ha
    rw [Entered, if_pos ha] at hent
    exact hent.passes
  -- Other fields, effects that are no packets, and a response.
  have hplain : ∀ {signed : Bool} {rtcp : MediaChannelId → Option Int}
      {rtp : Option RtpConnection} {es : List Effect},
      Sent ({ d with rtcpChannels := rtcp, rtpConn := rtp }.emit es) env req signed c' →
      Rests d.rtpConn rtp → mediaEvents es = [] → Flow c (.request req env) c' := by
    intro signed rtcp rtp es hs hrest hes
    obtain ⟨hev, hr, hcl⟩ := hs.media
    refine .rests (fun _ _ => Input.noConfusion) ?_ ?_ (hcl.trans hcl₀)
    · rw [hr, ← hr₀]
      exact hrest
    · rw [hev, emit, mediaEvents_append, hes, List.append_nil, hev₀]
  have hsame : ∀ {signed : Bool}, Sent d env req signed c' → Flow c (.request req env) c' := by
    intro signed hs
    rw [← emit_nil d] at hs
    exact hplain hs (.refl _) rfl
  cases h with
  | ignored _ =>
    exact .rests (fun _ _ => Input.noConfusion) (by rw [hr₀]; exact .refl _) hev₀ hcl₀
  | options _ hs | unsupported _ _ _ hs | noSession _ _ hs | parameter _ _ hs => exact hsame hs
  | notFound _ _ hs =>
    rw [← emit_nil { d with rtpConn := _ }] at hs
    exact hplain hs (.getD _ _) rfl
  | @described c' session es hm hl hes hs =>
    obtain ⟨hev, hr, hcl⟩ := hs.media
    refine .describes ⟨hm, hpass (by rw [hm]; rfl), hl⟩ (hr₀ ▸ hr) ?_ (hcl.trans hcl₀)
    rw [hev, ← hev₀]
    rcases hes with ⟨rfl, -⟩ | ⟨rfl, -⟩ <;> simp [emit, mediaEvents]
  | @multicast _ session rtp rtp' ok ops _ _ _ hr hset hs =>
    have hidle := rtp.setupRtpOverMulticast_idles env.attempts req.channelId session.multicastIp
      (session.multicastPort req.channelId)
    rw [hset] at hidle
    refine hplain hs (by rw [hr]; exact .idles hidle) ?_
    rw [mediaEvents_append, mediaEvents_fds]
    split <;> rfl
  | tcp _ _ _ hr hs =>
    exact hplain hs (by rw [hr]; exact .idles (RtpConnection.setupRtpOverTcp_idles ..)) rfl
  | @udp _ session rtp rtp' ops _ _ _ hr hset hs =>
    have hidle := rtp.setupRtpOverUdp_idles env.peerAddr env.attempts req.channelId req.getRtpPort
      req.getRtcpPort
    rw [hset] at hidle
    refine hplain hs (by rw [hr]; exact .idles hidle) ?_
    rw [mediaEvents_append, mediaEvents_fds]
    rfl
  | @udpFailed _ session rtp rtp' ops _ _ _ hr hset hs =>
    have hidle := rtp.setupRtpOverUdp_idles env.peerAddr env.attempts req.channelId req.getRtpPort
      req.getRtcpPort
    rw [hset] at hidle
    refine hplain hs (by rw [hr]; exact .idles hidle) ?_
    rw [mediaEvents_append, mediaEvents_fds]
    split <;> rfl
  | played hm hr hs =>
    obtain ⟨hev, hr', hcl⟩ := hs.media
    refine .plays hm (hpass (by rw [hm]; rfl)) (hr₀ ▸ hr) hr' ?_ (hcl.trans hcl₀)
    rw [hev, ← hev₀]
    simp [emit, mediaEvents]
  | tornDown hm hr hs =>
    obtain ⟨hev, hr', hcl⟩ := hs.media
    exact .stops hm (hr₀ ▸ hr) hr' (hev.trans hev₀) (hcl.trans hcl₀)

theorem handleCommand_flow (h : c.handleCommand env req = some c') :
    Flow c (.request req env) c' := by
  rcases handleCommand_cases h with ⟨auth, -, -, -, -, hs⟩ | ⟨d, hent, hbody⟩
  · obtain ⟨hev, hr, hcl⟩ := hs.media
    refine .rests (fun _ _ => Input.noConfusion) (by rw [hr]; exact .refl _) ?_ hcl
    rw [hev]
    simp [emit, mediaEvents]
  · exact hbody.flow hent

theorem runClosure_flow {data : PacketData} (h : c.runClosure data env = some c') :
    Flow c (.trigger data env) c' := by
  obtain ⟨chn, pkt, rest, rtp, rtp', ⟨data', out⟩, hcl, hr, hs, hout⟩ := runClosure_cases h
  rcases hout with ⟨ho, rfl⟩ | ⟨bytes, es, ho, hq⟩ | ⟨fd, peer, bytes, ho, rfl⟩
  · obtain rfl : out = none := ho
    exact .runs hcl hr hs .nothing (List.append_nil _).symm (Or.inl rfl)
  · obtain rfl : out = some (.tcp bytes) := ho
    have hrest : rest = c'.closures := hq.frame.closures.symm
    refine .runs (by rw [← hrest]; exact hcl) hr hs (.frame bytes) ?_ (Or.inl hq.frame.rtpConn)
    rw [hq.media, queue, emit, mediaEvents_append]
    rfl
  · obtain rfl : out = some (.udp fd peer bytes) := ho
    refine .runs hcl hr hs (.datagram fd peer bytes) ?_ ?_
    · rw [emit, mediaEvents_append]
      rfl
    · cases env.sendto with
      | true => exact Or.inl rfl
      | false => exact Or.inr ⟨rfl, fd, peer, bytes, rfl⟩

/-- **Every call.** -/
theorem serve_flow {i : Input} (h : c.serve i = some c') : Flow c i c' := by
  have hquiet : ∀ {es : List Effect}, Quiet c es c' → (∀ data env, i ≠ .trigger data env) →
      Flow c i c' := by
    intro es hq hi
    exact .rests hi (by rw [hq.frame.rtpConn]; exact .refl _) hq.media hq.frame.closures
  unfold serve at h
  split at h
  · simp at h
  · cases i with
    | read reader =>
      simp only at h
      split at h
      · simp at h
      · simp only [Option.some.injEq] at h
        subst h
        exact .rests (fun _ _ => Input.noConfusion) (.refl _) rfl rfl
    | request req env =>
      simp only at h
      split at h
      · simp at h
      · exact handleCommand_flow h
    | close env =>
      simp only [Option.some.injEq] at h
      subst h
      obtain ⟨es, hq⟩ := close_quiet c env
      exact hquiet hq (fun _ _ => Input.noConfusion)
    | writable env =>
      simp only [Option.some.injEq] at h
      subst h
      obtain ⟨es, hq⟩ := handleWrite_quiet c env
      exact hquiet hq (fun _ _ => Input.noConfusion)
    | push chn pkt taken =>
      simp only [sendRtpPacket, Option.map_eq_some_iff] at h
      obtain ⟨rtp, hr, h⟩ := h
      split at h
      · subst h
        exact .rests (fun _ _ => Input.noConfusion) (.refl _) rfl rfl
      · rename_i ho
        cases taken with
        | true =>
          simp only [if_true] at h
          subst h
          exact .queues hr (by simpa using ho) rfl rfl rfl
        | false =>
          simp only [Bool.false_eq_true, if_false] at h
          subst h
          exact .rests (fun _ _ => Input.noConfusion) (.refl _) rfl rfl
    | trigger data env => exact runClosure_flow h
    | destroy =>
      simp only at h
      split at h
      · simp only [Option.some.injEq] at h
        subst h
        refine .ends rfl rfl ?_ rfl
        rw [destroy, emit, mediaEvents_append, mediaEvents_fds, List.append_nil]
      · simp at h

/-- `Record` is never called here. -/
def NoRecord (c : RtspConnection) : Prop :=
  ∀ rtp, c.rtpConn = some rtp → ∀ chn, (rtp.mediaChannelInfo chn).isRecord = false

theorem NoRecord.serve {i : Input} (h : NoRecord c) (hs : c.serve i = some c') : NoRecord c' := by
  intro rtp' hr' chn
  cases serve_flow hs with
  | rests _ hr _ _ =>
    rw [hr'] at hr
    generalize ho : c.rtpConn = o at hr
    cases hr with
    | made seed => rfl
    | idles hi => exact (hi.info chn).isRecord.trans (h _ ho chn)
  | @describes req env session _ _ hr _ _ =>
    obtain rfl := Option.some.inj (hr.symm.trans hr')
    have hbase : ((c.rtpConn.getD (RtpConnection.new env.seed)).mediaChannelInfo chn).isRecord =
        false := by
      cases ho : c.rtpConn with
      | none => rfl
      | some rtp => exact h rtp ho chn
    rw [describeSources_info]
    cases session.source chn <;> exact hbase
  | plays _ _ hr hplay _ _ =>
    obtain rfl := Option.some.inj (hplay.symm.trans hr')
    rw [RtpConnection.play_info]
    split <;> exact h _ hr chn
  | stops _ hr hstop _ _ =>
    obtain rfl := Option.some.inj (hstop.symm.trans hr')
    exact RtpConnection.teardown_record (h _ hr chn)
  | queues _ _ hsame _ _ => exact h rtp' (hsame ▸ hr') chn
  | @runs x pkt data data' env rtp q out es _ _ hr hsend _ _ hout =>
    have hq : (q.mediaChannelInfo chn).isRecord = false := by
      have hsame := (rtp.sendPacket_same x pkt data).2.2.2.2.2 chn
      rw [hsend] at hsame
      exact hsame.2.2.2.trans (h rtp hr chn)
    rcases hout with hout | ⟨hout, -⟩
    · obtain rfl := Option.some.inj (hout.symm.trans hr')
      exact hq
    · obtain rfl := Option.some.inj (hout.symm.trans hr')
      exact RtpConnection.teardown_record hq
  | ends _ hr _ _ =>
    rw [hr'] at hr
    simp at hr

end RtspConnection

end Maixii.Xop
