import Maixii.Xop.ChannelTransport
import Maixii.Xop.MediaFlow

/-!
# `Xop/KeyFrame.lean`: what a viewer sees first

A viewer can only start with a key frame, and only with its first packet. `has_key_frame_` is meant
to see to that, but it belongs to the connection and not to a PLAY: whatever packet comes first with
the right type sets it, once and for all, whether the client is playing yet or not, and whether
the packet is the beginning of its frame or the middle.

So a viewer starts where it should as long as nothing has set the flag before a PLAY, and what sets
it while the video plays is the first packet of a video frame (`OnTime`). Which packet is the first
of its frame is said by whoever pushes it.
-/

set_option autoImplicit false

namespace Maixii.Xop

open Maixii.Lib Maixii.Net

/-! ## The model -/

/-- What a viewer notices: its PLAY, and every video packet, with its place in its frame and the
type of the frame. -/
inductive Showing
  | play
  | video (first : Bool) (type : UInt8)
  deriving DecidableEq

structure Viewer where
  conn : RtspConnection
  /-- For every closure, whether its packet is the first of its frame. -/
  firsts : List Bool
  shown : List Showing

/-- What the oldest closure will have been. -/
def Viewer.oldest (v : Viewer) : Option (Bool × UInt8) :=
  match v.firsts, v.conn.closures with
  | first :: _, (_, pkt) :: _ => some (first, pkt.type)
  | _, _ => none

/-- A packet is sent when the send queue or `sendto` has it. -/
def Viewer.showing (video : MediaChannelId) (v : Viewer) : Effect → Option Showing
  | .played => some .play
  | .framed chn _ true | .sentTo chn _ _ _ =>
      if chn = video then v.oldest.map fun x => .video x.1 x.2 else none
  | _ => none

/-- A closure that is queued brings its flag, the one that is run takes it away. -/
def Viewer.nextFirsts (v : Viewer) (c' : RtspConnection) : Input × Bool → List Bool
  | (.push _ _ _, first) =>
      v.firsts ++ (c'.closures.drop v.conn.closures.length).map fun _ => first
  | (.trigger _ _, _) => v.firsts.tail
  | _ => v.firsts

/-- One call; with a push comes whether its packet is the first of its frame. -/
def Viewer.step (video : MediaChannelId) (v : Viewer) (call : Input × Bool) : Option Viewer :=
  (v.conn.serve call.1).map fun c' =>
    { conn := c'
      firsts := v.nextFirsts c' call
      shown := v.shown ++
        ((mediaEvents c'.log).drop (mediaEvents v.conn.log).length).filterMap (v.showing video) }

/-- A viewer on a new connection. -/
def watching (authInfo : Option DigestAuthentication) (video : MediaChannelId) :
    System Viewer (Input × Bool) :=
  System.ofStep
    (fun v => ∃ fd request, 0 < fd ∧ v = ⟨RtspConnection.new fd authInfo request, [], []⟩)
    (Viewer.step video)

/-- A frame one can start with. -/
def IsKey (type : UInt8) : Prop := type = 0 ∨ type = RtpConnection.videoFrameI

instance (type : UInt8) : Decidable (IsKey type) := inferInstanceAs (Decidable (_ ∨ _))

/-- The first video packet after a PLAY is the first one of a key frame. -/
def StartsOnKeyFrame (shown : List Showing) : Prop :=
  ∀ pre mid first type post, shown = pre ++ .play :: mid ++ .video first type :: post →
    (∀ s ∈ mid, s = .play) → first = true ∧ IsKey type

/-- The packet will be taken for the first key frame, and the video plays. -/
def Opens (video : MediaChannelId) (rtp : RtpConnection) (pkt : RtpPacket) : Prop :=
  rtp.hasKeyFrame = false ∧ IsKey pkt.type ∧ (rtp.mediaChannelInfo video).isPlay = true

instance (video : MediaChannelId) (rtp : RtpConnection) (pkt : RtpPacket) :
    Decidable (Opens video rtp pkt) := inferInstanceAs (Decidable (_ ∧ _))

/-- The send queue will take a packet, or is not needed. -/
def Viewer.HasRoom (v : Viewer) (rtp : RtpConnection) : Prop :=
  rtp.transportMode = .rtpOverTcp → v.conn.isClosed = false ∧ v.conn.writeBuffer.isFull = false

instance (v : Viewer) (rtp : RtpConnection) : Decidable (v.HasRoom rtp) :=
  inferInstanceAs (Decidable (_ → _))

/-- **The guard.** A PLAY is carried out only while no key frame has been seen; and what is taken
for one while the video plays is the first packet of a video frame, and is not lost. -/
def OnTime (video : MediaChannelId) (v : Viewer) (call : Input × Bool) : Prop :=
  match call.1 with
  | .request req _ => req.method = .play → v.conn.passes req = true →
      ∀ rtp ∈ v.conn.rtpConn, rtp.hasKeyFrame = false
  | .trigger _ _ => ∀ rtp ∈ v.conn.rtpConn, ∀ x ∈ v.conn.closures.head?,
      Opens video rtp x.2 → x.1 = video ∧ v.firsts.head? = some true ∧ v.HasRoom rtp
  | _ => True

instance (video : MediaChannelId) (v : Viewer) (call : Input × Bool) :
    Decidable (OnTime video v call) := by
  unfold OnTime
  split <;> infer_instance

/-! ## What has been shown -/

/-- Nothing has been shown since the last PLAY. -/
def awaiting (shown : List Showing) : Bool :=
  shown.foldl (fun _ s => match s with
    | .play => true
    | .video _ _ => false) false

theorem awaiting_play (shown : List Showing) : awaiting (shown ++ [.play]) = true := by
  rw [awaiting, List.foldl_append]
  rfl

theorem awaiting_video (shown : List Showing) (first : Bool) (type : UInt8) :
    awaiting (shown ++ [.video first type]) = false := by
  rw [awaiting, List.foldl_append]
  rfl

theorem awaiting_of_plays {pre mid : List Showing} (h : ∀ s ∈ mid, s = .play) :
    awaiting (pre ++ .play :: mid) = true := by
  induction mid using List.reverseRecOn with
  | nil => exact awaiting_play pre
  | append_singleton mid s _ =>
    rw [h s (by simp), ← List.cons_append, ← List.append_assoc]
    exact awaiting_play _

theorem startsOnKeyFrame_play {shown : List Showing} (h : StartsOnKeyFrame shown) :
    StartsOnKeyFrame (shown ++ [.play]) := by
  intro pre mid first type post heq hmid
  rcases List.eq_nil_or_concat post with rfl | ⟨rest, s, rfl⟩
  · -- The packet is not the PLAY at the end.
    have hlast := (List.append_inj' heq rfl).2
    simp at hlast
  · have heq' : shown ++ [.play] =
        (pre ++ .play :: mid ++ .video first type :: rest) ++ [s] := by
      rw [heq]
      simp
    exact h pre mid first type rest (List.append_inj_left' heq' rfl) hmid

theorem startsOnKeyFrame_video {shown : List Showing} {first : Bool} {type : UInt8}
    (h : StartsOnKeyFrame shown) (hkey : awaiting shown = true → first = true ∧ IsKey type) :
    StartsOnKeyFrame (shown ++ [.video first type]) := by
  intro pre mid first' type' post heq hmid
  rcases List.eq_nil_or_concat post with rfl | ⟨rest, s, rfl⟩
  · obtain ⟨hshown, hlast⟩ := List.append_inj' heq rfl
    obtain ⟨rfl, rfl⟩ : first = first' ∧ type = type' := by simpa using hlast
    refine hkey ?_
    rw [hshown]
    exact awaiting_of_plays hmid
  · have heq' : shown ++ [.video first type] =
        (pre ++ .play :: mid ++ .video first' type' :: rest) ++ [s] := by
      rw [heq]
      simp
    exact h pre mid first' type' rest (List.append_inj_left' heq' rfl) hmid

/-! ## The invariant -/

structure Viewer.Good (video : MediaChannelId) (v : Viewer) : Prop where
  lengths : v.firsts.length = v.conn.closures.length
  starts : StartsOnKeyFrame v.shown
  /-- As long as nothing has been shown, the flag is still to be set. -/
  waits : awaiting v.shown = true → ∀ rtp, v.conn.rtpConn = some rtp →
    (rtp.mediaChannelInfo video).isPlay = true → rtp.hasKeyFrame = false
  record : ∀ rtp, v.conn.rtpConn = some rtp → (rtp.mediaChannelInfo video).isRecord = false

variable {video : MediaChannelId} {v v' : Viewer}

/-- Nothing is shown, and the channel is as open as it was. -/
theorem Viewer.Good.unshown {c' : RtspConnection} {firsts : List Bool} (h : v.Good video)
    (hlen : firsts.length = c'.closures.length)
    (hrtp : ∀ rtp', c'.rtpConn = some rtp' →
      (rtp'.mediaChannelInfo video).isRecord = false ∧
      ((rtp'.mediaChannelInfo video).isPlay = true → awaiting v.shown = true →
        rtp'.hasKeyFrame = false)) :
    Viewer.Good video ⟨c', firsts, v.shown ++ []⟩ := by
  rw [List.append_nil]
  refine ⟨hlen, h.starts, ?_, ?_⟩
  · intro hw rtp hr hplay
    exact (hrtp rtp hr).2 hplay hw
  · intro rtp hr
    exact (hrtp rtp hr).1

/-- What idles is as open as it was. -/
theorem Viewer.Good.rests {c' : RtspConnection} (h : v.Good video)
    (hr : RtspConnection.Rests v.conn.rtpConn c'.rtpConn) : ∀ rtp', c'.rtpConn = some rtp' →
      (rtp'.mediaChannelInfo video).isRecord = false ∧
      ((rtp'.mediaChannelInfo video).isPlay = true → awaiting v.shown = true →
        rtp'.hasKeyFrame = false) := by
  intro rtp' hr'
  rw [hr'] at hr
  generalize ho : v.conn.rtpConn = o at hr
  cases hr with
  | made seed => exact ⟨rfl, fun hplay => Bool.noConfusion hplay⟩
  | @idles r _ hi =>
    refine ⟨(hi.info video).isRecord.trans (h.record r ho), ?_⟩
    intro hplay hw
    rw [(hi.info video).isPlay] at hplay
    exact hi.hasKeyFrame.trans (h.waits hw r ho hplay)

/-- A frame is never empty. -/
theorem tcp_ne_nil {r r' : RtpConnection} {chn : MediaChannelId} {pkt : RtpPacket}
    {data data' : PacketData} {bytes : Bytes}
    (h : r.sendPacket chn pkt data = (r', data', some (.tcp bytes))) :
    bytes ≠ [] ∧ r.transportMode = .rtpOverTcp := by
  rcases r.sendPacket_cases chn pkt data with ⟨-, hs⟩ | ⟨-, d, -, ⟨ht, hs⟩ | ⟨-, hs⟩⟩
  · rw [hs] at h
    simp at h
  · rw [hs] at h
    obtain ⟨-, -, hb⟩ : _ ∧ _ ∧ _ = bytes := by simpa using h
    rw [← hb]
    exact ⟨by simp [RtpConnection.interleavedHeader], ht⟩
  · rw [hs] at h
    simp at h

/-- **The oldest closure.** -/
theorem Viewer.Good.runs {c' : RtspConnection} {chn : MediaChannelId} {pkt : RtpPacket}
    {data data' : PacketData} {rtp rtp' : RtpConnection} {out : Option Transmission}
    {es : List Effect} (h : v.Good video)
    (hg : ∀ x ∈ v.conn.closures.head?,
      Opens video rtp x.2 → x.1 = video ∧ v.firsts.head? = some true ∧ v.HasRoom rtp)
    (hcl : v.conn.closures = (chn, pkt) :: c'.closures) (hr : v.conn.rtpConn = some rtp)
    (hs : rtp.sendPacket chn pkt data = (rtp', data', out))
    (he : RtspConnection.HandedOn v.conn chn out es)
    (hr' : c'.rtpConn = some rtp' ∨
      c'.rtpConn = some rtp'.teardown ∧ ∃ fd peer bytes, out = some (.udp fd peer bytes)) :
    Viewer.Good video ⟨c', v.firsts.tail, v.shown ++ es.filterMap (v.showing video)⟩ := by
  obtain ⟨first, firsts, hf⟩ : ∃ first firsts, v.firsts = first :: firsts := by
    have hlen := h.lengths
    rw [hcl, List.length_cons] at hlen
    exact List.exists_cons_of_length_eq_add_one hlen
  have hlen : v.firsts.tail.length = c'.closures.length := by
    have := h.lengths
    rw [hcl, hf, List.length_cons, List.length_cons] at this
    rw [hf, List.tail_cons]
    omega
  have hopens : Opens video rtp pkt → chn = video ∧ first = true ∧ v.HasRoom rtp := by
    intro ho
    have := hg (chn, pkt) (by rw [hcl]; rfl) ho
    rw [hf] at this
    exact ⟨this.1, by simpa using this.2.1, this.2.2⟩
  -- The connection afterwards, torn down or not.
  have hsame := rtp.sendPacket_same chn pkt data
  obtain ⟨hsome, hkey⟩ := rtp.sendPacket_flow chn pkt data
  rw [hs] at hsame hsome hkey
  dsimp only at hsame hsome hkey
  have hrec : (rtp.mediaChannelInfo video).isRecord = false := h.record rtp hr
  have hafter : ∀ r, c'.rtpConn = some r → (r.mediaChannelInfo video).isRecord = false ∧
      r.hasKeyFrame = (rtp.setFrameType pkt.type).hasKeyFrame ∧
      ((r.mediaChannelInfo video).isPlay = true → (rtp.mediaChannelInfo video).isPlay = true) := by
    intro r hrr
    obtain ⟨-, -, hp, hrr'⟩ := hsame.2.2.2.2.2 video
    rcases hr' with hr' | ⟨hr', -⟩
    · rw [hr', Option.some.injEq] at hrr
      subst hrr
      exact ⟨hrr'.trans hrec, hkey, fun hplay => hp ▸ hplay⟩
    · rw [hr', Option.some.injEq] at hrr
      subst hrr
      exact ⟨RtpConnection.teardown_record (hrr'.trans hrec),
        (RtpConnection.teardown_hasKeyFrame rtp').trans hkey,
        fun hplay => hp ▸ RtpConnection.teardown_play hplay⟩
  -- If the flag is set while the video plays and nothing has been shown, this packet has set it.
  have hset : awaiting v.shown = true → (rtp.mediaChannelInfo video).isPlay = true →
      (rtp.setFrameType pkt.type).hasKeyFrame = true → Opens video rtp pkt := by
    intro hw hplay hk
    have hbefore := h.waits hw rtp hr hplay
    refine ⟨hbefore, ?_, hplay⟩
    simpa [RtpConnection.setFrameType, hbefore, IsKey] using hk
  have hunshown : (awaiting v.shown = true → (rtp.mediaChannelInfo video).isPlay = true →
      (rtp.setFrameType pkt.type).hasKeyFrame = true → False) →
      Viewer.Good video ⟨c', v.firsts.tail, v.shown ++ []⟩ := by
    intro hno
    refine h.unshown hlen ?_
    intro r hrr
    obtain ⟨hrec', hk, hp⟩ := hafter r hrr
    refine ⟨hrec', ?_⟩
    intro hplay hw
    rw [hk]
    exact Bool.eq_false_iff.mpr fun hk' => hno hw (hp hplay) hk'
  have hshown : (rtp.setFrameType pkt.type).sends chn = true → chn = video →
      Viewer.Good video ⟨c', v.firsts.tail, v.shown ++ [.video first pkt.type]⟩ := by
    intro hsends hchn
    obtain ⟨hplay, hk⟩ : (rtp.mediaChannelInfo video).isPlay = true ∧
        (rtp.setFrameType pkt.type).hasKeyFrame = true := by
      rw [hchn] at hsends
      have hrec' : ((rtp.setFrameType pkt.type).mediaChannelInfo video).isRecord = false := hrec
      simp only [RtpConnection.sends, hrec', Bool.or_false, Bool.and_eq_true] at hsends
      exact hsends
    refine ⟨hlen, startsOnKeyFrame_video h.starts ?_, ?_, ?_⟩
    · intro hw
      have ho := hset hw hplay hk
      exact ⟨(hopens ho).2.1, ho.2.1⟩
    · intro hw
      rw [awaiting_video] at hw
      exact Bool.noConfusion hw
    · intro r hrr
      exact (hafter r hrr).1
  have holdest : v.oldest = some (first, pkt.type) := by
    unfold Viewer.oldest
    rw [hf, hcl]
  cases he with
  | nothing =>
    refine hunshown ?_
    intro hw hplay hk
    -- It is of the video channel, and would have been sent.
    obtain ⟨rfl, -⟩ := hopens (hset hw hplay hk)
    have hsends : (rtp.setFrameType pkt.type).sends chn = true := by
      have hplay' : ((rtp.setFrameType pkt.type).mediaChannelInfo chn).isPlay = true := hplay
      simp [RtpConnection.sends, hplay', hk]
    rw [hsends] at hsome
    exact Bool.noConfusion hsome
  | frame bytes =>
    obtain ⟨hne, htcp⟩ := tcp_ne_nil hs
    by_cases hv : chn = video ∧ v.conn.takes bytes = true
    · have hfm : [Effect.framed chn bytes (v.conn.takes bytes)].filterMap (v.showing video) =
          [.video first pkt.type] := by
        rw [hv.2]
        simp [Viewer.showing, hv.1, holdest]
      rw [hfm]
      exact hshown hsome.symm hv.1
    · have hfm : [Effect.framed chn bytes (v.conn.takes bytes)].filterMap (v.showing video) =
          [] := by
        cases ht : v.conn.takes bytes with
        | false => rfl
        | true =>
          have hne : chn ≠ video := fun hc => hv ⟨hc, ht⟩
          simp [Viewer.showing, hne]
      rw [hfm]
      refine hunshown ?_
      intro hw hplay hk
      obtain ⟨hc, -, hroom⟩ := hopens (hset hw hplay hk)
      exact hv ⟨hc, RtspConnection.takes_true (hroom htcp).1 (hroom htcp).2 hne⟩
  | datagram fd peer bytes =>
    by_cases hv : chn = video
    · have hfm : [Effect.sentTo chn fd peer bytes].filterMap (v.showing video) =
          [.video first pkt.type] := by
        simp [Viewer.showing, hv, holdest]
      rw [hfm]
      exact hshown hsome.symm hv
    · have hfm : [Effect.sentTo chn fd peer bytes].filterMap (v.showing video) = [] := by
        simp [Viewer.showing, hv]
      rw [hfm]
      refine hunshown ?_
      intro hw hplay hk
      exact hv (hopens (hset hw hplay hk)).1

/-- **One call.** -/
theorem Viewer.Good.step {call : Input × Bool} (h : v.Good video) (hg : OnTime video v call)
    (hs : v.step video call = some v') : v'.Good video := by
  obtain ⟨i, first⟩ := call
  obtain ⟨c', hserve, rfl⟩ := Option.map_eq_some_iff.mp hs
  have hflow := RtspConnection.serve_flow hserve
  dsimp only at hflow
  -- What is shown is what the call adds to the log.
  have hadds : ∀ {es : List Effect}, mediaEvents c'.log = mediaEvents v.conn.log ++ es →
      (mediaEvents c'.log).drop (mediaEvents v.conn.log).length = es := by
    intro es hev
    rw [hev, List.drop_left]
  have hkept : c'.closures = v.conn.closures → (∀ data env, i ≠ .trigger data env) →
      (v.nextFirsts c' (i, first)).length = c'.closures.length := by
    intro hcl hni
    rw [hcl, ← h.lengths]
    cases i with
    | trigger data env => exact absurd rfl (hni data env)
    | push _ _ _ => simp [Viewer.nextFirsts, hcl]
    | _ => rfl
  have hquiet : mediaEvents c'.log = mediaEvents v.conn.log →
      (v.nextFirsts c' (i, first)).length = c'.closures.length →
      (∀ rtp', c'.rtpConn = some rtp' →
        (rtp'.mediaChannelInfo video).isRecord = false ∧
        ((rtp'.mediaChannelInfo video).isPlay = true → awaiting v.shown = true →
          rtp'.hasKeyFrame = false)) →
      Viewer.Good video ⟨c', v.nextFirsts c' (i, first), v.shown ++
        ((mediaEvents c'.log).drop (mediaEvents v.conn.log).length).filterMap
          (v.showing video)⟩ := by
    intro hev hlen hrtp
    rw [hadds (hev.trans (List.append_nil _).symm)]
    exact h.unshown hlen hrtp
  cases hflow with
  | rests hi hr hev hcl => exact hquiet hev (hkept hcl hi) (h.rests hr)
  | @describes req env session _ hd hr hev hcl =>
    refine hquiet hev (hkept hcl fun _ _ => Input.noConfusion) ?_
    -- A description only sets clock rates and payload types.
    intro rtp' hrtp'
    let base : RtspConnection :=
      { c' with rtpConn := some (v.conn.rtpConn.getD (RtpConnection.new env.seed)) }
    have hbase : RtspConnection.Rests v.conn.rtpConn base.rtpConn := .getD _ _
    have hrest := h.rests hbase _ rfl
    rw [hr, Option.some.injEq] at hrtp'
    subst hrtp'
    have hinfo := describeSources_info (v.conn.rtpConn.getD (RtpConnection.new env.seed)) session
      video
    rw [(describeSources_rest _ session).2, hinfo]
    cases session.source video <;> exact hrest
  | @plays req env rtp _ hm hp hr hr' hev hcl =>
    have hnokey : rtp.hasKeyFrame = false := hg hm hp rtp hr
    have hlen := hkept hcl fun _ _ => Input.noConfusion
    rw [hadds hev]
    refine ⟨hlen, startsOnKeyFrame_play h.starts, ?_, ?_⟩
    · intro _ rtp' hrtp' _
      rw [hr', Option.some.injEq] at hrtp'
      subst hrtp'
      exact hnokey
    · intro rtp' hrtp'
      rw [hr', Option.some.injEq] at hrtp'
      subst hrtp'
      rw [RtpConnection.play_info]
      split <;> exact h.record rtp hr
  | @stops req env rtp _ hm hr hr' hev hcl =>
    refine hquiet hev (hkept hcl fun _ _ => Input.noConfusion) ?_
    intro rtp' hrtp'
    rw [hr', Option.some.injEq] at hrtp'
    subst hrtp'
    refine ⟨RtpConnection.teardown_record (h.record rtp hr), ?_⟩
    intro hplay hw
    rw [RtpConnection.teardown_hasKeyFrame]
    exact h.waits hw rtp hr (RtpConnection.teardown_play hplay)
  | @queues chn pkt rtp _ hr ho hr' hev hcl =>
    refine hquiet hev ?_ (h.rests (by rw [hr']; exact .refl _))
    simp [Viewer.nextFirsts, hcl, h.lengths]
  | runs hcl hr hsend he hev hr' =>
    rw [hadds hev]
    exact h.runs (hg _ hr) hcl hr hsend he hr'
  | ends hd hr hev hcl =>
    refine hquiet hev (hkept hcl fun _ _ => Input.noConfusion) ?_
    intro rtp' hrtp'
    rw [hr] at hrtp'
    simp at hrtp'

/-- **Key-frame start.** In every run that keeps to the guard, the first video packet after a PLAY
is the first packet of a key frame. The statement is about all that the viewer was shown, PLAY by
PLAY, because `hasKeyFrame` is set once and never cleared: a second PLAY begins the promise anew
while the connection no longer waits for a key frame. -/
theorem key_frame_start (authInfo : Option DigestAuthentication) (video : MediaChannelId)
    {v : Viewer} (h : Reach (watching authInfo video) (OnTime video) v) :
    StartsOnKeyFrame v.shown := by
  have hgood : v.Good video := by
    refine h.inv (P := Viewer.Good video) ?_ ?_
    · rintro _ ⟨fd, request, -, rfl⟩
      refine ⟨rfl, ?_, ?_, ?_⟩
      · intro pre mid first type post heq
        simp at heq
      · intro hw
        exact Bool.noConfusion hw
      · intro rtp hr
        simp [RtspConnection.new] at hr
    · intro w call w' hw hg hst
      exact hw.step hg hst
  exact hgood.starts

/-- A P frame in one packet. -/
def interPacket : RtpPacket := ⟨16, 6000, 2, 1, keyPacket.size_ge, keyPacket.size_le⟩

/-- The source emits a frame of one packet, and it is sent or falls. -/
def emits (pkt : RtpPacket) : List (Input × Bool) :=
  [(.push .channel0 pkt true, true), (.trigger blankData (Env.live 7 8), false)]

/-- The client does this. -/
def hears (req : RtspRequest) : List (Input × Bool) := [(.request req (Env.live 7 8), false)]

def describeLive : RtspRequest := .forLive .describe .rtpOverTcp .channel0 [(.cseq, [], 1)]

def playLive : RtspRequest := .forLive .play .rtpOverTcp .channel0 [(.cseq, [], 4)]

/-- A viewer whose connection has just been accepted. -/
def newViewer : Viewer := ⟨accepted, [], []⟩

theorem newViewer_start : (watching none .channel0).start newViewer := ⟨5, _, by decide, rfl⟩

theorem key_frame_start_one :
    ∃ v : Viewer, v.shown = [.play, .video true 1, .video true 2] ∧ StartsOnKeyFrame v.shown := by
  obtain ⟨v, hr, hv⟩ := reach_of_runFrom (Viewer.step .channel0) (OnTime .channel0) newViewer
    (hears describeLive ++ hears videoOverTcp ++ hears playLive ++ emits keyPacket ++
      emits interPacket)
    Viewer.shown [.play, .video true 1, .video true 2] newViewer_start (by decide +kernel)
  have h := key_frame_start none .channel0 hr
  exact ⟨v, hv, h⟩

/-- **A key frame before the PLAY**: the viewer starts with the P frame behind it. -/
theorem key_frame_start_late :
    ¬ ∀ (authInfo : Option DigestAuthentication) (video : MediaChannelId) (v : Viewer),
      Reach (watching authInfo video) (anyStep _ _) v → StartsOnKeyFrame v.shown := by
  intro h
  obtain ⟨v, hr, hv⟩ := reach_of_runFrom (Viewer.step .channel0) (anyStep _ _) newViewer
    (hears describeLive ++ hears videoOverTcp ++ emits keyPacket ++ hears playLive ++
      emits interPacket)
    Viewer.shown [.play, .video true 2] newViewer_start (by decide +kernel)
  have hkey := h none .channel0 v hr [] [] true 2 [] hv (by simp)
  exact absurd hkey.2 (by decide)

end Maixii.Xop
