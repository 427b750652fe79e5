import Mathlib.Data.List.Perm.Subperm
import Maixii.Xop.KeyFrame
import Maixii.Xop.Multicast
import Maixii.Xop.Registered

/-!
# `Xop/Playing.lean`: what a 200 to a PLAY is worth

The 200 is sent because there is an RTP connection. Whether packets flow afterwards depends on other
things altogether: that a channel has been set up, that the RTP connection has never been torn down
(it is never made anew), and that the client stands in the map of its session, where another socket
of the same number may have been before it.

Where all of this holds at the PLAY (`Ready`), it stays so, whatever the connection, the other
connections and the server do: the client stays in the map, the channel stays open, and every key
packet the session pushes is either handed on to the transport or still on its way
(`play_delivers`). What can still get in the way is not the connection's to decide (`Undisturbed`):
a full trigger queue, and in a multicast session another client that takes the packet.
-/

set_option autoImplicit false

namespace Maixii.Xop

open Maixii.Lib Maixii.Net

/-! ## A seat in the audience -/

/-- A channel of a session, as one client sees it. -/
structure Seat where
  client : Nat
  sessionId : Nat
  chn : MediaChannelId

/-- What has happened at a seat since its PLAY. -/
structure Audience where
  srv : RtspServer
  /-- The key packets that the session has pushed on the channel. -/
  pushed : List RtpPacket
  /-- Those that have been given to the transport for this client. -/
  handed : List RtpPacket
  /-- There has been a TEARDOWN or a transport error, or the connection is closed. -/
  finished : Bool

/-- The key packets of a channel. -/
def keyPackets (chn : MediaChannelId) (l : List (MediaChannelId × RtpPacket)) : List RtpPacket :=
  (l.filter fun x => decide (x.1 = chn) && decide (IsKey x.2.type)).map Prod.snd

namespace Seat

/-- The key packet of a push that will come to the client. -/
def coming (w : Seat) (push : Push) : List RtpPacket :=
  if w.client ∈ push.clients then keyPackets w.chn [(push.chn, push.pkt)] else []

/-- The key packets on their way: in the client's closures, and in the pushes. -/
def underWay (w : Seat) (srv : RtspServer) : List RtpPacket :=
  keyPackets w.chn ((srv.conns[w.client]?).elim [] RtspConnection.closures) ++
    srv.pushes.flatMap w.coming

def pushes (w : Seat) : ServerInput → List RtpPacket
  | .frame id chn pkt => if id = w.sessionId then keyPackets w.chn [(chn, pkt)] else []
  | _ => []

/-- The closure that is run has called `Send` or `sendto`. -/
def hands (w : Seat) (srv srv' : RtspServer) : ServerInput → List RtpPacket
  | .call i (.trigger _ _) =>
      match srv.conns[i]?, srv'.conns[i]? with
      | some c, some c' =>
          if i = w.client ∧ (mediaEvents c.log).length < (mediaEvents c'.log).length then
            keyPackets w.chn (c.closures.take 1)
          else []
      | _, _ => []
  | _ => []

/-- A TEARDOWN of the client, or a `sendto` for it that fails. -/
def stops (w : Seat) (srv : RtspServer) : ServerInput → Bool
  | .call i (.request req _) => decide (i = w.client) && decide (req.method = .teardown)
  | .call i (.trigger _ env) => decide (i = w.client) && !env.sendto &&
      (srv.conns[i]?).any fun c => c.rtpConn.any fun rtp =>
        decide (rtp.transportMode ≠ .rtpOverTcp)
  | _ => false

def closed (w : Seat) (srv : RtspServer) : Bool := (srv.conns[w.client]?).any (·.isClosed)

def next (w : Seat) (a : Audience) (inp : ServerInput) (srv' : RtspServer) : Audience where
  srv := srv'
  pushed := a.pushed ++ w.pushes inp
  handed := a.handed ++ w.hands a.srv srv' inp
  finished := a.finished || w.stops a.srv inp || w.closed srv'

def step (authInfo : Option DigestAuthentication) (w : Seat) (a : Audience) (inp : ServerInput) :
    Option Audience :=
  (a.srv.step authInfo inp).map (w.next a inp)

/-- Nothing has happened yet. -/
def begin (w : Seat) (srv : RtspServer) : Audience := ⟨srv, [], [], w.closed srv⟩

/-- The audience of a server, from some moment on. -/
def watch (w : Seat) (authInfo : Option DigestAuthentication) (srv : RtspServer) :
    System Audience ServerInput :=
  System.ofStep (· = w.begin srv) (w.step authInfo)

theorem watch_start (authInfo : Option DigestAuthentication) (w : Seat) (srv : RtspServer) :
    (w.watch authInfo srv).start (w.begin srv) := rfl

/-- **The guard.** The trigger queue takes the client's closures, and no other client takes a packet
of a multicast session for it. -/
def Undisturbed (w : Seat) (a : Audience) : ServerInput → Prop
  | .offer k taken => ∀ push ∈ a.srv.pushes[k]?, ∀ j ∈ push.clients.head?,
      (j = w.client → taken = true) ∧
      (j ≠ w.client → push.isMulticast = true → w.client ∈ push.clients.tail →
        (RtspServer.accepts a.srv.conns j && taken) = false)
  | _ => True

instance (w : Seat) (a : Audience) (inp : ServerInput) : Decidable (w.Undisturbed a inp) := by
  unfold Undisturbed
  split <;> infer_instance

end Seat

namespace RtspServer

/-- A PLAY of the client is answered with 200: `HandleCmdPlay` calls `Play` and then sends it, or
does neither. -/
def PlayAnswered (authInfo : Option DigestAuthentication) (srv : RtspServer) (i : Nat)
    (srv' : RtspServer) : Prop :=
  ∃ req env c c', srv.step authInfo (.call i (.request req env)) = some srv' ∧
    srv.conns[i]? = some c ∧ srv'.conns[i]? = some c' ∧
    mediaEvents c'.log = mediaEvents c.log ++ [.played]

/-- **The condition**, at the PLAY: there is an RTP connection that has not been torn down, some
channel is set up, and the client is in the map of the session it has described. -/
def Ready (srv : RtspServer) (i : Nat) : Prop :=
  ∃ c rtp s, srv.conns[i]? = some c ∧ c.rtpConn = some rtp ∧ rtp.isClosed = false ∧
    (∃ chn, (rtp.mediaChannelInfo chn).isSetup = true) ∧
    srv.lookId c.sessionId = some s ∧ (c.sockfd, i) ∈ s.clients

/-- The client's channel is set up and open. -/
def Plays (srv : RtspServer) (i : Nat) (chn : MediaChannelId) : Prop :=
  ∃ c rtp, srv.conns[i]? = some c ∧ c.rtpConn = some rtp ∧ rtp.isClosed = false ∧
    (rtp.mediaChannelInfo chn).isSetup = true ∧ (rtp.mediaChannelInfo chn).isPlay = true

end RtspServer

/-! ## The client keeps its seat -/

namespace RtspConnection

/-- The RTP connection is open and the channel plays. -/
def Playing (c : RtspConnection) (chn : MediaChannelId) : Prop :=
  ∃ rtp, c.rtpConn = some rtp ∧ rtp.isClosed = false ∧ (rtp.mediaChannelInfo chn).isPlay = true

variable {c c' : RtspConnection} {chn : MediaChannelId}

/-- Sending leaves a channel open. -/
theorem sendPacket_playing {rtp rtp' : RtpConnection} {d : MediaChannelId} {pkt : RtpPacket}
    {data data' : PacketData} {out : Option Transmission}
    (h : rtp.sendPacket d pkt data = (rtp', data', out)) (ho : rtp.isClosed = false)
    (hp : (rtp.mediaChannelInfo chn).isPlay = true) :
    rtp'.isClosed = false ∧ (rtp'.mediaChannelInfo chn).isPlay = true := by
  have hsame := rtp.sendPacket_same d pkt data
  rw [h] at hsame
  exact ⟨hsame.2.2.2.2.1.trans ho, (hsame.2.2.2.2.2 chn).2.2.1.trans hp⟩

/-- **Only a TEARDOWN or a failed `sendto` stops the channel.** -/
theorem Playing.serve {i : Input} (h : c.Playing chn) (hs : c.serve i = some c')
    (hc : c'.isClosed = false) (htear : ∀ req env, i = .request req env → req.method ≠ .teardown)
    (hsend : ∀ data env, i = .trigger data env → env.sendto = false →
      ∀ rtp ∈ c.rtpConn, rtp.transportMode = .rtpOverTcp) : c'.Playing chn := by
  obtain ⟨rtp, hr, ho, hp⟩ := h
  have hlive := serve_not_destroyed hs
  have hdes := (serve_keeps hs).2.2
  cases serve_flow hs with
  | rests _ hrest _ _ =>
    rw [hr] at hrest
    generalize hr' : c'.rtpConn = r at hrest
    cases hrest with
    | idles hi => exact ⟨_, hr', hi.isClosed.trans ho, (hi.info chn).isPlay.trans hp⟩
  | @describes req env session _ _ hr' _ _ =>
    rw [hr, Option.getD_some] at hr'
    refine ⟨_, hr', (describeSources_rest rtp session).1.trans ho, ?_⟩
    rw [describeSources_info]
    cases session.source chn <;> exact hp
  | plays _ _ hrtp hr' _ _ =>
    obtain rfl := Option.some.inj (hr.symm.trans hrtp)
    refine ⟨_, hr', ho, ?_⟩
    rw [RtpConnection.play_info]
    split
    · rfl
    · exact hp
  | stops hm _ _ _ _ => exact absurd hm (htear _ _ rfl)
  | queues _ _ hr' _ _ => exact ⟨rtp, hr'.trans hr, ho, hp⟩
  | @runs d pkt data data' env r rtp' out es _ _ hrtp hsent _ _ hr' =>
    obtain rfl := Option.some.inj (hr.symm.trans hrtp)
    obtain ⟨ho', hp'⟩ := sendPacket_playing hsent ho hp
    rcases hr' with hr' | ⟨-, hudp⟩
    · exact ⟨rtp', hr', ho', hp'⟩
    · -- The datagram was sent, or the transport is TCP and there was none.
      have hrun : c.runClosure data env = some c' := by
        simpa [RtspConnection.serve, hlive] using hs
      obtain ⟨_, _, rest, q, q', ⟨_, out'⟩, hcl, hq, hsent', hout⟩ := runClosure_cases hrun
      obtain rfl := Option.some.inj (hr.symm.trans hq)
      cases hto : env.sendto with
      | true =>
        obtain ⟨ho', hp'⟩ := sendPacket_playing hsent' ho hp
        rcases hout with ⟨-, rfl⟩ | ⟨_, _, -, hquiet⟩ | ⟨_, _, _, -, rfl⟩
        · exact ⟨q', rfl, ho', hp'⟩
        · exact ⟨q', hquiet.frame.rtpConn, ho', hp'⟩
        · exact ⟨q', by simp [hto, emit], ho', hp'⟩
      | false =>
        have htcp := hsend data env rfl hto rtp hr
        obtain ⟨fd, peer, bytes, rfl⟩ := hudp
        rcases rtp.sendPacket_cases d pkt data with ⟨-, hx⟩ | ⟨-, _, -, ⟨-, hx⟩ | ⟨hne, -⟩⟩
        · rw [hsent] at hx
          simp at hx
        · rw [hsent] at hx
          simp at hx
        · exact absurd htcp hne
  | ends hd _ _ _ =>
    rw [hdes hd] at hc
    exact absurd hc (by decide)

end RtspConnection

theorem keyPackets_append (chn : MediaChannelId) (l m : List (MediaChannelId × RtpPacket)) :
    keyPackets chn (l ++ m) = keyPackets chn l ++ keyPackets chn m := by
  unfold keyPackets
  rw [List.filter_append, List.map_append]

/-- The packets a call gives to the transport are the key packets that leave the closures. -/
theorem RtspConnection.Playing.hands {c c' : RtspConnection} {chn : MediaChannelId}
    {data : PacketData} {env : Env} (h : c.Playing chn) (hs : c.serve (.trigger data env) = some c') :
    keyPackets chn c.closures =
      (if (mediaEvents c.log).length < (mediaEvents c'.log).length then
        keyPackets chn (c.closures.take 1) else []) ++ keyPackets chn c'.closures := by
  obtain ⟨rtp, hr, ho, hp⟩ := h
  cases RtspConnection.serve_flow hs with
  | rests hi _ _ _ => exact absurd rfl (hi _ _)
  | @runs d pkt data data' env r rtp' out es _ hcl hrtp hsent he hev _ =>
    obtain rfl := Option.some.inj (hr.symm.trans hrtp)
    rw [hcl, ← List.singleton_append, keyPackets_append]
    congr 1
    by_cases hkey : d = chn ∧ IsKey pkt.type
    · -- The channel is open and the packet is a key packet: it is sent.
      obtain ⟨rfl, hkey⟩ := hkey
      have hflow := (rtp.sendPacket_flow d pkt data).1
      have hsends : (rtp.setFrameType pkt.type).sends d = true := by
        have hk : (decide (pkt.type = 0) || decide (pkt.type = RtpConnection.videoFrameI)) = true := by
          simpa [IsKey] using hkey
        simp [RtpConnection.sends, RtpConnection.setFrameType, hp, hk]
      rw [hsent, hsends] at hflow
      have hlen : es.length = 1 := by
        cases he with
        | nothing => simp at hflow
        | frame _ | datagram _ _ _ => rfl
      rw [if_pos (by rw [hev, List.length_append, hlen]; omega)]
      rfl
    · have hnil : keyPackets chn [(d, pkt)] = [] := by
        simpa [keyPackets] using hkey
      split
      · rfl
      · exact hnil

namespace Seat

variable {authInfo : Option DigestAuthentication} {w : Seat} {fd : Int}

/-- The client is open and plays, on its socket, and it is in the map of the session. -/
def Served (w : Seat) (fd : Int) (srv : RtspServer) : Prop :=
  ∃ c, srv.conns[w.client]? = some c ∧ c.isClosed = false ∧ c.sockfd = fd ∧ c.Playing w.chn ∧
    Registered srv.sessions w.sessionId (fd, w.client)

/-- **What holds in the audience.** As long as it is not over, the client is served, and no key
packet is missing. -/
structure Kept (w : Seat) (fd : Int) (a : Audience) : Prop where
  own : a.srv.OwnSockets
  known : a.srv.Known w.sessionId
  served : a.finished = false → w.Served fd a.srv
  complete : a.finished = false →
    ∀ pkt, a.pushed.count pkt ≤ (a.handed ++ w.underWay a.srv).count pkt

/-- Nothing but the client's own stops and its close ends its service. -/
theorem Served.step {srv srv' : RtspServer} {inp : ServerInput} (h : w.Served fd srv)
    (hown : srv.OwnSockets) (hknown : srv.Known w.sessionId)
    (hs : srv.step authInfo inp = some srv') (hstops : w.stops srv inp = false)
    (hclosed : w.closed srv' = false) : w.Served fd srv' := by
  obtain ⟨c, hc, ho, rfl, hplay, hreg⟩ := h
  obtain ⟨c', hc', hstep⟩ := RtspServer.step_conn hs hc
  have ho' : c'.isClosed = false := by
    rw [closed, hc'] at hclosed
    simpa using hclosed
  refine ⟨c', hc', ho', (hstep.keeps (hown.closed _ c hc)).1, ?_,
    RtspServer.registered_step hown hknown hreg hc hs hc' ho'⟩
  cases hstep with
  | idle _ => exact hplay
  | @call input _ hi hserve =>
    subst hi
    refine hplay.serve hserve ho' ?_ ?_
    · intro req env hreq htear
      cases input with
      | request req' env' =>
        obtain ⟨rfl, -⟩ := Input.request.inj hreq
        simp [stops, htear] at hstops
      | _ => simp [Input.within] at hreq
    · intro data env htrig hto rtp hrtp
      cases input with
      | trigger data' env' =>
        obtain ⟨-, rfl⟩ := Input.trigger.inj htrig
        have hto' : env'.sendto = false := hto
        have hrtp' : c.rtpConn = some rtp := hrtp
        simpa [stops, hc, hto', hrtp'] using hstops
      | _ => simp [Input.within] at htrig
  | offer _ hserve =>
    exact hplay.serve hserve ho' (fun _ _ h => Input.noConfusion h) fun _ _ h => Input.noConfusion h

theorem underWay_eq {srv : RtspServer} {c : RtspConnection} (hc : srv.conns[w.client]? = some c) :
    w.underWay srv = keyPackets w.chn c.closures ++ srv.pushes.flatMap w.coming := by
  rw [underWay, hc]
  rfl

/-- A call of some connection. -/
theorem count_call {srv srv' : RtspServer} {c : RtspConnection} {i : Nat} {input : Input}
    (pkt : RtpPacket) (hc : srv.conns[w.client]? = some c) (hplay : c.Playing w.chn)
    (hs : srv.step authInfo (.call i input) = some srv') :
    (w.underWay srv).count pkt ≤
      (w.hands srv srv' (.call i input) ++ w.underWay srv').count pkt := by
  obtain ⟨c', hc', hstep⟩ := RtspServer.step_conn hs hc
  obtain ⟨d, d', hd, hserve, rfl⟩ := RtspServer.call_cases hs
  have hpushes : (srv.advance i d d').pushes = srv.pushes := rfl
  rw [underWay_eq hc, List.count_append, underWay_eq hc', hpushes, List.count_append,
    List.count_append]
  rcases RtspServer.closures_step hstep with ⟨hturn, -⟩ | ⟨-, extra, hcl⟩
  · -- The client's oldest closure is run.
    cases input with
    | trigger data env =>
      obtain rfl : i = w.client := by simpa [RtspServer.isTurn] using hturn
      obtain rfl := Option.some.inj (hc.symm.trans hd)
      have hself : (srv.advance w.client c d').conns[w.client]? = some d' :=
        List.getElem?_set_self (List.getElem?_eq_some_iff.mp hc).1
      obtain rfl := Option.some.inj (hc'.symm.trans hself)
      have hhands : w.hands srv (srv.advance w.client c c') (.call w.client (.trigger data env)) =
          if (mediaEvents c.log).length < (mediaEvents c'.log).length then
            keyPackets w.chn (c.closures.take 1) else [] := by
        simp only [hands, hc, hself, true_and]
      rw [hhands, hplay.hands hserve, List.count_append]
      omega
    | _ => simp [RtspServer.isTurn] at hturn
  · rw [hcl, keyPackets_append, List.count_append]
    omega

/-- The session pushes a packet, or another one does. -/
theorem count_frame {srv srv' : RtspServer} {c : RtspConnection} {id : Nat} {chn : MediaChannelId}
    {p : RtpPacket} (pkt : RtpPacket) (hc : srv.conns[w.client]? = some c)
    (hlive : c.destroyed = false) (hreg : Registered srv.sessions w.sessionId (fd, w.client))
    (hs : srv.step authInfo (.frame id chn p) = some srv') :
    (w.pushes (.frame id chn p) ++ w.underWay srv).count pkt ≤ (w.underWay srv').count pkt := by
  obtain ⟨s, hfind, rfl⟩ := Option.map_eq_some_iff.mp
    (show (srv.lookId id).map (fun s => srv.startPush s chn p) = some srv' from hs)
  have hc' : (srv.startPush s chn p).conns[w.client]? = some c := hc
  have hpushes : (srv.startPush s chn p).pushes =
      srv.pushes ++ [⟨s.id, s.media.isMulticast, chn, p, srv.order s⟩] := rfl
  rw [underWay_eq hc, underWay_eq hc', hpushes, List.flatMap_append, List.flatMap_singleton]
  simp only [List.count_append]
  by_cases hid : id = w.sessionId
  · -- The client stands in the map, and so it is among those to come.
    subst hid
    have hmem : w.client ∈ srv.order s := by
      refine List.mem_reverse.mpr (List.mem_map.mpr ⟨(fd, w.client), ?_, rfl⟩)
      refine List.mem_filter.mpr ⟨hreg s hfind, ?_⟩
      simp [RtspServer.alive, hc, hlive]
    rw [pushes, if_pos rfl, coming, if_pos hmem]
    dsimp only
    omega
  · rw [pushes, if_neg hid, List.count_nil]
    omega

/-- The callback goes on. -/
theorem count_offer {a : Audience} {srv' : RtspServer} {c : RtspConnection} {k : Nat} {taken : Bool}
    (pkt : RtpPacket) (hc : a.srv.conns[w.client]? = some c) (hlive : c.destroyed = false)
    (hplay : c.Playing w.chn) (hg : w.Undisturbed a (.offer k taken))
    (hs : a.srv.step authInfo (.offer k taken) = some srv') :
    (w.underWay a.srv).count pkt ≤ (w.underWay srv').count pkt := by
  have hoffer : a.srv.continuePush k taken = some srv' := hs
  unfold RtspServer.continuePush at hoffer
  cases hp : a.srv.pushes[k]? with
  | none => simp [hp] at hoffer
  | some push =>
    obtain ⟨hk, hpk⟩ := List.getElem?_eq_some_iff.mp hp
    have hsplit : a.srv.pushes.flatMap w.coming = (a.srv.pushes.take k).flatMap w.coming ++
        (w.coming push ++ (a.srv.pushes.drop (k + 1)).flatMap w.coming) := by
      rw [← List.flatMap_cons, ← List.flatMap_append, ← hpk, List.getElem_cons_drop,
        List.take_append_drop]
    rw [underWay_eq hc, hsplit]
    rw [hp] at hoffer
    cases hcl : push.clients with
    | nil =>
      simp only [hcl] at hoffer
      obtain rfl := Option.some.inj hoffer
      have hnone : w.coming push = [] := by simp [coming, hcl]
      have hc' : { a.srv with pushes := a.srv.pushes.eraseIdx k }.conns[w.client]? = _ := hc
      rw [underWay_eq hc',
        List.eraseIdx_eq_take_drop_succ, List.flatMap_append, hnone]
      simp
    | cons i rest =>
      simp only [hcl, Option.map_eq_some_iff] at hoffer
      obtain ⟨d, hd, rfl⟩ := hoffer
      obtain ⟨htaken, hother⟩ := hg push hp i (by rw [hcl]; rfl)
      rw [RtspServer.sendTo_cases]
      have hset : ∀ q : Push, (a.srv.pushes.set k q).flatMap w.coming =
          (a.srv.pushes.take k).flatMap w.coming ++
            (w.coming q ++ (a.srv.pushes.drop (k + 1)).flatMap w.coming) := by
        intro q
        rw [List.set_eq_take_append_cons_drop, if_pos hk, List.flatMap_append, List.flatMap_cons]
      by_cases hi : i = w.client
      · -- It is the client's turn, and the closure is queued.
        subst hi
        obtain rfl := Option.some.inj (hc.symm.trans hd)
        obtain ⟨rtp, hr, ho, -⟩ := hplay
        have hok : ((!c.destroyed && c.rtpConn.any fun rtp => !rtp.isClosed) && taken) = true := by
          simp [hlive, hr, ho, htaken rfl]
        simp only [hok, if_true]
        have hcomes : w.coming push = keyPackets w.chn [(push.chn, push.pkt)] := by
          rw [coming, if_pos (by rw [hcl]; exact List.mem_cons_self)]
        rw [underWay_eq (c := { c with closures := c.closures ++ [(push.chn, push.pkt)] })
          (List.getElem?_set_self (List.getElem?_eq_some_iff.mp hc).1), hset, hcomes,
          keyPackets_append]
        simp only [List.count_append]
        omega
      · rw [underWay_eq (c := c) (by exact (List.getElem?_set_ne hi).trans hc), hset]
        have hsame : w.client ∈ push.clients ↔ w.client ∈ rest := by
          rw [hcl, List.mem_cons, or_iff_right (Ne.symm hi)]
        have hacc : RtspServer.accepts a.srv.conns i =
            (!d.destroyed && d.rtpConn.any fun rtp => !rtp.isClosed) := by
          rw [RtspServer.accepts, hd]
        have hstill : (w.coming push).count pkt ≤ (w.coming { push with
            clients := if push.isMulticast && ((!d.destroyed && d.rtpConn.any fun rtp =>
              !rtp.isClosed) && taken) then [] else rest }).count pkt := by
          by_cases hmem : w.client ∈ rest
          · have hkeep : (push.isMulticast && ((!d.destroyed && d.rtpConn.any fun rtp =>
                !rtp.isClosed) && taken)) = false := by
              cases hm : push.isMulticast with
              | false => rfl
              | true =>
                rw [Bool.true_and, ← hacc]
                exact hother hi hm (by rw [hcl]; exact hmem)
            rw [hkeep]
            simp [coming, hsame, hmem]
          · rw [coming, if_neg (by rw [hsame]; exact hmem), List.count_nil]
            exact Nat.zero_le _
        simp only [List.count_append]
        omega

/-- **No key packet gets lost on the way.** -/
theorem Served.count {a : Audience} {srv' : RtspServer} {inp : ServerInput} (pkt : RtpPacket)
    (h : w.Served fd a.srv) (hown : a.srv.OwnSockets) (hg : w.Undisturbed a inp)
    (hs : a.srv.step authInfo inp = some srv') :
    (w.pushes inp ++ w.underWay a.srv).count pkt ≤
      (w.hands a.srv srv' inp ++ w.underWay srv').count pkt := by
  obtain ⟨c, hc, ho, rfl, hplay, hreg⟩ := h
  have hlive : c.destroyed = false := by
    cases hd : c.destroyed with
    | false => rfl
    | true =>
      rw [hown.closed _ c hc hd] at ho
      exact ho
  have hsame : srv'.conns[w.client]? = some c → srv'.pushes = a.srv.pushes →
      w.underWay srv' = w.underWay a.srv := by
    intro hc' hpushes
    rw [underWay_eq hc, underWay_eq hc', hpushes]
  cases inp with
  | addSession media suffix =>
    simp only [RtspServer.step] at hs
    split at hs
    · obtain rfl := Option.some.inj hs
      rw [hsame hc rfl]
      exact Nat.le_refl _
    · simp at hs
  | removeSession id =>
    simp only [RtspServer.step, Option.map_eq_some_iff] at hs
    obtain ⟨s, -, rfl⟩ := hs
    rw [hsame hc rfl]
    exact Nat.le_refl _
  | accept fd request =>
    simp only [RtspServer.step] at hs
    split at hs
    · obtain rfl := Option.some.inj hs
      rw [hsame ((List.getElem?_append_left (List.getElem?_eq_some_iff.mp hc).1).trans hc) rfl]
      exact Nat.le_refl _
    · simp at hs
  | call i input => exact count_call pkt hc hplay hs
  | frame id chn p => exact count_frame pkt hc hlive hreg hs
  | offer k taken => exact count_offer pkt hc hlive hplay hg hs

theorem Kept.step {a : Audience} {inp : ServerInput} {a' : Audience} (h : w.Kept fd a)
    (hg : w.Undisturbed a inp) (hs : w.step authInfo a inp = some a') : w.Kept fd a' := by
  obtain ⟨srv', hst, rfl⟩ := Option.map_eq_some_iff.mp hs
  -- If it is not over now, it has not been before.
  have hbefore : (w.next a inp srv').finished = false →
      a.finished = false ∧ w.stops a.srv inp = false ∧ w.closed srv' = false := by
    intro hover
    simpa [next, and_assoc] using hover
  refine ⟨h.own.step hst, h.known.step hst, ?_, ?_⟩
  · intro hover
    obtain ⟨hno, hstops, hclosed⟩ := hbefore hover
    exact (h.served hno).step h.own h.known hst hstops hclosed
  · intro hover pkt
    have hno := (hbefore hover).1
    have hold := h.complete hno pkt
    have hcount := (h.served hno).count pkt h.own hg hst
    simp only [List.count_append] at hold hcount
    simp only [next, List.count_append]
    omega

end Seat

/-! ## The PLAY -/

namespace RtspServer

variable {authInfo : Option DigestAuthentication} {srv srv' : RtspServer} {i : Nat}

/-- What a PLAY that is answered leaves behind. -/
theorem PlayAnswered.conn {c : RtspConnection} {rtp : RtpConnection}
    (h : PlayAnswered authInfo srv i srv') (hc : srv.conns[i]? = some c)
    (hr : c.rtpConn = some rtp) : ∃ inp c', srv.step authInfo inp = some srv' ∧
      srv'.conns[i]? = some c' ∧ c'.rtpConn = some rtp.play ∧ c'.sockfd = c.sockfd := by
  obtain ⟨req, env, d, c', hs, hd, hc', hev⟩ := h
  obtain rfl := Option.some.inj (hc.symm.trans hd)
  obtain ⟨x, x', hx, hserve, rfl⟩ := call_cases hs
  obtain rfl := Option.some.inj (hc.symm.trans hx)
  have hself : (srv.advance i c x').conns[i]? = some x' :=
    List.getElem?_set_self (List.getElem?_eq_some_iff.mp hc).1
  obtain rfl := Option.some.inj (hc'.symm.trans hself)
  refine ⟨_, c', hs, hc', ?_, (RtspConnection.serve_keeps hserve).1⟩
  have hnot : mediaEvents c'.log ≠ mediaEvents c.log := by
    rw [hev]
    simp
  cases RtspConnection.serve_flow hserve with
  | rests _ _ hsame _ => exact absurd hsame hnot
  | describes _ _ hsame _ => exact absurd hsame hnot
  | plays _ _ hrtp hr' _ _ =>
    obtain rfl := Option.some.inj (hr.symm.trans hrtp)
    exact hr'
  | stops _ _ _ hsame _ => exact absurd hsame hnot

/-- **A 200 to a PLAY means that media flows**, for a client that is ready: some channel is set up
and plays, and at every such channel all the key packets that the session pushes from then on are
given to the transport for this client or still on their way, until it is over. -/
theorem play_delivers (authInfo : Option DigestAuthentication) {c : RtspConnection}
    (hreach : Reach (server authInfo) (anyStep _ _) srv)
    (hplay : PlayAnswered authInfo srv i srv') (hc : srv.conns[i]? = some c) (hready : srv.Ready i) :
    (∃ chn, srv'.Plays i chn) ∧
      ∀ chn, srv'.Plays i chn → ∀ a : Audience,
        Reach (Seat.watch ⟨i, c.sessionId, chn⟩ authInfo srv') (Seat.Undisturbed ⟨i, c.sessionId, chn⟩)
          a → a.finished = false →
        a.pushed.Subperm (a.handed ++ Seat.underWay ⟨i, c.sessionId, chn⟩ a.srv) := by
  obtain ⟨d, rtp, s, hd, hr, ho, ⟨chn₀, hset⟩, hs, hmem⟩ := hready
  obtain rfl := Option.some.inj (hc.symm.trans hd)
  obtain ⟨inp, c', hst, hc', hr', hfd⟩ := hplay.conn hc hr
  refine ⟨⟨chn₀, c', _, hc', hr', ho, ?_⟩, ?_⟩
  · rw [RtpConnection.play_info, if_pos hset]
    exact ⟨hset, rfl⟩
  · intro chn hplays a ha hover
    have hown := ownSockets_reach hreach
    have hknown : srv.Known c.sessionId := by
      refine ⟨s, List.mem_append_left _ (List.mem_of_find?_eq_some hs), ?_⟩
      simpa using List.find?_some hs
    have hreg : Registered srv.sessions c.sessionId (c.sockfd, i) := by
      intro t ht
      obtain rfl := Option.some.inj (hs.symm.trans ht)
      exact hmem
    have hkept : Seat.Kept ⟨i, c.sessionId, chn⟩ c.sockfd a := by
      refine ha.inv ?_ fun _ _ _ hk hg hstep => hk.step hg hstep
      rintro _ rfl
      refine ⟨hown.step hst, hknown.step hst, ?_, ?_⟩
      · intro hclosed
        have hopen : c'.isClosed = false := by
          simpa [Seat.begin, Seat.closed, hc'] using hclosed
        obtain ⟨e, q, he, hq, hqo, -, hqp⟩ := hplays
        obtain rfl := Option.some.inj (hc'.symm.trans he)
        exact ⟨c', hc', hopen, hfd, ⟨q, hq, hqo, hqp⟩,
          registered_step hown hknown hreg hc hst hc' hopen⟩
      · intro _ pkt
        exact Nat.zero_le _
    rw [List.subperm_iff_count]
    exact hkept.complete hover

/-! ## One client -/

/-- A client of a unicast session, before its PLAY. -/
def seated (reqs : List RtspRequest) : List ServerInput :=
  .addSession (videoSession 2) (ascii "live") :: visit 0 5 reqs

/-- The client is ready. -/
def readyNow (srv : RtspServer) (i : Nat) : Bool :=
  (srv.conns[i]?).any fun c => c.rtpConn.any fun rtp =>
    !rtp.isClosed && (rtp.mediaChannelInfo .channel0).isSetup &&
      (srv.lookId c.sessionId).any fun s => s.clients.any fun e => decide (e = (c.sockfd, i))

theorem ready_of_now (h : srv.readyNow i = true) : srv.Ready i := by
  simp only [readyNow, Option.any_eq_true, Bool.and_eq_true, List.any_eq_true, decide_eq_true_eq,
    Bool.not_eq_true'] at h
  obtain ⟨c, hc, rtp, hr, ⟨ho, hset⟩, s, hs, e, he, rfl⟩ := h
  exact ⟨c, rtp, s, hc, hr, ho, ⟨.channel0, hset⟩, hs, he⟩

/-- The PLAY, and what is read off the servers before and after it. -/
def playOf (reqs : List RtspRequest) (f : RtspServer → RtspServer → Bool) : Option Bool :=
  (runFrom (step none) (anyStep _ _) new (seated reqs)).bind fun srv =>
    (srv.step none (.call 0 (.request toPlay (Env.live 7 8)))).map fun srv' =>
      decide ((srv'.conns[0]?).map (fun c' => mediaEvents c'.log) =
        (srv.conns[0]?).map fun c => mediaEvents c.log ++ [.played]) && f srv srv'

theorem play_of {reqs : List RtspRequest} {f : RtspServer → RtspServer → Bool}
    (h : playOf reqs f = some true) : ∃ srv srv' c, Reach (server none) (anyStep _ _) srv ∧
      PlayAnswered none srv 0 srv' ∧ srv.conns[0]? = some c ∧ f srv srv' = true := by
  obtain ⟨srv, hsrv, h⟩ := Option.bind_eq_some_iff.mp h
  obtain ⟨srv', hsrv', h⟩ := Option.map_eq_some_iff.mp h
  rw [Bool.and_eq_true, decide_eq_true_eq] at h
  obtain ⟨c, c', hc, hserve, rfl⟩ := call_cases hsrv'
  have hself : (srv.advance 0 c c').conns[0]? = some c' :=
    List.getElem?_set_self (List.getElem?_eq_some_iff.mp hc).1
  have hev := h.1
  rw [hc, hself] at hev
  exact ⟨srv, _, c, ⟨new, seated reqs, rfl, run_of_runFrom hsrv⟩,
    ⟨toPlay, Env.live 7 8, c, c', hsrv', hc, hself, Option.some.inj hev⟩, hc, h.2⟩

/-- A key packet is pushed and sent. -/
def keyFrame : List ServerInput :=
  [.frame 2 .channel0 keyPacket, .offer 0 true, .offer 0 true,
    .call 0 (.trigger blankData (Env.live 7 8))]

theorem play_delivers_one : ∃ (srv srv' : RtspServer) (c : RtspConnection) (a : Audience),
    srv.Ready 0 ∧ srv.conns[0]? = some c ∧ a.pushed = [keyPacket] ∧ (∃ chn, srv'.Plays 0 chn) ∧
      a.pushed.Subperm (a.handed ++ Seat.underWay ⟨0, c.sessionId, .channel0⟩ a.srv) := by
  obtain ⟨srv, srv', c, hr, hplay, hc, hf⟩ := @play_of [toDescribe, videoOverTcp] (fun srv srv' =>
    srv.readyNow 0 && (srv'.conns[0]?).any fun c' => c'.rtpConn.any fun rtp =>
      !rtp.isClosed && (rtp.mediaChannelInfo .channel0).isSetup &&
        (rtp.mediaChannelInfo .channel0).isPlay && (srv.conns[0]?).any fun c =>
          decide ((runFrom (Seat.step none ⟨0, c.sessionId, .channel0⟩)
            (Seat.Undisturbed ⟨0, c.sessionId, .channel0⟩)
            (Seat.begin ⟨0, c.sessionId, .channel0⟩ srv') keyFrame).map
            (fun a => (a.pushed, a.finished)) = some ([keyPacket], false))) (by decide +kernel)
  simp only [Bool.and_eq_true, Option.any_eq_true, Bool.not_eq_true', decide_eq_true_eq] at hf
  obtain ⟨hready, c', hc', rtp, hrtp, ⟨⟨ho, hset⟩, hopen⟩, d, hd, hrun⟩ := hf
  obtain rfl := Option.some.inj (hc.symm.trans hd)
  obtain ⟨a, ha, hgot⟩ := reach_of_runFrom (Seat.step none ⟨0, c.sessionId, .channel0⟩)
    (Seat.Undisturbed ⟨0, c.sessionId, .channel0⟩)
    (Seat.begin ⟨0, c.sessionId, .channel0⟩ srv') keyFrame (fun a => (a.pushed, a.finished))
    ([keyPacket], false) (Seat.watch_start none _ srv') hrun
  obtain ⟨hpushed, hover⟩ := Prod.mk.inj hgot
  obtain ⟨hplays, hflow⟩ := play_delivers none hr hplay hc (ready_of_now hready)
  exact ⟨srv, srv', c, a, ready_of_now hready, hc, hpushed, hplays,
    hflow .channel0 ⟨c', rtp, hc', hrtp, ho, hset, hopen⟩ a ha hover⟩

/-- **A PLAY without a SETUP** is answered with 200, and no channel plays. -/
theorem play_delivers_nothing : ¬ ∀ (authInfo : Option DigestAuthentication) (srv srv' : RtspServer)
    (i : Nat), Reach (server authInfo) (anyStep _ _) srv → PlayAnswered authInfo srv i srv' →
      ∃ chn, srv'.Plays i chn := by
  intro h
  obtain ⟨srv, srv', c, hr, hplay, -, hf⟩ := @play_of [toDescribe] (fun _ srv' =>
    channels.all fun chn => (srv'.conns[0]?).all fun c' => c'.rtpConn.all fun rtp =>
      !(rtp.mediaChannelInfo chn).isPlay) (by decide +kernel)
  obtain ⟨chn, c', rtp, hc', hrtp, -, -, hopen⟩ := h none srv srv' 0 hr hplay
  have hshut := List.all_eq_true.mp hf chn (by cases chn <;> simp [channels])
  simp [hc', hrtp, hopen] at hshut

end RtspServer

end Maixii.Xop
