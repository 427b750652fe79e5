import Maixii.Xop.ChannelTransport
import Maixii.Xop.MediaFlow

/-!
# `Xop/Multicast.lean`: one datagram for everybody

In a multicast session one client is to send the packet for all of them, and the callback of
`AddSource` stops at the first client whose `SendRtpPacket` returns 0. But 0 only says that the
trigger queue has taken the closure; whether the closure then sends is another question, and it is
asked of a client that nobody has asked whether it plays.

So the packet goes out exactly when that first client, the **acceptor**, hands it on when its turn
comes. The clients are asked in the descending order of their socket numbers.
-/

set_option autoImplicit false

namespace Maixii.Xop

open Maixii.Lib Maixii.Net

/-! ## The packet's way -/

namespace RtspServer

/-- `SendRtpPacket` gets as far as the trigger queue. -/
def accepts (conns : List RtspConnection) (i : Nat) : Bool :=
  match conns[i]? with
  | some c => !c.destroyed && c.rtpConn.any fun rtp => !rtp.isClosed
  | none => false

/-- The first client whose `SendRtpPacket` returns 0; `taken` is what the trigger queue says to one
after the other. -/
def acceptor (conns : List RtspConnection) : List Nat → List Bool → Option Nat
  | i :: is, t :: ts => if accepts conns i && t then some i else acceptor conns is ts
  | _, _ => none

/-- The clients in the order in which the callback goes through them. -/
def order (srv : RtspServer) (s : LiveSession) : List Nat :=
  ((s.clients.filter fun e => srv.alive e.2).map Prod.snd).reverse

/-- The callback, from its beginning to its return. -/
structure Calls (authInfo : Option DigestAuthentication) (srv : RtspServer) (s : LiveSession)
    (chn : MediaChannelId) (pkt : RtpPacket) (taken : List Bool) (srv₁ : RtspServer) : Prop where
  run : Run (server authInfo) (anyStep _ _) srv
    (.frame s.id chn pkt :: taken.map (.offer srv.pushes.length)) srv₁
  returns : ∃ push, srv₁.pushes[srv.pushes.length]? = some push ∧ push.clients = []

/-- The scheduler runs a closure of the client. -/
def isTurn (i : Nat) : ServerInput → Bool
  | .call j (.trigger _ _) => decide (j = i)
  | _ => false

/-- How many closures of a client the scheduler has run. -/
def turns (i : Nat) (is : List ServerInput) : Nat := is.countP (isTurn i)

end RtspServer

/-- The datagrams of a channel that have gone to an address. -/
def groupcasts (chn : MediaChannelId) (group : SockAddr) (log : List Effect) : Nat :=
  log.countP fun e => match e with
    | .sentTo d _ peer _ => decide (d = chn) && decide (peer = group)
    | _ => false

namespace RtspServer

/-- Over all connections. -/
def groupcasts (srv : RtspServer) (chn : MediaChannelId) (group : SockAddr) : Nat :=
  (srv.conns.map fun c => Xop.groupcasts chn group c.log).sum

/-- What becomes of a packet: no client has taken it, or some time later, when all the older
closures of the acceptor have had their turn, its closure is run; `n` datagrams go to the group. -/
inductive Fate (authInfo : Option DigestAuthentication) (chn : MediaChannelId) (group : SockAddr)
    (srv srv₁ : RtspServer) : Option Nat → RtspServer → Nat → Prop
  | lost : Fate authInfo chn group srv srv₁ none srv₁ 0
  | turn {i n : Nat} {c : RtspConnection} {is : List ServerInput} {srv₂ srv₃ : RtspServer}
      {data : PacketData} {env : Env} (hc : srv.conns[i]? = some c)
      (hrun : Run (server authInfo) (anyStep _ _) srv₁ is srv₂)
      (hturns : turns i is = c.closures.length)
      (hstep : srv₂.step authInfo (.call i (.trigger data env)) = some srv₃)
      (hn : srv₃.groupcasts chn group = srv₂.groupcasts chn group + n) :
      Fate authInfo chn group srv srv₁ (some i) srv₂ n

/-- The client is playing the channel. -/
def isPlaying (srv : RtspServer) (chn : MediaChannelId) (i : Nat) : Prop :=
  ∃ c rtp, srv.conns[i]? = some c ∧ c.rtpConn = some rtp ∧
    (rtp.mediaChannelInfo chn).isPlay = true

/-- It is, and has seen a key frame. -/
def isWatching (srv : RtspServer) (chn : MediaChannelId) (i : Nat) : Prop :=
  ∃ c rtp, srv.conns[i]? = some c ∧ c.rtpConn = some rtp ∧
    (rtp.mediaChannelInfo chn).isPlay = true ∧ rtp.hasKeyFrame = true

/-- The client would send this packet to the group. -/
def handsOn (srv : RtspServer) (chn : MediaChannelId) (pkt : RtpPacket) (group : SockAddr)
    (i : Nat) : Prop :=
  ∃ c rtp, srv.conns[i]? = some c ∧ c.rtpConn = some rtp ∧
    (rtp.setFrameType pkt.type).sends chn = true ∧ rtp.transportMode ≠ .rtpOverTcp ∧
    rtp.peerRtpAddr chn = group

end RtspServer

/-- The group of a channel of a session. -/
def LiveSession.group (s : LiveSession) (chn : MediaChannelId) : SockAddr :=
  ⟨s.media.multicastIp, s.media.multicastPort chn⟩

/-- Once if somebody is watching, not at all if nobody plays. -/
def DeliveredOnce (srv : RtspServer) (s : LiveSession) (chn : MediaChannelId) (n : Nat) : Prop :=
  ((∃ e ∈ s.clients, srv.isWatching chn e.2) → n = 1) ∧
    ((∀ e ∈ s.clients, ¬ srv.isPlaying chn e.2) → n = 0)

/-! ## The callback -/

namespace RtspServer

variable {authInfo : Option DigestAuthentication} {srv srv₁ srv₂ : RtspServer}

/-- `SendRtpPacket` returns 0 with the closure in the queue, or changes nothing. -/
theorem sendTo_cases (c : RtspConnection) (chn : MediaChannelId) (pkt : RtpPacket) (taken : Bool) :
    let ok := (!c.destroyed && c.rtpConn.any fun rtp => !rtp.isClosed) && taken
    sendTo c chn pkt taken =
      (if ok then { c with closures := c.closures ++ [(chn, pkt)] } else c, ok) := by
  intro ok
  unfold sendTo
  cases hd : c.destroyed with
  | true => simp [ok, hd]
  | false =>
    cases hr : c.rtpConn with
    | none => simp [ok, hr]
    | some rtp =>
      cases hc : rtp.isClosed <;> cases taken <;>
        simp [ok, hd, hr, hc, RtspConnection.sendRtpPacket]

/-- What one offer does. -/
theorem offer_cases {k : Nat} {push : Push} {t : Bool} (hp : srv.pushes[k]? = some push)
    (hm : push.isMulticast = true) (hs : srv.continuePush k t = some srv₁) :
    push.clients = [] ∧ srv₁.pushes = srv.pushes.eraseIdx k ∨
    ∃ i rest c, push.clients = i :: rest ∧ srv.conns[i]? = some c ∧
      ((accepts srv.conns i && t) = true ∧
          srv₁.conns = srv.conns.set i { c with closures := c.closures ++ [(push.chn, push.pkt)] } ∧
          srv₁.pushes = srv.pushes.set k { push with clients := [] } ∨
        (accepts srv.conns i && t) = false ∧ srv₁.conns = srv.conns ∧
          srv₁.pushes = srv.pushes.set k { push with clients := rest }) := by
  unfold continuePush at hs
  rw [hp] at hs
  dsimp only at hs
  cases hcl : push.clients with
  | nil =>
    rw [hcl] at hs
    obtain rfl := Option.some.inj hs
    exact Or.inl ⟨rfl, rfl⟩
  | cons i rest =>
    rw [hcl] at hs
    obtain ⟨c, hc, rfl⟩ := Option.map_eq_some_iff.mp hs
    refine Or.inr ⟨i, rest, c, rfl, hc, ?_⟩
    have hacc : accepts srv.conns i = (!c.destroyed && c.rtpConn.any fun rtp => !rtp.isClosed) := by
      rw [accepts, hc]
    obtain ⟨hi, hci⟩ := List.getElem?_eq_some_iff.mp hc
    rw [sendTo_cases, hm, hacc]
    cases hok : (!c.destroyed && c.rtpConn.any fun rtp => !rtp.isClosed) && t with
    | true => exact Or.inl ⟨rfl, by simp, by simp⟩
    | false =>
      refine Or.inr ⟨rfl, ?_, by simp⟩
      have hset : srv.conns.set i c = srv.conns := by
        rw [← hci, List.set_getElem_self]
      simpa using hset

/-- A push that is over is not offered any more. -/
theorem offers_over {k : Nat} {ts : List Bool} (hlen : srv.pushes.length ≤ k)
    (hrun : Run (server authInfo) (anyStep _ _) srv (ts.map (.offer k)) srv₁) : srv₁ = srv := by
  cases ts with
  | nil => exact hrun.of_nil rfl
  | cons t ts =>
    obtain ⟨u, -, hst, -⟩ := hrun.uncons
    have hnone : srv.pushes[k]? = none := List.getElem?_eq_none hlen
    have : srv.continuePush k t = some u := hst
    simp [continuePush, hnone] at this

/-- **The loop.** The closure goes to the acceptor, and to nobody else. -/
theorem offers_accept {k : Nat} {push : Push} {ts : List Bool} (hlen : srv.pushes.length = k + 1)
    (hp : srv.pushes[k]? = some push) (hm : push.isMulticast = true)
    (hrun : Run (server authInfo) (anyStep _ _) srv (ts.map (.offer k)) srv₁)
    (hret : ∃ push, srv₁.pushes[k]? = some push ∧ push.clients = []) :
    acceptor srv.conns push.clients ts = none ∧ srv₁.conns = srv.conns ∨
    ∃ i c, acceptor srv.conns push.clients ts = some i ∧ srv.conns[i]? = some c ∧
      srv₁.conns =
        srv.conns.set i { c with closures := c.closures ++ [(push.chn, push.pkt)] } := by
  induction ts generalizing srv push with
  | nil =>
    obtain rfl := hrun.of_nil rfl
    obtain ⟨push', hp', hnil⟩ := hret
    obtain rfl := Option.some.inj (hp.symm.trans hp')
    exact Or.inl ⟨by rw [hnil]; rfl, rfl⟩
  | cons t ts ih =>
    obtain ⟨u, -, hst, hrest⟩ := hrun.uncons
    have hoffer : srv.continuePush k t = some u := hst
    -- Once the clients are through, there is no more to offer.
    have hfinished : ∀ {v : RtspServer} {q : Push}, v.pushes.length = k + 1 →
        v.pushes[k]? = some q → q.clients = [] →
        Run (server authInfo) (anyStep _ _) v (ts.map (.offer k)) srv₁ → srv₁ = v := by
      intro v q hvl hvq hq hv
      cases ts with
      | nil => exact hv.of_nil rfl
      | cons t' ts =>
        exfalso
        obtain ⟨w, -, hw, hlast⟩ := hv.uncons
        have hwk : v.continuePush k t' = some w := hw
        simp only [continuePush, hvq, hq, Option.some.injEq] at hwk
        have hwl : w.pushes.length ≤ k := by
          rw [← hwk]
          show (v.pushes.eraseIdx k).length ≤ k
          rw [List.length_eraseIdx_of_lt (by omega)]
          omega
        obtain rfl := offers_over hwl hlast
        obtain ⟨q', hq', -⟩ := hret
        rw [List.getElem?_eq_none hwl] at hq'
        simp at hq'
    have hk : k < srv.pushes.length := by omega
    rcases offer_cases hp hm hoffer with ⟨hnil, herase⟩ | ⟨i, rest, c, hcl, hc, hcase⟩
    · exfalso
      have hul : u.pushes.length ≤ k := by
        rw [herase, List.length_eraseIdx_of_lt hk]
        omega
      obtain rfl := offers_over hul hrest
      obtain ⟨q, hq, -⟩ := hret
      rw [List.getElem?_eq_none hul] at hq
      simp at hq
    · rw [hcl]
      rcases hcase with ⟨hacc, hconns, hpush⟩ | ⟨hacc, hconns, hpush⟩
      · have hu := hfinished (q := { push with clients := [] })
          (by rw [hpush, List.length_set, hlen]) (by rw [hpush, List.getElem?_set_self hk]) rfl hrest
        refine Or.inr ⟨i, c, ?_, hc, ?_⟩
        · rw [acceptor, if_pos hacc]
        · rw [hu, hconns]
      · have hlen' : u.pushes.length = k + 1 := by rw [hpush, List.length_set, hlen]
        have hp' : u.pushes[k]? = some { push with clients := rest } := by
          rw [hpush, List.getElem?_set_self hk]
        have hnext := ih hlen' hp' hm hrest
        rw [hconns] at hnext
        rw [acceptor, if_neg (by rw [hacc]; decide)]
        exact hnext

/-! ## The queue of a client -/

/-- A turn takes the oldest closure; whatever else happens, closures are only added. -/
theorem closures_step {i : Nat} {c c' : RtspConnection} {inp : ServerInput}
    (h : ConnStep srv i c inp c') :
    isTurn i inp = true ∧ (∃ x, c.closures = x :: c'.closures) ∨
      isTurn i inp = false ∧ ∃ extra, c'.closures = c.closures ++ extra := by
  have hsame : isTurn i inp = false → c'.closures = c.closures →
      isTurn i inp = true ∧ (∃ x, c.closures = x :: c'.closures) ∨
        isTurn i inp = false ∧ ∃ extra, c'.closures = c.closures ++ extra := by
    intro hturn hcl
    exact Or.inr ⟨hturn, [], by rw [hcl, List.append_nil]⟩
  have hnot : (∀ input, inp ≠ .call i input) → isTurn i inp = false := by
    intro hne
    cases inp with
    | call j input =>
      have hij : j ≠ i := fun heq => hne input (by rw [heq])
      cases input <;> simp [isTurn, hij]
    | _ => rfl
  cases h with
  | idle hi => exact hsame (hnot hi) rfl
  | offer hi hserve =>
    have hturn : isTurn i inp = false := by
      rw [hi]
      rfl
    cases RtspConnection.serve_flow hserve with
    | rests _ _ _ hcl => exact hsame hturn hcl
    | queues _ _ _ _ hcl => exact Or.inr ⟨hturn, _, hcl⟩
  | @call input _ hi hserve =>
    rw [hi] at hsame ⊢
    generalize hw : input.within srv.rtsp = j at hserve
    have hturn : (∀ data env, j ≠ .trigger data env) → isTurn i (.call i input) = false := by
      intro hne
      cases input with
      | trigger data env => exact absurd hw.symm (hne data _)
      | _ => rfl
    cases RtspConnection.serve_flow hserve with
    | rests hi _ _ hcl => exact hsame (hturn hi) hcl
    | describes _ _ _ hcl | plays _ _ _ _ _ hcl | stops _ _ _ _ hcl | ends _ _ _ hcl =>
      exact hsame (hturn fun _ _ => Input.noConfusion) hcl
    | queues _ _ _ _ hcl => exact Or.inr ⟨hturn fun _ _ => Input.noConfusion, _, hcl⟩
    | @runs chn pkt _ _ _ _ _ _ _ _ hcl _ _ _ _ _ =>
      refine Or.inl ⟨?_, (chn, pkt), hcl⟩
      cases input with
      | trigger data env => simp [isTurn]
      | _ => simp [Input.within] at hw

/-- As long as not all of the closures have had their turn, the rest is still there, in order. -/
theorem closures_run {G : RtspServer → ServerInput → Prop} {i : Nat} {c : RtspConnection}
    {is : List ServerInput} (hc : srv.conns[i]? = some c) (hrun : Run (server authInfo) G srv is srv₁)
    (hn : turns i is ≤ c.closures.length) :
    ∃ c₁ extra, srv₁.conns[i]? = some c₁ ∧ c₁.closures = c.closures.drop (turns i is) ++ extra := by
  induction hrun with
  | nil => exact ⟨c, [], hc, by simp [turns]⟩
  | @snoc t u is inp _ _ hst ih =>
    have hsplit : turns i (is ++ [inp]) = turns i is + turns i [inp] := List.countP_append
    rw [hsplit] at hn ⊢
    obtain ⟨d, extra, hd, hcl⟩ := ih (by omega)
    obtain ⟨d', hd', hstep⟩ := step_conn hst hd
    refine ⟨d', ?_⟩
    rcases closures_step hstep with ⟨hturn, x, hx⟩ | ⟨hturn, more, hmore⟩
    · have hone : turns i [inp] = 1 := by simp [turns, hturn]
      rw [hone] at hn ⊢
      have hlt : turns i is < c.closures.length := by omega
      refine ⟨extra, hd', ?_⟩
      rw [hcl, List.drop_eq_getElem_cons hlt, List.cons_append] at hx
      exact (List.cons.inj hx).2.symm
    · have hzero : turns i [inp] = 0 := by simp [turns, hturn]
      rw [hzero, Nat.add_zero]
      exact ⟨extra ++ more, hd', by rw [hmore, hcl, List.append_assoc]⟩

end RtspServer

/-! ## The turn -/

theorem groupcasts_media (chn : MediaChannelId) (group : SockAddr) (log : List Effect) :
    groupcasts chn group (mediaEvents log) = groupcasts chn group log := by
  unfold groupcasts mediaEvents
  rw [List.countP_filter]
  refine List.countP_congr ?_
  intro e _
  cases e <;> simp

/-- The closure sends one datagram to the group, or none. -/
theorem groupcasts_runs {c c' : RtspConnection} {rtp rtp' : RtpConnection} {chn : MediaChannelId}
    {pkt : RtpPacket} {data data' : PacketData} {out : Option Transmission} {es : List Effect}
    (group : SockAddr) (hs : rtp.sendPacket chn pkt data = (rtp', data', out))
    (he : RtspConnection.HandedOn c chn out es)
    (hev : mediaEvents c'.log = mediaEvents c.log ++ es) :
    groupcasts chn group c'.log = groupcasts chn group c.log +
      if (rtp.setFrameType pkt.type).sends chn = true ∧ rtp.transportMode ≠ .rtpOverTcp ∧
        rtp.peerRtpAddr chn = group then 1 else 0 := by
  rw [← groupcasts_media, hev, ← groupcasts_media chn group c.log]
  have happ : groupcasts chn group (mediaEvents c.log ++ es) =
      groupcasts chn group (mediaEvents c.log) + groupcasts chn group es := List.countP_append
  rw [happ]
  congr 1
  rcases rtp.sendPacket_cases chn pkt data with ⟨hsend, h⟩ | ⟨hsend, d, -, ⟨ht, h⟩ | ⟨ht, h⟩⟩
  · rw [hs, Prod.mk.injEq, Prod.mk.injEq] at h
    obtain ⟨-, -, rfl⟩ := h
    cases he
    simp [hsend, groupcasts]
  · rw [hs, Prod.mk.injEq, Prod.mk.injEq] at h
    obtain ⟨-, -, rfl⟩ := h
    cases he
    simp [ht, groupcasts]
  · rw [hs, Prod.mk.injEq, Prod.mk.injEq] at h
    obtain ⟨-, -, rfl⟩ := h
    cases he
    by_cases hg : rtp.peerRtpAddr chn = group <;> simp [hsend, ht, hg, groupcasts]

namespace RtspServer

variable {authInfo : Option DigestAuthentication} {srv srv₁ srv₂ : RtspServer}

/-- One connection's log has grown. -/
theorem groupcasts_set {chn : MediaChannelId} {group : SockAddr} {i : Nat} {c c' : RtspConnection}
    (hc : srv.conns[i]? = some c) (hc' : srv₁.conns = srv.conns.set i c') :
    srv₁.groupcasts chn group + Xop.groupcasts chn group c.log =
      srv.groupcasts chn group + Xop.groupcasts chn group c'.log := by
  obtain ⟨hi, hci⟩ := List.getElem?_eq_some_iff.mp hc
  unfold groupcasts
  rw [hc', List.set_eq_take_append_cons_drop, if_pos hi]
  have hsplit : srv.conns = srv.conns.take i ++ c :: srv.conns.drop (i + 1) := by
    rw [← hci, List.getElem_cons_drop, List.take_append_drop]
  conv_rhs => rw [hsplit]
  simp only [List.map_append, List.map_cons, List.sum_append, List.sum_cons]
  omega

theorem noRecord_reach {G : RtspServer → ServerInput → Prop} (h : Reach (server authInfo) G srv)
    {i : Nat} {c : RtspConnection} (hc : srv.conns[i]? = some c) : c.NoRecord := by
  refine reach_conn ?_ ?_ h i c hc
  · intro fd request rtp hr
    simp [RtspConnection.new] at hr
  · intro d input d' hd hserve
    exact hd.serve hserve

theorem acceptor_mem {conns : List RtspConnection} {is : List Nat} {ts : List Bool} {i : Nat}
    (h : acceptor conns is ts = some i) : i ∈ is := by
  induction is generalizing ts with
  | nil => cases ts <;> simp [acceptor] at h
  | cons j is ih =>
    cases ts with
    | nil => simp [acceptor] at h
    | cons t ts =>
      rw [acceptor] at h
      split at h
      · obtain rfl := Option.some.inj h
        exact List.mem_cons_self
      · exact List.mem_cons_of_mem _ (ih h)

theorem mem_order {s : LiveSession} {i : Nat} (h : i ∈ srv.order s) : ∃ e ∈ s.clients, e.2 = i := by
  obtain ⟨e, he, rfl⟩ := List.mem_map.mp (List.mem_reverse.mp h)
  exact ⟨e, (List.mem_filter.mp he).1, rfl⟩

/-- The callback puts the packet into the acceptor's queue and nowhere else. -/
theorem Calls.accepted {s : LiveSession} {chn : MediaChannelId} {pkt : RtpPacket}
    {taken : List Bool} {id : Nat} (hs : srv.lookId id = some s) (hm : s.media.isMulticast = true)
    (h : srv.Calls authInfo s chn pkt taken srv₁) :
    acceptor srv.conns (srv.order s) taken = none ∧ srv₁.conns = srv.conns ∨
    ∃ i c, acceptor srv.conns (srv.order s) taken = some i ∧ srv.conns[i]? = some c ∧
      srv₁.conns = srv.conns.set i { c with closures := c.closures ++ [(chn, pkt)] } := by
  obtain ⟨t, -, hst, hrest⟩ := h.run.uncons
  have hid : srv.lookId s.id = some s := by
    have hfound : s.id = id := by simpa using List.find?_some hs
    rw [hfound]
    exact hs
  have hstart : t = srv.startPush s chn pkt := by
    have hframe : (srv.lookId s.id).map (fun s => srv.startPush s chn pkt) = some t := hst
    rw [hid] at hframe
    exact (Option.some.inj hframe).symm
  have hlen : t.pushes.length = srv.pushes.length + 1 := by
    rw [hstart]
    simp [startPush]
  have hlast : t.pushes[srv.pushes.length]? = some
      ⟨s.id, s.media.isMulticast, chn, pkt, srv.order s⟩ := by
    rw [hstart]
    simp [startPush, order]
  have hconns : t.conns = srv.conns := by
    rw [hstart]
    rfl
  have hloop := offers_accept hlen hlast hm hrest h.returns
  rwa [hconns] at hloop

/-- When the acceptor's turn comes, the packet is its oldest closure, and one datagram goes to the
group if it hands the packet on. -/
theorem turn_sends {i n : Nat} {c : RtspConnection} {is : List ServerInput} {srv₃ : RtspServer}
    {chn : MediaChannelId} {pkt : RtpPacket} {group : SockAddr} {data : PacketData} {env : Env}
    (hc : srv.conns[i]? = some c)
    (hconns : srv₁.conns = srv.conns.set i { c with closures := c.closures ++ [(chn, pkt)] })
    (hrun : Run (server authInfo) (anyStep _ _) srv₁ is srv₂)
    (hturns : turns i is = c.closures.length)
    (hstep : srv₂.step authInfo (.call i (.trigger data env)) = some srv₃)
    (hn : srv₃.groupcasts chn group = srv₂.groupcasts chn group + n) :
    srv₂.handsOn chn pkt group i ∧ n = 1 ∨ ¬ srv₂.handsOn chn pkt group i ∧ n = 0 := by
  have hi : i < srv.conns.length := (List.getElem?_eq_some_iff.mp hc).1
  have hc₁ : srv₁.conns[i]? = some { c with closures := c.closures ++ [(chn, pkt)] } := by
    rw [hconns]
    exact List.getElem?_set_self hi
  have hbound : turns i is ≤ (c.closures ++ [(chn, pkt)]).length := by
    rw [hturns, List.length_append]
    omega
  obtain ⟨c₂, extra, hc₂, hcl⟩ := closures_run hc₁ hrun hbound
  rw [hturns, List.drop_left] at hcl
  -- The call runs this closure.
  obtain ⟨d, hd, hserve⟩ := Option.bind_eq_some_iff.mp
    (show ((srv₂.conns[i]?).bind fun c => (c.serve (Input.within srv₂.rtsp (.trigger data env))).map
      fun c' => srv₂.advance i c c') = some srv₃ from hstep)
  obtain rfl := Option.some.inj (hc₂.symm.trans hd)
  obtain ⟨c₃, hc₃, rfl⟩ := Option.map_eq_some_iff.mp hserve
  cases RtspConnection.serve_flow hc₃ with
  | rests hi _ _ _ => exact absurd rfl (hi _ _)
  | @runs chn' pkt' _ data' _ rtp rtp' out es _ hcl' hrtp hsend he hev _ =>
    obtain ⟨rfl, rfl⟩ : chn' = chn ∧ pkt' = pkt := by
      rw [hcl, List.singleton_append] at hcl'
      have := (List.cons.inj hcl').1
      simpa [eq_comm] using this
    have hcount := groupcasts_runs group hsend he hev
    have hset : (srv₂.advance i c₂ c₃).groupcasts chn' group +
        Xop.groupcasts chn' group c₂.log =
          srv₂.groupcasts chn' group + Xop.groupcasts chn' group c₃.log := groupcasts_set hd rfl
    have hhands : srv₂.handsOn chn' pkt' group i ↔
        (rtp.setFrameType pkt'.type).sends chn' = true ∧ rtp.transportMode ≠ .rtpOverTcp ∧
          rtp.peerRtpAddr chn' = group := by
      constructor
      · rintro ⟨x, r, hx, hxr, hsends⟩
        obtain rfl := Option.some.inj (hd.symm.trans hx)
        obtain rfl := Option.some.inj (hrtp.symm.trans hxr)
        exact hsends
      · intro hsends
        exact ⟨c₂, rtp, hd, hrtp, hsends⟩
    by_cases hsends : (rtp.setFrameType pkt'.type).sends chn' = true ∧
        rtp.transportMode ≠ .rtpOverTcp ∧ rtp.peerRtpAddr chn' = group
    · rw [if_pos hsends] at hcount
      exact Or.inl ⟨hhands.mpr hsends, by omega⟩
    · rw [if_neg hsends] at hcount
      exact Or.inr ⟨fun h => hsends (hhands.mp h), by omega⟩

/-- **Multicast delivery.** A packet of a multicast session is delivered once if somebody watches
and not at all if nobody plays, exactly when, with somebody watching, there is an acceptor and it
hands the packet on when its turn comes. -/
theorem multicast_delivery (authInfo : Option DigestAuthentication) {s : LiveSession}
    {chn : MediaChannelId} {pkt : RtpPacket} {taken : List Bool} {id n : Nat}
    (hr : Reach (server authInfo) (anyStep _ _) srv) (hs : srv.lookId id = some s)
    (hm : s.media.isMulticast = true) (hcall : srv.Calls authInfo s chn pkt taken srv₁)
    (hfate : Fate authInfo chn (s.group chn) srv srv₁ (acceptor srv.conns (srv.order s) taken)
      srv₂ n) :
    DeliveredOnce srv₂ s chn n ↔
      ((∃ e ∈ s.clients, srv₂.isWatching chn e.2) →
        ∃ i ∈ acceptor srv.conns (srv.order s) taken, srv₂.handsOn chn pkt (s.group chn) i) := by
  have hreach₁ : Reach (server authInfo) (anyStep _ _) srv₁ := hr.run hcall.run
  rcases hcall.accepted hs hm with ⟨hacc, -⟩ | ⟨i, c, hacc, hc, hconns⟩
  · -- Nobody has it.
    rw [hacc] at hfate ⊢
    cases hfate with
    | lost =>
      constructor
      · intro hlaw hwatch
        exact absurd (hlaw.1 hwatch) (by decide)
      · intro hcond
        refine ⟨fun hwatch => ?_, fun _ => rfl⟩
        obtain ⟨_, hnone, -⟩ := hcond hwatch
        exact absurd hnone (Option.not_mem_none _)
  · have hmem : ∃ e ∈ s.clients, e.2 = i := mem_order (acceptor_mem hacc)
    rw [hacc] at hfate ⊢
    cases hfate with
    | turn hc' hrun hturns hstep hn =>
      obtain rfl := Option.some.inj (hc.symm.trans hc')
      have hreach₂ : Reach (server authInfo) (anyStep _ _) srv₂ := hreach₁.run hrun
      rcases turn_sends hc hconns hrun hturns hstep hn with ⟨hhands, rfl⟩ | ⟨hhands, rfl⟩
      · constructor
        · intro _ _
          exact ⟨i, rfl, hhands⟩
        · intro _
          refine ⟨fun _ => rfl, ?_⟩
          -- Whoever hands a packet on is playing.
          intro hnone
          obtain ⟨d, rtp, hd, hrtp, hsends, -⟩ := hhands
          obtain ⟨e, he, rfl⟩ := hmem
          have hrec := noRecord_reach hreach₂ hd rtp hrtp chn
          have hrec' : ((rtp.setFrameType pkt.type).mediaChannelInfo chn).isRecord = false := hrec
          simp only [RtpConnection.sends, hrec', Bool.or_false, Bool.and_eq_true] at hsends
          exact absurd ⟨d, rtp, hd, hrtp, hsends.1⟩ (hnone e he)
      · constructor
        · intro hlaw hwatch
          exact absurd (hlaw.1 hwatch) (by decide)
        · intro hcond
          refine ⟨fun hwatch => ?_, fun _ => rfl⟩
          obtain ⟨j, hj, hjhands⟩ := hcond hwatch
          obtain rfl := Option.some.inj hj
          exact absurd hjhands hhands

/-! ## Two clients -/

/-- A multicast session of a video track. -/
def toGroup : MediaSession :=
  ⟨2, true, ascii "239.1.1.1", fun _ => 4000,
    fun chn => if chn = .channel0 then some ⟨90000, 96⟩ else none, ascii "v=0"⟩

/-- A new connection that asks for these. -/
def visit (i : Nat) (fd : Int) (reqs : List RtspRequest) : List ServerInput :=
  .accept fd ⟨.none, .channel0, .rtpOverTcp, [], [], [], .parseRequestLine⟩ ::
    reqs.map fun req => .call i (.request req (Env.live 7 8))

def toDescribe : RtspRequest := .forLive .describe .rtpOverTcp .channel0 [(.cseq, [], 1)]

def toSetup : RtspRequest := .forLive .setup .rtpOverMulticast .channel0 [(.cseq, [], 2)]

def toPlay : RtspRequest := .forLive .play .rtpOverTcp .channel0 [(.cseq, [], 3)]

/-- Client 0 plays and has seen a key frame; then others come. -/
def watched (others : List ServerInput) : List ServerInput :=
  .addSession toGroup (ascii "live") :: visit 0 5 [toDescribe, toSetup, toPlay] ++
    [.frame 2 .channel0 keyPacket, .offer 0 true, .offer 0 true,
      .call 0 (.trigger blankData (Env.live 7 8))] ++ others

/-- Afterwards a packet is pushed, acceptor `i` has it, and `n` datagrams go to the group; all the
while client 0 is watching. -/
def delivers (i n : Nat) (srv srv₁ srv₃ : RtspServer) : Bool :=
  (srv.lookId 2).any (fun s => s.media.isMulticast && s.clients.any (fun e => decide (e.2 = 0)) &&
    decide (acceptor srv.conns (srv.order s) [true] = some i) &&
    decide (srv₃.groupcasts .channel0 (s.group .channel0) =
      srv₁.groupcasts .channel0 (s.group .channel0) + n)) &&
  (srv.conns[i]?).any (fun c => c.closures.isEmpty) &&
  (srv₁.pushes[srv.pushes.length]?).any (fun push => push.clients.isEmpty) &&
  (srv₁.conns[0]?).any fun c => c.rtpConn.any fun rtp =>
    (rtp.mediaChannelInfo .channel0).isPlay && rtp.hasKeyFrame

/-- What such an execution comes to. -/
theorem fate_of_delivers {i n : Nat} {others : List ServerInput}
    (h : ((runFrom (step none) (anyStep _ _) new (watched others)).bind fun srv =>
      (runFrom (step none) (anyStep _ _) srv
        (.frame 2 .channel0 keyPacket :: [true].map (.offer srv.pushes.length))).bind fun srv₁ =>
      (srv₁.step none (.call i (.trigger blankData (Env.live 7 8)))).map
        (delivers i n srv srv₁)) = some true) :
    ∃ (srv srv₁ : RtspServer) (s : LiveSession), Reach (server none) (anyStep _ _) srv ∧
      srv.lookId 2 = some s ∧ s.media.isMulticast = true ∧
      srv.Calls none s .channel0 keyPacket [true] srv₁ ∧
      Fate none .channel0 (s.group .channel0) srv srv₁ (acceptor srv.conns (srv.order s) [true])
        srv₁ n ∧
      ∃ e ∈ s.clients, srv₁.isWatching .channel0 e.2 := by
  obtain ⟨srv, hsrv, h⟩ := Option.bind_eq_some_iff.mp h
  obtain ⟨srv₁, hsrv₁, h⟩ := Option.bind_eq_some_iff.mp h
  obtain ⟨srv₃, hsrv₃, h⟩ := Option.map_eq_some_iff.mp h
  simp only [delivers, Bool.and_eq_true, Option.any_eq_true, List.any_eq_true, decide_eq_true_eq,
    List.isEmpty_iff] at h
  obtain ⟨⟨⟨⟨s, hs, ⟨⟨hm, e, he, he0⟩, hacc⟩, hn⟩, c, hc, hcl⟩, push, hpush, hnil⟩,
    d, hd, rtp, hrtp, hplay, hkey⟩ := h
  have hid : s.id = 2 := by simpa using List.find?_some hs
  refine ⟨srv, srv₁, s, ⟨new, watched others, rfl, run_of_runFrom hsrv⟩, hs, hm,
    ⟨hid ▸ run_of_runFrom hsrv₁, push, hpush, hnil⟩, ?_, e, he, ?_⟩
  · rw [hacc]
    exact .turn hc (Run.nil srv₁) (by rw [hcl]; rfl) hsrv₃ hn
  · rw [he0]
    exact ⟨d, rtp, hd, hrtp, hplay, hkey⟩

theorem multicast_delivery_one :
    ∃ (srv srv₁ : RtspServer) (s : LiveSession), (∃ e ∈ s.clients, srv₁.isWatching .channel0 e.2) ∧
      (DeliveredOnce srv₁ s .channel0 1 ↔ ((∃ e ∈ s.clients, srv₁.isWatching .channel0 e.2) →
        ∃ i ∈ acceptor srv.conns (srv.order s) [true],
          srv₁.handsOn .channel0 keyPacket (s.group .channel0) i)) := by
  obtain ⟨srv, srv₁, s, hr, hs, hm, hcall, hfate, hwatch⟩ :=
    @fate_of_delivers 0 1 [] (by decide +kernel)
  have h := multicast_delivery none hr hs hm hcall hfate
  exact ⟨srv, srv₁, s, hwatch, h⟩

/-- **A client that has only described the session** takes the packet, and it is not sent. -/
theorem multicast_delivery_described :
    ¬ ∀ (authInfo : Option DigestAuthentication) (srv srv₁ srv₂ : RtspServer) (s : LiveSession)
        (chn : MediaChannelId) (pkt : RtpPacket) (taken : List Bool) (id n : Nat),
      Reach (server authInfo) (anyStep _ _) srv → srv.lookId id = some s →
      s.media.isMulticast = true → srv.Calls authInfo s chn pkt taken srv₁ →
      Fate authInfo chn (s.group chn) srv srv₁ (acceptor srv.conns (srv.order s) taken) srv₂ n →
      DeliveredOnce srv₂ s chn n := by
  intro h
  obtain ⟨srv, srv₁, s, hr, hs, hm, hcall, hfate, hwatch⟩ :=
    @fate_of_delivers 1 0 (visit 1 6 [toDescribe]) (by decide +kernel)
  have hlaw := h none srv srv₁ srv₁ s .channel0 keyPacket [true] 2 0 hr hs hm hcall hfate
  exact absurd (hlaw.1 hwatch) (by decide)

end RtspServer

end Maixii.Xop
