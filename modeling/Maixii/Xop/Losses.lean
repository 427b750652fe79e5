import Maixii.Xop.Clients
import Maixii.Xop.H264Source
import Maixii.Xop.KeyFrame

/-!
# `Xop/Losses.lean`: which losses a receiver can see

A packet can get lost in three places. The send queue refuses it, or `sendto` fails: then it has
taken its sequence number with it, and the receiver sees a gap. Or the trigger queue is full: then
its closure never runs, no number is taken, and the fragments before and behind it carry numbers
that follow each other. What a receiver puts together from these is no unit that was ever pushed.

So a receiver that discards on a gap is safe as long as no fragment is refused by the trigger queue
once the first fragment of its unit has been taken (`Whole`). Then what takes numbers is, without
anything left out, a part of a sequence of whole units and of remainders without a first fragment
(`Sound`), and the two rules of `Lib/Numbered.lean` do the rest.
-/

set_option autoImplicit false

namespace Maixii.Xop

open Maixii.Lib Maixii.Net

/-! ## The model -/

/-- A source, and one client of its session. -/
structure Broadcast where
  conn : RtspConnection
  /-- The units pushed so far. -/
  nals : List Bytes
  /-- What is left of the unit `HandleFrame` is at. -/
  pending : List SourcePacket
  /-- Whether the closure of its first fragment has been queued. -/
  opened : Bool
  /-- For every closure, what its packet carries. -/
  payloads : List Bytes
  /-- The RTP packets the client gets. -/
  received : List Bytes
  /-- How many have been lost since, behind their sequence number. -/
  lost : Nat

inductive Cast
  /-- `HandleFrame` is called. -/
  | frame (now : UInt32) (f : AVFrame)
  /-- Its next packet comes to `SendRtpPacket`, and whether the scheduler takes the closure. -/
  | emit (taken : Bool)
  /-- The source of the other channel. -/
  | other (chn : MediaChannelId) (p : SourcePacket) (taken : Bool)
  /-- Any other call of the connection. -/
  | call (i : Input)

/-- The sequence number and the payload of an RTP packet. -/
def seqOf (packet : Bytes) : Nat := fromBE ((packet.drop 2).take 2)

def payloadOf (packet : Bytes) : Bytes := packet.drop rtpHeaderSize

namespace Broadcast

/-- `SendRtpPacket`; a client without an RTP connection is in no map and is not asked. -/
def send (b : Broadcast) (chn : MediaChannelId) (p : SourcePacket) (taken : Bool) : Broadcast :=
  let c' := (b.conn.serve (.push chn p.pkt taken)).getD b.conn
  { b with
    conn := c'
    payloads := b.payloads ++ (c'.closures.drop b.conn.closures.length).map fun _ => p.payload }

/-- A packet of the channel that a closure has given to the transport, and whether it arrives. -/
def handed (video : MediaChannelId) (sendto : Bool) : Effect → Option (Bytes × Bool)
  | .framed chn bytes queued =>
      if chn = video then some (bytes.drop rtpTcpHeadSize, queued) else none
  | .sentTo chn _ _ bytes => if chn = video then some (bytes, sendto) else none
  | _ => none

/-- The oldest closure has run. -/
def arrive (video : MediaChannelId) (sendto : Bool) (b : Broadcast) (c' : RtspConnection) :
    Broadcast :=
  let b' := { b with conn := c', payloads := b.payloads.tail }
  match ((mediaEvents c'.log).drop (mediaEvents b.conn.log).length).filterMap
      (handed video sendto) with
  | [] => b'
  | (packet, true) :: _ => { b' with received := b.received ++ [packet], lost := 0 }
  | (_, false) :: _ => { b' with lost := b.lost + 1 }

/-- The packet's buffer still carries the payload: nobody writes behind the headers. -/
def carries (b : Broadcast) (data : PacketData) : Bool :=
  match b.payloads, b.conn.closures with
  | payload :: _, (_, pkt) :: _ =>
      decide ((data.bytes.take pkt.size).drop (rtpTcpHeadSize + rtpHeaderSize) = payload)
  | _, _ => true

def step (video : MediaChannelId) (b : Broadcast) : Cast → Option Broadcast
  | .frame now f =>
      if b.pending.isEmpty then
        some { b with
          nals := b.nals ++ [f.buffer]
          pending := H264Source.handleFrame now f
          opened := false }
      else none
  | .emit taken =>
      match b.pending with
      | [] => none
      | p :: rest =>
          let b' := b.send video p taken
          some { b' with
            pending := rest
            opened := b.opened ||
              (isFuStart p.payload && decide (b.payloads.length < b'.payloads.length)) }
  | .other chn p taken => if chn = video then none else some (b.send chn p taken)
  | .call (.push _ _ _) => none
  | .call (.trigger data env) =>
      if b.carries data then
        (b.conn.serve (.trigger data env)).map (b.arrive video env.sendto)
      else none
  | .call i => (b.conn.serve i).map fun c' => { b with conn := c' }

/-- A source that has pushed nothing, and a new connection. -/
def system (authInfo : Option DigestAuthentication) (video : MediaChannelId) :
    System Broadcast Cast :=
  System.ofStep
    (fun b => ∃ fd request, b = ⟨RtspConnection.new fd authInfo request, [], [], false, [], [], 0⟩)
    (step video)

/-- **The guard.** No fragment is refused by the trigger queue once the first one of its unit has
been taken; no short unit looks like a fragment; what TEARDOWN has closed is not played again; and
no 65536 packets are lost in a row. -/
def Whole (b : Broadcast) : Cast → Prop
  | .frame _ f => ¬ H264Source.LooksLikeFuA f.buffer
  | .emit taken => taken = true ∨ b.opened = false
  | .other _ _ _ => True
  | .call (.request req _) => req.method = .play → b.conn.passes req = true →
      ∀ rtp ∈ b.conn.rtpConn, rtp.isClosed = false
  | .call (.trigger _ _) => b.lost < 2 ^ 16
  | .call _ => True

instance (b : Broadcast) (i : Cast) : Decidable (b.Whole i) := by
  unfold Whole
  split <;> infer_instance

end Broadcast

/-- What a receiver takes for one unit: from a first fragment to the next last one. -/
structure FuUnit (packets : List Bytes) : Prop where
  ends : ∃ x mid y, packets = x :: mid ++ [y] ∧ isFuStart (payloadOf x) = true ∧
    (∀ p ∈ mid, isFuEnd (payloadOf p) = false) ∧ isFuEnd (payloadOf y) = true

/-- **Losses are visible**: fragments with consecutive numbers give a unit that was pushed. -/
def LossesVisible (nals received : List Bytes) : Prop :=
  ∀ pre packets post, received = pre ++ packets ++ post → FuUnit packets →
    Consecutive (2 ^ 16) seqOf packets → reassemble (packets.map payloadOf) ∈ nals

/-! ## What has taken a number -/

/-- Every block is a unit that was pushed, in its fragments, or has no first fragment. -/
def BlockOf (nals : List Bytes) (block : List Bytes) : Prop :=
  (∀ p ∈ block, isFuStart p = false) ∨
    ∃ now f, f.buffer ∈ nals ∧ maxRtpPayloadSize < f.buffer.length ∧
      block = (H264Source.handleFrame now f).map SourcePacket.payload

/-- What was sent is a part, with nothing left out, of a sequence of such blocks. -/
def Sound (nals sent : List Bytes) : Prop :=
  ∃ blocks : List (List Bytes), (∀ block ∈ blocks, BlockOf nals block) ∧ sent <:+: blocks.flatten

theorem BlockOf.block {nals block : List Bytes} (h : BlockOf nals block) :
    Block (isFuStart · = true) (isFuEnd · = true) block := by
  rcases h with h | ⟨now, f, -, hlong, rfl⟩
  · exact .headless fun p hp => by simp [h p hp]
  · obtain ⟨x, mid, y, heq, hx, hmid, hy, -⟩ := H264Source.handleFrame_long now f hlong
    rw [heq]
    exact .whole ⟨hx.1, by simp [hx.2]⟩ (fun p hp => by simp [hmid p hp]) ⟨by simp [hy.1], hy.2⟩

theorem BlockOf.mono {nals nals' block : List Bytes} (h : BlockOf nals block)
    (hsub : ∀ nal ∈ nals, nal ∈ nals') : BlockOf nals' block := by
  rcases h with h | ⟨now, f, hf, hlong, rfl⟩
  · exact Or.inl h
  · exact Or.inr ⟨now, f, hsub _ hf, hlong, rfl⟩

theorem Sound.mono {nals nals' sent : List Bytes} (h : Sound nals sent)
    (hsub : ∀ nal ∈ nals, nal ∈ nals') : Sound nals' sent := by
  obtain ⟨blocks, hblocks, hsent⟩ := h
  exact ⟨blocks, fun block hb => (hblocks block hb).mono hsub, hsent⟩

/-- **Why losses are visible.** -/
theorem Sound.visible {nals sent received : List Bytes} {base lost : Nat} (h : Sound nals sent)
    (hd : Delivery (2 ^ 16) seqOf payloadOf base sent received lost) :
    LossesVisible nals received := by
  intro pre packets post hrec hunit hseq
  obtain ⟨blocks, hblocks, hsent⟩ := h
  obtain ⟨⟨x, mid, y, rfl, hx, hmid, hy⟩⟩ := hunit
  have hin := hd.infix hrec hseq
  obtain ⟨a, c, hinfix⟩ := hin.trans hsent
  have hmap : (x :: mid ++ [y]).map payloadOf =
      payloadOf x :: mid.map payloadOf ++ [payloadOf y] := by simp
  rw [hmap] at hinfix ⊢
  have hmem := infix_of_blocks (fun b hb => (hblocks b hb).block) hx
    (by simpa using fun p hp => hmid p hp) hy hinfix.symm
  rcases hblocks _ hmem with hhead | ⟨now, f, hf, hlong, heq⟩
  · have := hhead _ (by simp : payloadOf x ∈ payloadOf x :: mid.map payloadOf ++ [payloadOf y])
    rw [hx] at this
    exact absurd this (by decide)
  · rw [heq, H264Source.reassemble_handleFrame now f hlong]
    exact hf

/-! ## One packet's bytes -/

theorem payloadOf_rtpBytes (h : RtpHeader) (pkt : RtpPacket) (data : PacketData) :
    payloadOf (RtpConnection.rtpBytes h pkt data) =
      (data.bytes.take pkt.size).drop (rtpTcpHeadSize + rtpHeaderSize) :=
  List.drop_left' h.length_toBytes

theorem seqOf_rtpBytes (h : RtpHeader) (pkt : RtpPacket) (data : PacketData) :
    seqOf (RtpConnection.rtpBytes h pkt data) = h.seq.toNat := by
  have hbytes : ((RtpConnection.rtpBytes h pkt data).drop 2).take 2 = be16 h.seq := rfl
  rw [seqOf, hbytes, fromBE_be16]

/-! ## The RTP half of the client -/

namespace RtpConnection

/-- Neither playing nor recording. -/
def Shut (r : RtpConnection) (chn : MediaChannelId) : Prop :=
  (r.mediaChannelInfo chn).isPlay = false ∧ (r.mediaChannelInfo chn).isRecord = false

/-- From `r` to `r'` no number is taken on the channel, and it is open as long as it was and there
was no TEARDOWN. -/
structure Steady (chn : MediaChannelId) (r r' : RtpConnection) : Prop where
  seq : (r'.mediaChannelInfo chn).packetSeq = (r.mediaChannelInfo chn).packetSeq
  closed : r.isClosed = true → r'.isClosed = true
  shut : (r.isClosed = true → r.Shut chn) → r'.isClosed = true → r'.Shut chn
  sends : r'.isClosed = false → r.sends chn = true → r'.sends chn = true

variable {chn : MediaChannelId} {r r' : RtpConnection}

theorem Steady.refl (r : RtpConnection) : Steady chn r r := ⟨rfl, id, id, fun _ => id⟩

theorem Idles.steady (h : r.Idles r') : Steady chn r r' := by
  have hi := h.info chn
  refine ⟨hi.packetSeq, h.isClosed.trans, ?_, ?_⟩
  · intro hshut hc
    obtain ⟨hp, hr⟩ := hshut (h.isClosed.symm.trans hc)
    exact ⟨hi.isPlay.trans hp, hi.isRecord.trans hr⟩
  · intro _ hs
    rwa [RtpConnection.sends, hi.isPlay, hi.isRecord, h.hasKeyFrame]

theorem describe_steady (r : RtpConnection) (session : MediaSession) :
    Steady chn r (RtspConnection.describeSources r session) := by
  obtain ⟨hc, hk⟩ := describeSources_rest r session
  have hinfo : ∀ q : MediaChannelInfo, q = (RtspConnection.describeSources r session).mediaChannelInfo
      chn → q.packetSeq = (r.mediaChannelInfo chn).packetSeq ∧
        q.isPlay = (r.mediaChannelInfo chn).isPlay ∧
        q.isRecord = (r.mediaChannelInfo chn).isRecord := by
    rintro _ rfl
    rw [describeSources_info]
    cases session.source chn <;> exact ⟨rfl, rfl, rfl⟩
  obtain ⟨hs, hp, hr⟩ := hinfo _ rfl
  refine ⟨hs, hc.trans, ?_, ?_⟩
  · intro hshut hcl
    obtain ⟨hp', hr'⟩ := hshut (hc.symm.trans hcl)
    exact ⟨hp.trans hp', hr.trans hr'⟩
  · intro _ hsend
    rwa [RtpConnection.sends, hp, hr, hk]

theorem play_steady (ho : r.isClosed = false) : Steady chn r r.play := by
  refine ⟨?_, id, ?_, ?_⟩
  · rw [play_info]
    split <;> rfl
  · intro _ hc
    rw [show r.play.isClosed = r.isClosed from rfl, ho] at hc
    exact absurd hc (by decide)
  · intro _ hs
    rw [RtpConnection.sends, Bool.and_eq_true] at hs ⊢
    refine ⟨?_, hs.2⟩
    rw [play_info]
    split
    · rfl
    · exact hs.1

theorem teardown_steady (r : RtpConnection) : Steady chn r r.teardown := by
  unfold teardown
  split
  · exact .refl r
  · exact ⟨rfl, fun _ => rfl, fun _ _ => ⟨rfl, rfl⟩, fun h => by simp at h⟩

theorem Steady.trans {q : RtpConnection} (h₁ : Steady chn r q) (h₂ : Steady chn q r') :
    Steady chn r r' := by
  refine ⟨h₂.seq.trans h₁.seq, fun h => h₂.closed (h₁.closed h), fun h => h₂.shut (h₁.shut h), ?_⟩
  intro ho hs
  have hq : q.isClosed = false := by
    cases hq : q.isClosed with
    | false => rfl
    | true =>
      rw [h₂.closed hq] at ho
      exact ho
  exact h₂.sends ho (h₁.sends hq hs)

/-- What a closure does to a channel: its own takes a number if it sends. -/
theorem sendPacket_info (r : RtpConnection) (d chn : MediaChannelId) (pkt : RtpPacket)
    (data : PacketData) :
    ((r.sendPacket d pkt data).1.mediaChannelInfo chn).packetSeq =
        (if d = chn ∧ (r.setFrameType pkt.type).sends d = true then
          (r.mediaChannelInfo chn).packetSeq + 1 else (r.mediaChannelInfo chn).packetSeq) ∧
      (r.sends chn = true → (r.sendPacket d pkt data).1.sends chn = true) ∧
      ((r.setFrameType pkt.type).sends chn = true →
        (r.sendPacket d pkt data).1.sends chn = true) := by
  have hsame := (r.sendPacket_same d pkt data).2.2.2.2.2 chn
  have hkey := (r.sendPacket_flow d pkt data).2
  have hkeep : (r.setFrameType pkt.type).sends chn = true →
      (r.sendPacket d pkt data).1.sends chn = true := by
    intro hs
    rw [RtpConnection.sends, hsame.2.2.1, hsame.2.2.2, hkey]
    exact hs
  refine ⟨?_, ?_, hkeep⟩
  · rcases r.sendPacket_cases d pkt data with ⟨hs, h⟩ | ⟨hs, _, -, ⟨-, h⟩ | ⟨-, h⟩⟩
    · rw [h, if_neg (by rw [hs]; simp)]
      rfl
    all_goals
      rw [h]
      by_cases hd : d = chn
      · subst hd
        rw [if_pos ⟨rfl, hs⟩]
        simp [updateInfo, setFrameType]
      · rw [if_neg (fun hx => hd hx.1)]
        simp [updateInfo, setFrameType, Function.update_of_ne (Ne.symm hd)]
  · intro hs
    refine hkeep ?_
    rw [RtpConnection.sends, Bool.and_eq_true] at hs ⊢
    exact ⟨hs.1, by simp [setFrameType, hs.2]⟩

end RtpConnection

namespace RtspConnection

/-- Over a call that runs no closure, the RTP connection is steady, or has just been made, or
goes. -/
inductive Steadies (chn : MediaChannelId) (c' : RtspConnection) : Option RtpConnection →
    Option RtpConnection → Prop
  | absent : Steadies chn c' none none
  | made {q : RtpConnection} (h : q.isClosed = false) : Steadies chn c' none (some q)
  | steady {r r' : RtpConnection} (h : r.Steady chn r') : Steadies chn c' (some r) (some r')
  | gone {o : Option RtpConnection} (h : c'.destroyed = true) : Steadies chn c' o none

theorem serve_steadies {c c' : RtspConnection} {i : Input} (chn : MediaChannelId)
    (h : c.serve i = some c') (hi : ∀ data env, i ≠ .trigger data env)
    (hplay : ∀ req env, i = .request req env → req.method = .play → c.passes req = true →
      ∀ rtp ∈ c.rtpConn, rtp.isClosed = false) :
    Steadies chn c' c.rtpConn c'.rtpConn := by
  cases serve_flow h with
  | rests _ hr _ _ =>
    generalize c.rtpConn = o at hr
    generalize c'.rtpConn = o' at hr
    cases hr with
    | absent => exact .absent
    | made seed => exact .made rfl
    | idles hidle => exact .steady hidle.steady
  | @describes req env session _ _ hr _ _ =>
    rw [hr]
    cases c.rtpConn with
    | none => exact .made (describeSources_rest _ session).1
    | some r => exact .steady (RtpConnection.describe_steady r session)
  | plays hm hp hr hr' _ _ =>
    rw [hr, hr']
    exact .steady (RtpConnection.play_steady (hplay _ _ rfl hm hp _ hr))
  | stops _ hr hr' _ _ =>
    rw [hr, hr']
    exact .steady (RtpConnection.teardown_steady _)
  | queues hr _ hr' _ _ =>
    rw [hr', hr]
    exact .steady (.refl _)
  | runs => exact absurd rfl (hi _ _)
  | ends hd hr _ _ =>
    rw [hr]
    exact .gone hd

/-- `SendRtpPacket`, whether it is called or not. -/
theorem push_eq (c : RtspConnection) (chn : MediaChannelId) (pkt : RtpPacket) (taken : Bool) :
    (c.serve (.push chn pkt taken)).getD c =
      if (!c.destroyed && c.rtpConn.any fun rtp => !rtp.isClosed) && taken then
        { c with closures := c.closures ++ [(chn, pkt)] }
      else c := by
  cases hd : c.destroyed with
  | true => simp [serve, hd]
  | false =>
    cases hr : c.rtpConn with
    | none => simp [serve, hd, sendRtpPacket, hr]
    | some rtp =>
      cases hc : rtp.isClosed <;> cases taken <;> simp [serve, hd, sendRtpPacket, hr, hc]

end RtspConnection

/-! ## The invariant -/

/-- Where `HandleFrame` is in its unit, and what of the unit has been queued: nothing yet, or all of
it so far, or no first fragment at all. -/
inductive Current (nals : List Bytes) (opened : Bool) (pending : List SourcePacket) :
    List Bytes → Prop
  | fresh {now : UInt32} {f : AVFrame} (hf : f.buffer ∈ nals)
      (hfu : ¬ H264Source.LooksLikeFuA f.buffer) (hp : pending = H264Source.handleFrame now f)
      (ho : opened = false) : Current nals opened pending []
  | started {now : UInt32} {f : AVFrame} {cur : List Bytes} (hf : f.buffer ∈ nals)
      (hlong : maxRtpPayloadSize < f.buffer.length)
      (hp : cur ++ pending.map SourcePacket.payload =
        (H264Source.handleFrame now f).map SourcePacket.payload)
      (ho : opened = true) : Current nals opened pending cur
  | headless {cur : List Bytes} (hcur : ∀ p ∈ cur, isFuStart p = false)
      (hp : ∀ p ∈ pending, isFuStart p.payload = false) (ho : opened = false) :
      Current nals opened pending cur

/-- What is queued so far is the beginning of a block. -/
theorem Current.block {nals : List Bytes} {opened : Bool}
    {pending : List SourcePacket} {cur : List Bytes} (h : Current nals opened pending cur) :
    ∃ more, BlockOf nals (cur ++ more) := by
  cases h with
  | fresh _ _ _ _ => exact ⟨[], Or.inl (by simp)⟩
  | @started now f _ hf hlong hp _ => exact ⟨_, Or.inr ⟨now, f, hf, hlong, hp⟩⟩
  | headless hcur _ _ => exact ⟨[], Or.inl (by simpa using hcur)⟩

/-- A packet goes by. -/
theorem Current.skip {nals : List Bytes} {pending : List SourcePacket}
    {p : SourcePacket} {cur : List Bytes} (h : Current nals false (p :: pending) cur) :
    Current nals false pending cur := by
  cases h with
  | @fresh now f hf hfu hp ho =>
    refine .headless (List.forall_mem_nil _) ?_ rfl
    -- Whatever comes behind the first packet of a unit is not marked as a first one.
    intro q hq
    by_cases hlong : maxRtpPayloadSize < f.buffer.length
    · obtain ⟨x, mid, y, heq, -, hmid, hy, -⟩ := H264Source.handleFrame_long now f hlong
      rw [← hp, List.map_cons, List.cons_append] at heq
      have hmem : q.payload ∈ mid ++ [y] := by
        rw [← (List.cons.inj heq).2]
        exact List.mem_map_of_mem hq
      rcases List.mem_append.mp hmem with hm | hm
      · exact (hmid _ hm).1
      · rw [List.mem_singleton.mp hm]
        exact hy.1
    · have heq := H264Source.handleFrame_short now f (by omega)
      rw [← hp, List.map_cons] at heq
      have hnil : pending = [] := by simpa using (List.cons.inj heq).2
      rw [hnil] at hq
      exact absurd hq List.not_mem_nil
  | started _ _ _ ho => exact absurd ho (by decide)
  | headless hcur hp ho => exact .headless hcur (fun q hq => hp q (List.mem_cons_of_mem _ hq)) rfl

/-- A packet is queued. -/
theorem Current.take {nals : List Bytes} {opened : Bool}
    {pending : List SourcePacket} {p : SourcePacket} {cur : List Bytes}
    (h : Current nals opened (p :: pending) cur) :
    Current nals (opened || isFuStart p.payload) pending (cur ++ [p.payload]) := by
  cases h with
  | @fresh now f hf hfu hp ho =>
    by_cases hlong : maxRtpPayloadSize < f.buffer.length
    · obtain ⟨x, mid, y, heq, hx, -, -, -⟩ := H264Source.handleFrame_long now f hlong
      rw [← hp, List.map_cons, List.cons_append] at heq
      have hstart : isFuStart p.payload = true := by
        rw [(List.cons.inj heq).1]
        exact hx.1
      refine @Current.started _ _ _ now f _ hf hlong ?_ (by simp [hstart])
      rw [← hp]
      rfl
    · have heq := H264Source.handleFrame_short now f (by omega)
      rw [← hp, List.map_cons] at heq
      have hstart : isFuStart p.payload = false := by
        rw [(List.cons.inj heq).1]
        exact H264Source.isFuA_short hfu
      have hnil : pending = [] := by simpa using (List.cons.inj heq).2
      refine .headless (by simpa using hstart) (by simp [hnil]) (by simp [ho, hstart])
  | @started now f _ hf hlong hp ho =>
    refine @Current.started _ _ _ now f _ hf hlong ?_ (by simp [ho])
    rw [← hp]
    simp
  | headless hcur hp ho =>
    have hstart := hp p List.mem_cons_self
    refine .headless ?_ (fun q hq => hp q (List.mem_cons_of_mem _ hq)) (by simp [ho, hstart])
    intro q hq
    rcases List.mem_append.mp hq with hq | hq
    · exact hcur q hq
    · rw [List.mem_singleton.mp hq]
      exact hstart

namespace Broadcast

/-- The connection will send no more. -/
def Ended (b : Broadcast) : Prop :=
  b.conn.destroyed = true ∨ ∃ rtp, b.conn.rtpConn = some rtp ∧ rtp.isClosed = true

/-- What the channel's closures carry. -/
def queue (video : MediaChannelId) (b : Broadcast) : List Bytes :=
  ((b.payloads.zip b.conn.closures).filter fun x => decide (x.2.1 = video)).map Prod.fst

/-- Nothing has been left out: behind what was skipped before the client played comes what was
sent, and then the queue. -/
def Parts (video : MediaChannelId) (b : Broadcast) (sent : List Bytes) : Prop :=
  ∃ (blocks : List (List Bytes)) (cur skipped : List Bytes),
    (∀ block ∈ blocks, BlockOf b.nals block) ∧ Current b.nals b.opened b.pending cur ∧
    blocks.flatten ++ cur = skipped ++ sent ++ b.queue video

/-- And once something was sent, everything is. -/
structure Flowing (video : MediaChannelId) (b : Broadcast) (sent : List Bytes) : Prop where
  parts : b.Parts video sent
  sends : sent ≠ [] → ∀ rtp, b.conn.rtpConn = some rtp → rtp.sends video = true

/-- **What holds in every state.** -/
structure Tracked (video : MediaChannelId) (b : Broadcast) (base : Nat) (sent : List Bytes) :
    Prop where
  sound : Sound b.nals sent
  delivered : Delivery (2 ^ 16) seqOf payloadOf base sent b.received b.lost
  numbered : ∀ rtp, b.conn.rtpConn = some rtp →
    (rtp.mediaChannelInfo video).packetSeq.toNat ≡ base + sent.length [MOD 2 ^ 16]
  shut : ∀ rtp, b.conn.rtpConn = some rtp → rtp.isClosed = true → rtp.Shut video
  paired : b.payloads.length = b.conn.closures.length
  absent : b.conn.rtpConn = none → b.conn.destroyed = false →
    sent = [] ∧ b.conn.closures = [] ∧ b.opened = false
  flowing : ¬ b.Ended → b.Flowing video sent

variable {video : MediaChannelId} {b : Broadcast} {base : Nat} {sent : List Bytes}

theorem Parts.sound (h : b.Parts video sent) : Sound b.nals sent := by
  obtain ⟨blocks, cur, skipped, hblocks, hcur, heq⟩ := h
  obtain ⟨more, hmore⟩ := hcur.block
  refine ⟨blocks ++ [cur ++ more], ?_, skipped, b.queue video ++ more, ?_⟩
  · intro block hb
    rcases List.mem_append.mp hb with hb | hb
    · exact hblocks block hb
    · rw [List.mem_singleton.mp hb]
      exact hmore
  · rw [List.flatten_append, List.flatten_singleton, ← List.append_assoc, ← List.append_assoc, heq]

/-! ### `HandleFrame` -/

theorem Tracked.frame (h : b.Tracked video base sent) (now : UInt32) {f : AVFrame}
    (hfu : ¬ H264Source.LooksLikeFuA f.buffer) (hp : b.pending = []) :
    Tracked video { b with
      nals := b.nals ++ [f.buffer]
      pending := H264Source.handleFrame now f
      opened := false } base sent := by
  have hsub : ∀ nal ∈ b.nals, nal ∈ b.nals ++ [f.buffer] := fun nal hn => List.mem_append_left _ hn
  refine ⟨h.sound.mono hsub, h.delivered, h.numbered, h.shut, h.paired, ?_, ?_⟩
  · intro hnone hlive
    obtain ⟨hsent, hcl, -⟩ := h.absent hnone hlive
    exact ⟨hsent, hcl, rfl⟩
  · intro hended
    obtain ⟨⟨blocks, cur, skipped, hblocks, hcur, heq⟩, hsends⟩ := h.flowing hended
    refine ⟨⟨blocks ++ [cur], [], skipped, ?_, ?_, ?_⟩, hsends⟩
    · -- The unit before this one is complete.
      intro block hb
      rcases List.mem_append.mp hb with hb | hb
      · exact (hblocks block hb).mono hsub
      · rw [List.mem_singleton.mp hb]
        refine BlockOf.mono ?_ hsub
        rw [hp] at hcur
        cases hcur with
        | fresh _ _ _ _ => exact Or.inl (List.forall_mem_nil _)
        | @started now f _ hf hlong hall _ =>
          refine Or.inr ⟨now, f, hf, hlong, ?_⟩
          rw [← hall]
          simp
        | headless hno _ _ => exact Or.inl hno
    · exact .fresh (List.mem_append_right _ List.mem_cons_self) hfu rfl rfl
    · rw [List.flatten_append, List.flatten_singleton, List.append_nil]
      exact heq

/-! ### `SendRtpPacket` -/

/-- Whether a closure will be queued. -/
def accepts (b : Broadcast) (taken : Bool) : Bool :=
  (!b.conn.destroyed && b.conn.rtpConn.any fun rtp => !rtp.isClosed) && taken

theorem send_eq (b : Broadcast) (chn : MediaChannelId) (p : SourcePacket) (taken : Bool) :
    b.send chn p taken = if b.accepts taken then
      { b with
        conn := { b.conn with closures := b.conn.closures ++ [(chn, p.pkt)] }
        payloads := b.payloads ++ [p.payload] }
      else b := by
  unfold send accepts
  dsimp only
  rw [RtspConnection.push_eq]
  split
  · simp
  · simp

/-- A closure more. -/
theorem queue_append (video chn : MediaChannelId) (p : SourcePacket)
    (h : b.payloads.length = b.conn.closures.length) :
    queue video { b with
        conn := { b.conn with closures := b.conn.closures ++ [(chn, p.pkt)] }
        payloads := b.payloads ++ [p.payload] } =
      b.queue video ++ if chn = video then [p.payload] else [] := by
  unfold queue
  rw [List.zip_append h, List.filter_append, List.map_append]
  congr 1
  by_cases hc : chn = video <;> simp [hc]

/-- A packet of the source. -/
theorem Tracked.emit (h : b.Tracked video base sent) {p : SourcePacket} {rest : List SourcePacket}
    {taken : Bool} (hp : b.pending = p :: rest) (hg : taken = true ∨ b.opened = false) :
    Tracked video { b.send video p taken with
      pending := rest
      opened := b.opened ||
        (isFuStart p.payload &&
          decide (b.payloads.length < (b.send video p taken).payloads.length)) } base sent := by
  rw [send_eq]
  cases hacc : b.accepts taken with
  | true =>
    have hlen : b.payloads.length < (b.payloads ++ [p.payload]).length := by simp
    simp only [if_true, hlen, decide_true, Bool.and_true]
    have hopen : b.conn.destroyed = false ∧ ∃ rtp, b.conn.rtpConn = some rtp ∧
        rtp.isClosed = false := by
      simp only [accepts, Bool.and_eq_true, Bool.not_eq_true', Option.any_eq_true] at hacc
      exact hacc.1
    obtain ⟨-, rtp, hr, -⟩ := hopen
    refine ⟨h.sound, h.delivered, h.numbered, h.shut, ?_, ?_, ?_⟩
    · simp [h.paired]
    · intro hnone
      rw [hr] at hnone
      simp at hnone
    · intro hended
      obtain ⟨⟨blocks, cur, skipped, hblocks, hcur, heq⟩, hsends⟩ := h.flowing hended
      rw [hp] at hcur
      refine ⟨⟨blocks, cur ++ [p.payload], skipped, hblocks, hcur.take, ?_⟩, hsends⟩
      have hq := queue_append video video p h.paired
      rw [if_pos rfl] at hq
      show blocks.flatten ++ (cur ++ [p.payload]) = skipped ++ sent ++ queue video _
      rw [← List.append_assoc, heq, List.append_assoc]
      congr 1
      exact hq.symm
  | false =>
    simp only [Bool.false_eq_true, if_false, Nat.lt_irrefl, decide_false, Bool.and_false,
      Bool.or_false]
    refine ⟨h.sound, h.delivered, h.numbered, h.shut, h.paired, h.absent, ?_⟩
    intro hended
    obtain ⟨⟨blocks, cur, skipped, hblocks, hcur, heq⟩, hsends⟩ := h.flowing hended
    refine ⟨⟨blocks, cur, skipped, hblocks, ?_, heq⟩, hsends⟩
    -- The packet was not taken, or there is nobody to take it: no first fragment has been.
    have hopened : b.opened = false := by
      rcases hg with rfl | hg
      · have hlive : b.conn.destroyed = false := by
          simpa using fun hd => hended (Or.inl hd)
        cases hr : b.conn.rtpConn with
        | none => exact (h.absent hr hlive).2.2
        | some rtp =>
          have hopen : rtp.isClosed = false := by
            simpa using fun hc => hended (Or.inr ⟨rtp, hr, hc⟩)
          simp [accepts, hlive, hr, hopen] at hacc
      · exact hg
    rw [hp, hopened] at hcur
    rw [hopened]
    exact hcur.skip

/-- A packet of the other source. -/
theorem Tracked.other (h : b.Tracked video base sent) {chn : MediaChannelId} (hc : chn ≠ video)
    (p : SourcePacket) (taken : Bool) : (b.send chn p taken).Tracked video base sent := by
  rw [send_eq]
  split
  · rename_i hacc
    simp only [accepts, Bool.and_eq_true, Bool.not_eq_true', Option.any_eq_true] at hacc
    obtain ⟨⟨-, rtp, hr, -⟩, -⟩ := hacc
    refine ⟨h.sound, h.delivered, h.numbered, h.shut, ?_, ?_, ?_⟩
    · simp [h.paired]
    · intro hnone
      rw [hr] at hnone
      simp at hnone
    · intro hended
      obtain ⟨⟨blocks, cur, skipped, hblocks, hcur, heq⟩, hsends⟩ := h.flowing hended
      refine ⟨⟨blocks, cur, skipped, hblocks, hcur, ?_⟩, hsends⟩
      have hq := queue_append video chn p h.paired
      rw [if_neg hc, List.append_nil] at hq
      show blocks.flatten ++ cur = skipped ++ sent ++ queue video _
      rw [heq]
      congr 1
      exact hq.symm
  · exact h

/-! ### The connection -/

/-- A call that runs no closure and queues none. -/
theorem Tracked.call (h : b.Tracked video base sent) {i : Input} {c' : RtspConnection}
    (hs : b.conn.serve i = some c') (hi : ∀ data env, i ≠ .trigger data env)
    (hpush : ∀ chn pkt taken, i ≠ .push chn pkt taken)
    (hplay : ∀ req env, i = .request req env → req.method = .play → b.conn.passes req = true →
      ∀ rtp ∈ b.conn.rtpConn, rtp.isClosed = false) :
    ∃ base, Tracked video { b with conn := c' } base sent := by
  have hlive := serve_not_destroyed hs
  have hcl : c'.closures = b.conn.closures := by
    cases RtspConnection.serve_flow hs with
    | rests _ _ _ hcl | describes _ _ _ hcl | plays _ _ _ _ _ hcl | stops _ _ _ _ hcl
    | ends _ _ _ hcl => exact hcl
    | queues => exact absurd rfl (hpush _ _ _)
    | runs => exact absurd rfl (hi _ _)
  have hpaired : b.payloads.length = c'.closures.length := by rw [hcl, h.paired]
  have hqueue : queue video { b with conn := c' } = b.queue video := by
    unfold queue
    rw [hcl]
  -- What was flowing is, as long as the connection can send as before.
  have hflow : b.Flowing video sent →
      (sent ≠ [] → ∀ rtp, c'.rtpConn = some rtp → rtp.sends video = true) →
      Flowing video { b with conn := c' } sent := by
    rintro ⟨⟨blocks, cur, skipped, hblocks, hcur, heq⟩, -⟩ hsends
    exact ⟨⟨blocks, cur, skipped, hblocks, hcur, by rw [hqueue]; exact heq⟩, hsends⟩
  have hsteady := RtspConnection.serve_steadies video hs hi hplay
  generalize hr : b.conn.rtpConn = o at hsteady
  generalize hr' : c'.rtpConn = o' at hsteady
  cases hsteady with
  | absent =>
    obtain ⟨hsent, hclosures, hopened⟩ := h.absent hr hlive
    refine ⟨base, h.sound, h.delivered, ?_, ?_, hpaired, ?_, ?_⟩
    · intro rtp hrtp
      rw [show c'.rtpConn = some rtp from hrtp] at hr'
      simp at hr'
    · intro rtp hrtp
      rw [show c'.rtpConn = some rtp from hrtp] at hr'
      simp at hr'
    · intro _ _
      exact ⟨hsent, hcl.trans hclosures, hopened⟩
    · intro _
      refine hflow (h.flowing ?_) fun hne => absurd hsent hne
      rintro (hd | ⟨rtp, hrtp, -⟩)
      · rw [hlive] at hd
        exact absurd hd (by decide)
      · rw [hr] at hrtp
        simp at hrtp
  | @made q hopen =>
    obtain ⟨hsent, hclosures, -⟩ := h.absent hr hlive
    refine ⟨(q.mediaChannelInfo video).packetSeq.toNat, h.sound, h.delivered.rebase hsent _, ?_, ?_,
      hpaired, ?_, ?_⟩
    · intro rtp hrtp
      obtain rfl := Option.some.inj (hr'.symm.trans hrtp)
      rw [hsent]
      exact Nat.ModEq.refl _
    · intro rtp hrtp hc
      obtain rfl := Option.some.inj (hr'.symm.trans hrtp)
      rw [hopen] at hc
      exact absurd hc (by decide)
    · intro hnone
      rw [show c'.rtpConn = none from hnone] at hr'
      simp at hr'
    · intro _
      refine hflow (h.flowing ?_) fun hne => absurd hsent hne
      rintro (hd | ⟨rtp, hrtp, -⟩)
      · rw [hlive] at hd
        exact absurd hd (by decide)
      · rw [hr] at hrtp
        simp at hrtp
  | @steady r r' hst =>
    refine ⟨base, h.sound, h.delivered, ?_, ?_, hpaired, ?_, ?_⟩
    · intro rtp hrtp
      obtain rfl := Option.some.inj (hr'.symm.trans hrtp)
      rw [hst.seq]
      exact h.numbered r hr
    · intro rtp hrtp hc
      obtain rfl := Option.some.inj (hr'.symm.trans hrtp)
      exact hst.shut (h.shut r hr) hc
    · intro hnone
      rw [show c'.rtpConn = none from hnone] at hr'
      simp at hr'
    · intro hended
      have hopen' : r'.isClosed = false := by
        simpa using fun hc => hended (Or.inr ⟨r', hr', hc⟩)
      have hbefore : ¬ b.Ended := by
        rintro (hd | ⟨rtp, hrtp, hc⟩)
        · rw [hlive] at hd
          exact absurd hd (by decide)
        · obtain rfl := Option.some.inj (hr.symm.trans hrtp)
          rw [hst.closed hc] at hopen'
          exact absurd hopen' (by decide)
      have hold := h.flowing hbefore
      refine hflow hold ?_
      intro hne rtp hrtp
      obtain rfl := Option.some.inj (hr'.symm.trans hrtp)
      exact hst.sends hopen' (hold.sends hne r hr)
  | gone hd =>
    refine ⟨base, h.sound, h.delivered, ?_, ?_, hpaired, ?_, fun hended => absurd (Or.inl hd) hended⟩
    · intro rtp hrtp
      rw [show c'.rtpConn = some rtp from hrtp] at hr'
      simp at hr'
    · intro rtp hrtp
      rw [show c'.rtpConn = some rtp from hrtp] at hr'
      simp at hr'
    · intro _ hlive'
      rw [show c'.destroyed = false from hlive'] at hd
      exact absurd hd (by decide)

/-- The transport has taken the packet or refused it. -/
theorem arrive_handed {c' : RtspConnection} {sendto : Bool} {es : List Effect} {packet : Bytes}
    {ok : Bool} (hev : mediaEvents c'.log = mediaEvents b.conn.log ++ es)
    (hes : es.filterMap (handed video sendto) = [(packet, ok)]) :
    b.arrive video sendto c' = { b with
      conn := c'
      payloads := b.payloads.tail
      received := if ok then b.received ++ [packet] else b.received
      lost := if ok then 0 else b.lost + 1 } := by
  unfold arrive
  rw [hev, List.drop_left, hes]
  cases ok <;> rfl

/-- There was none. -/
theorem arrive_nothing {c' : RtspConnection} {sendto : Bool} {es : List Effect}
    (hev : mediaEvents c'.log = mediaEvents b.conn.log ++ es)
    (hes : es.filterMap (handed video sendto) = []) :
    b.arrive video sendto c' = { b with conn := c', payloads := b.payloads.tail } := by
  unfold arrive
  rw [hev, List.drop_left, hes]

/-- What a closure of the channel gives to the transport is its packet, under the next number. -/
theorem handed_runs {c : RtspConnection} {rtp rtp' : RtpConnection} {pkt : RtpPacket}
    {data data' : PacketData} {out : Option Transmission} {es : List Effect} (sendto : Bool)
    (hs : rtp.sendPacket video pkt data = (rtp', data', out))
    (he : RtspConnection.HandedOn c video out es)
    (hsends : (rtp.setFrameType pkt.type).sends video = true) :
    ∃ packet ok, es.filterMap (handed video sendto) = [(packet, ok)] ∧
      seqOf packet = (rtp.mediaChannelInfo video).packetSeq.toNat ∧
      payloadOf packet = (data.bytes.take pkt.size).drop (rtpTcpHeadSize + rtpHeaderSize) := by
  rcases rtp.sendPacket_cases video pkt data with ⟨hno, -⟩ | ⟨-, d, -, ⟨-, h⟩ | ⟨-, h⟩⟩
  · rw [hno] at hsends
    exact absurd hsends (by decide)
  · rw [hs, Prod.mk.injEq, Prod.mk.injEq] at h
    obtain ⟨-, -, rfl⟩ := h
    cases he
    have hdrop : ∀ (n m : Nat) (l : Bytes),
        (RtpConnection.interleavedHeader n m ++ l).drop rtpTcpHeadSize = l := fun _ _ _ => rfl
    let packet := RtpConnection.rtpBytes
      (RtpConnection.nextHeader (rtp.mediaChannelInfo video) pkt) pkt data
    let frame := RtpConnection.interleavedHeader (rtp.mediaChannelInfo video).rtpChannel pkt.size
    refine ⟨packet, c.takes (frame ++ packet), ?_, ?_, ?_⟩
    · simp only [handed, List.filterMap_cons, List.filterMap_nil, if_true, hdrop, packet, frame]
    · exact seqOf_rtpBytes _ pkt data
    · exact payloadOf_rtpBytes _ pkt data
  · rw [hs, Prod.mk.injEq, Prod.mk.injEq] at h
    obtain ⟨-, -, rfl⟩ := h
    cases he
    refine ⟨RtpConnection.rtpBytes (RtpConnection.nextHeader (rtp.mediaChannelInfo video) pkt) pkt
      data, sendto, by simp only [handed, List.filterMap_cons, List.filterMap_nil, if_true], ?_, ?_⟩
    · exact seqOf_rtpBytes _ pkt data
    · exact payloadOf_rtpBytes _ pkt data

/-- What is given to the transport for the other channel is not this channel's. -/
theorem handed_other {c : RtspConnection} {chn : MediaChannelId} {out : Option Transmission}
    {es : List Effect} (sendto : Bool) (he : RtspConnection.HandedOn c chn out es)
    (hc : chn ≠ video) : es.filterMap (handed video sendto) = [] := by
  cases he <;> simp [handed, hc]

/-- **A closure.** -/
theorem Tracked.trigger (h : b.Tracked video base sent) {data : PacketData} {env : Env}
    {c' : RtspConnection} (hs : b.conn.serve (.trigger data env) = some c')
    (hcar : b.carries data = true) (hlost : b.lost < 2 ^ 16) :
    ∃ sent', (b.arrive video env.sendto c').Tracked video base sent' := by
  have hlive := serve_not_destroyed hs
  cases RtspConnection.serve_flow hs with
  | rests hi _ _ _ => exact absurd rfl (hi _ _)
  | @runs d pkt data data' env rtp rtp' out es _ hcl hr hsent he hev hr' =>
    obtain ⟨payload, rest, hpay⟩ : ∃ payload rest, b.payloads = payload :: rest := by
      cases hb : b.payloads with
      | nil =>
        have := h.paired
        rw [hb, hcl] at this
        simp at this
      | cons payload rest => exact ⟨payload, rest, rfl⟩
    have hdata : (data.bytes.take pkt.size).drop (rtpTcpHeadSize + rtpHeaderSize) = payload := by
      simpa [carries, hpay, hcl] using hcar
    have hpaired : rest.length = c'.closures.length := by
      have := h.paired
      rw [hpay, hcl] at this
      simpa using this
    -- Afterwards the RTP connection is as the closure left it, or torn down.
    obtain ⟨q, hq, hst⟩ : ∃ q, c'.rtpConn = some q ∧ rtp'.Steady video q := by
      rcases hr' with hr' | ⟨hr', -⟩
      · exact ⟨rtp', hr', .refl rtp'⟩
      · exact ⟨_, hr', RtpConnection.teardown_steady rtp'⟩
    have hsame := rtp.sendPacket_same d pkt data
    obtain ⟨hseq, hkeep, hnow⟩ := rtp.sendPacket_info d video pkt data
    rw [hsent] at hsame hseq hkeep hnow
    obtain ⟨-, -, -, -, hcsame, hinfo⟩ := hsame
    have hshut' : q.isClosed = true → q.Shut video := by
      refine hst.shut fun hc => ?_
      obtain ⟨hp, hrec⟩ := h.shut rtp hr (hcsame.symm.trans hc)
      exact ⟨(hinfo video).2.2.1.trans hp, (hinfo video).2.2.2.trans hrec⟩
    have hbefore : q.isClosed = false → ¬ b.Ended := by
      rintro ho (hd | ⟨x, hx, hc⟩)
      · rw [hlive] at hd
        exact absurd hd (by decide)
      · obtain rfl := Option.some.inj (hr.symm.trans hx)
        rw [hst.closed (hcsame.trans hc)] at ho
        exact absurd ho (by decide)
    have hqueue : b.queue video = (if d = video then [payload] else []) ++
        queue video { b with conn := c', payloads := rest } := by
      unfold queue
      rw [hpay, hcl]
      by_cases hd : d = video <;> simp [hd]
    have habsent : ∀ {P : Prop}, c'.rtpConn = none → P := by
      intro P hnone
      rw [hq] at hnone
      simp at hnone
    by_cases htakes : d = video ∧ (rtp.setFrameType pkt.type).sends d = true
    · -- The packet takes the next number.
      obtain ⟨rfl, hsends⟩ := htakes
      rw [if_pos ⟨rfl, hsends⟩] at hseq
      rw [if_pos rfl] at hqueue
      obtain ⟨packet, ok, hes, hnum, hbody⟩ := handed_runs env.sendto hsent he hsends
      rw [hdata] at hbody
      rw [arrive_handed hev hes, hpay, List.tail_cons]
      have hnotended : ¬ b.Ended := by
        rintro (hd | ⟨x, hx, hc⟩)
        · rw [hlive] at hd
          exact absurd hd (by decide)
        · obtain rfl := Option.some.inj (hr.symm.trans hx)
          obtain ⟨hp, hrec⟩ := h.shut rtp hr hc
          have hp' : ((rtp.setFrameType pkt.type).mediaChannelInfo d).isPlay = false := hp
          have hrec' : ((rtp.setFrameType pkt.type).mediaChannelInfo d).isRecord = false := hrec
          simp [RtpConnection.sends, hp', hrec'] at hsends
      obtain ⟨⟨blocks, cur, skipped, hblocks, hcur, heq⟩, -⟩ := h.flowing hnotended
      have hparts : Parts d { b with
          conn := c'
          payloads := rest
          received := if ok then b.received ++ [packet] else b.received
          lost := if ok then 0 else b.lost + 1 } (sent ++ [payload]) := by
        refine ⟨blocks, cur, skipped, hblocks, hcur, ?_⟩
        rw [heq, hqueue]
        simp only [List.append_assoc]
        rfl
      refine ⟨sent ++ [payload], hparts.sound, ?_, ?_, ?_, hpaired, habsent, ?_⟩
      · cases ok with
        | true =>
          have := h.delivered.arrives (x := packet) hlost
            (by rw [hnum]; exact h.numbered rtp hr)
          rw [hbody] at this
          exact this
        | false => exact h.delivered.lost payload
      · intro x hx
        obtain rfl := Option.some.inj (hq.symm.trans hx)
        rw [hst.seq, hseq, List.length_append, List.length_singleton, ← Nat.add_assoc]
        have hadd : ((rtp.mediaChannelInfo d).packetSeq + 1).toNat ≡
            (rtp.mediaChannelInfo d).packetSeq.toNat + 1 [MOD 2 ^ 16] := by
          rw [UInt16.toNat_add]
          exact Nat.mod_modEq _ _
        exact hadd.trans ((h.numbered rtp hr).add_right 1)
      · intro x hx hc
        obtain rfl := Option.some.inj (hq.symm.trans hx)
        exact hshut' hc
      · intro hended
        refine ⟨hparts, ?_⟩
        intro _ x hx
        obtain rfl := Option.some.inj (hq.symm.trans hx)
        refine hst.sends ?_ (hnow hsends)
        simpa using fun hc => hended (Or.inr ⟨q, hq, hc⟩)
    · -- It takes none.
      rw [if_neg htakes] at hseq
      have hes : es.filterMap (handed video env.sendto) = [] := by
        by_cases hd : d = video
        · subst hd
          have hno : (rtp.setFrameType pkt.type).sends d = false := by
            simpa using fun hx => htakes ⟨rfl, hx⟩
          have hflow := (rtp.sendPacket_flow d pkt data).1
          rw [hsent, hno] at hflow
          cases he with
          | nothing => rfl
          | frame _ | datagram _ _ _ => simp at hflow
        · exact handed_other env.sendto he hd
      rw [arrive_nothing hev hes, hpay, List.tail_cons]
      refine ⟨sent, h.sound, h.delivered, ?_, ?_, hpaired, habsent, ?_⟩
      · intro x hx
        obtain rfl := Option.some.inj (hq.symm.trans hx)
        rw [hst.seq, hseq]
        exact h.numbered rtp hr
      · intro x hx hc
        obtain rfl := Option.some.inj (hq.symm.trans hx)
        exact hshut' hc
      · intro hended
        have hopen : q.isClosed = false := by
          simpa using fun hc => hended (Or.inr ⟨q, hq, hc⟩)
        obtain ⟨⟨blocks, cur, skipped, hblocks, hcur, heq⟩, hold⟩ := h.flowing (hbefore hopen)
        refine ⟨?_, ?_⟩
        · by_cases hd : d = video
          · -- Nothing has been sent yet, and this packet is skipped.
            subst hd
            have hnil : sent = [] := by
              by_contra hne
              have hs' := hold hne rtp hr
              refine htakes ⟨rfl, ?_⟩
              rw [RtpConnection.sends, Bool.and_eq_true] at hs' ⊢
              exact ⟨hs'.1, by simp [RtpConnection.setFrameType, hs'.2]⟩
            rw [if_pos rfl] at hqueue
            refine ⟨blocks, cur, skipped ++ [payload], hblocks, hcur, ?_⟩
            rw [heq, hqueue, hnil]
            simp only [List.append_assoc, List.append_nil]
          · rw [if_neg hd, List.nil_append] at hqueue
            exact ⟨blocks, cur, skipped, hblocks, hcur, by rw [heq, hqueue]⟩
        · intro hne x hx
          obtain rfl := Option.some.inj (hq.symm.trans hx)
          exact hst.sends hopen (hkeep (hold hne rtp hr))

/-- **One step.** -/
theorem Tracked.step {i : Cast} {b' : Broadcast} (h : b.Tracked video base sent) (hg : b.Whole i)
    (hs : b.step video i = some b') : ∃ base sent, b'.Tracked video base sent := by
  cases i with
  | frame now f =>
    simp only [Broadcast.step] at hs
    split at hs
    · rename_i hp
      obtain rfl := Option.some.inj hs
      exact ⟨base, sent, h.frame now hg (by simpa using hp)⟩
    · simp at hs
  | emit taken =>
    simp only [Broadcast.step] at hs
    split at hs
    · simp at hs
    · rename_i p rest hp
      obtain rfl := Option.some.inj hs
      exact ⟨base, sent, h.emit hp hg⟩
  | other chn p taken =>
    simp only [Broadcast.step] at hs
    split at hs
    · simp at hs
    · rename_i hc
      obtain rfl := Option.some.inj hs
      exact ⟨base, sent, h.other hc p taken⟩
  | call i =>
    cases i with
    | push chn pkt taken => simp [Broadcast.step] at hs
    | trigger data env =>
      simp only [Broadcast.step] at hs
      split at hs
      · rename_i hcar
        obtain ⟨c', hc', rfl⟩ := Option.map_eq_some_iff.mp hs
        obtain ⟨sent', h'⟩ := h.trigger hc' hcar hg
        exact ⟨base, sent', h'⟩
      · simp at hs
    | request req env =>
      obtain ⟨c', hc', rfl⟩ := Option.map_eq_some_iff.mp hs
      obtain ⟨base', h'⟩ := h.call hc' (fun _ _ => Input.noConfusion)
        (fun _ _ _ => Input.noConfusion) fun req' env' heq => by
          obtain ⟨rfl, -⟩ := Input.request.inj heq
          exact hg
      exact ⟨base', sent, h'⟩
    | read _ | close _ | writable _ | destroy =>
      obtain ⟨c', hc', rfl⟩ := Option.map_eq_some_iff.mp hs
      obtain ⟨base', h'⟩ := h.call hc' (fun _ _ => Input.noConfusion)
        (fun _ _ _ => Input.noConfusion) fun _ _ => Input.noConfusion
      exact ⟨base', sent, h'⟩

/-- **Losses are visible**, in every run whose steps meet the guard: wherever packets get lost
between the source and its client, fragments that arrive with consecutive numbers make up a unit
that was pushed. A receiver has nothing but the numbers to go by, so this is said of every stretch
of what was received, and what was sent appears only as the units that there are. -/
theorem losses_visible (authInfo : Option DigestAuthentication) (video : MediaChannelId)
    {b : Broadcast} (h : Reach (system authInfo video) Whole b) : LossesVisible b.nals b.received := by
  have htracked : ∃ base sent, b.Tracked video base sent := by
    refine h.inv (P := fun b => ∃ base sent, b.Tracked video base sent) ?_ ?_
    · rintro _ ⟨fd, request, rfl⟩
      have hnone : ∀ {P : Prop} {rtp : RtpConnection},
          (RtspConnection.new fd authInfo request).rtpConn = some rtp → P := by
        intro P rtp hr
        simp [RtspConnection.new] at hr
      refine ⟨0, [], ⟨[], List.forall_mem_nil _, List.nil_infix⟩, .nil, fun _ hr => hnone hr,
        fun _ hr => hnone hr, rfl, fun _ _ => ⟨rfl, rfl, rfl⟩, fun _ => ⟨?_, ?_⟩⟩
      · exact ⟨[], [], [], List.forall_mem_nil _,
          .headless (List.forall_mem_nil _) (List.forall_mem_nil _) rfl, rfl⟩
      · exact fun hne => absurd rfl hne
    · rintro t i u ⟨base, sent, ht⟩ hg hst
      exact ht.step hg hst
  obtain ⟨base, sent, ht⟩ := htracked
  exact ht.sound.visible ht.delivered

/-! ## A unit of three fragments -/

/-- An I frame of 3000 bytes. -/
def keyNal : AVFrame :=
  ⟨0x65 :: List.replicate 2999 7, RtpConnection.videoFrameI, 3000, by
    rw [List.length_cons, List.length_replicate]
    decide⟩

/-- Its fragments come to the trigger queue, which takes these, and the closures run. -/
def fragmented (taken : List Bool) : List Cast :=
  [describeLive, videoOverTcp, playLive].map (fun req => .call (.request req (Env.live 7 8))) ++
    .frame 0 keyNal :: taken.map .emit ++
    (((H264Source.handleFrame 0 keyNal).zip taken).filter Prod.snd).map fun x =>
      .call (.trigger x.1.data (Env.live 7 8))

/-- A new connection. -/
def unheard : Broadcast :=
  ⟨RtspConnection.new 5 none ⟨.none, .channel0, .rtpOverTcp, [], [], [], .parseRequestLine⟩, [], [],
    false, [], [], 0⟩

theorem unheard_start : (system none .channel0).start unheard := ⟨5, _, rfl⟩

theorem losses_visible_one :
    ∃ b : Broadcast, b.received.length = 3 ∧ LossesVisible b.nals b.received := by
  obtain ⟨b, hr, hlen⟩ := reach_of_runFrom (step .channel0) Whole unheard
    (fragmented [true, true, true]) (fun b => b.received.length) 3 unheard_start (by decide +kernel)
  exact ⟨b, hlen, losses_visible none .channel0 hr⟩

/-- Two packets with consecutive numbers, a first and a last fragment, and what they give was never
pushed. -/
def spliced (b : Broadcast) : Bool :=
  match b.received with
  | [x, y] => isFuStart (payloadOf x) && isFuEnd (payloadOf y) &&
      decide (Consecutive (2 ^ 16) seqOf [x, y]) &&
      decide (∀ nal ∈ b.nals, reassemble ([x, y].map payloadOf) ≠ nal)
  | _ => false

/-- **The second of three fragments is refused by the trigger queue**, and nobody can tell. -/
theorem losses_visible_spliced : ¬ ∀ (authInfo : Option DigestAuthentication)
    (video : MediaChannelId) (b : Broadcast), Reach (system authInfo video) (anyStep _ _) b →
      LossesVisible b.nals b.received := by
  intro h
  obtain ⟨b, hr, hs⟩ := reach_of_runFrom (step .channel0) (anyStep _ _) unheard
    (fragmented [true, false, true]) spliced true unheard_start (by decide +kernel)
  have hlaw := h none .channel0 b hr
  unfold spliced at hs
  split at hs
  · rename_i x y hrec
    simp only [Bool.and_eq_true, decide_eq_true_eq] at hs
    obtain ⟨⟨⟨hx, hy⟩, hseq⟩, hnot⟩ := hs
    refine hnot _ (hlaw [] [x, y] [] (by simpa using hrec) ⟨x, [], y, rfl, hx, ?_, hy⟩ hseq) rfl
    exact List.forall_mem_nil _
  · simp at hs

end Broadcast

end Maixii.Xop
