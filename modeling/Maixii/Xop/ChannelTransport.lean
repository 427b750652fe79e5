import Maixii.Xop.Descriptors

/-!
# `Xop/ChannelTransport.lean`: which way a packet goes

The 200 to a SETUP promises how the packets of its channel will travel (`Target`). The log
remembers the promises: `latest` is a channel's, `lastSetUp` the last one made on the connection.
The code keeps the numbers and addresses for each channel, but one `transport_mode_` for both, and
a SETUP that finds no port has already given the channel's descriptor away.

So a packet goes where it should exactly as long as the last SETUP of the connection was of the
same kind as the last one of the packet's channel, and the channel still has its socket
(`Matching`). What the TCP socket is given is framed in any case, and in order: responses and
whole frames, one after the other.
-/

set_option autoImplicit false

namespace Maixii.Xop

open Maixii.Lib Maixii.Net

/-! ## What the log promises -/

def Target.isInterleaved : Target → Bool
  | .interleaved _ => true
  | .datagrams _ _ _ => false

def Effect.setUp? : Effect → Option (MediaChannelId × Target)
  | .setUp chn target => some (chn, target)
  | _ => none

/-- The targets of the SETUPs answered with 200, with their channels. -/
def setUps (log : List Effect) : List (MediaChannelId × Target) := log.filterMap Effect.setUp?

/-- The target of the connection's latest SETUP. -/
def lastSetUp (log : List Effect) : Option Target := (setUps log).getLast?.map Prod.snd

/-- The target of the channel's latest SETUP. -/
def latest (log : List Effect) (chn : MediaChannelId) : Option Target :=
  ((setUps log).filter fun x => x.1 = chn).getLast?.map Prod.snd

/-- `$`, the channel, the length of the rest and the rest. -/
def IsFrame (channel : Nat) (bytes : Bytes) : Prop :=
  ∃ payload : Bytes, payload.length < 2 ^ 16 ∧
    bytes = [36, UInt8.ofNat channel] ++ be16 (UInt16.ofNat payload.length) ++ payload

/-- After `pre`, an RTP packet goes where the latest SETUP of its channel said, and not onto the
TCP socket except in a frame. -/
def Follows (sockfd : Int) (pre : List Effect) : Effect → Prop
  | .framed chn bytes _ => ∃ k, latest pre chn = some (.interleaved k) ∧ IsFrame k bytes
  | .sentTo chn fd peer _ =>
      fd ≠ sockfd ∧ ∃ rtcpFd, latest pre chn = some (.datagrams fd rtcpFd peer)
  | _ => True

/-- What `Send` was given and took. -/
def messages (log : List Effect) : Bytes :=
  log.flatMap fun e => match e with
    | .responded bytes true | .framed _ bytes true => bytes
    | _ => []

/-- The channel of the packet that the oldest closure sends, if it sends one. -/
def leaving (c : RtspConnection) : Option MediaChannelId :=
  match c.closures, c.rtpConn with
  | (chn, pkt) :: _, some rtp => if (rtp.setFrameType pkt.type).sends chn then some chn else none
  | _, _ => none

/-- **The guard.** Whenever a packet leaves, the latest SETUP of the connection was of the same
kind as the latest of the packet's channel, and no SETUP without a free port has taken the
channel's socket away since. -/
def Matching (c : RtspConnection) : Input → Prop
  | .trigger _ _ => ∀ chn ∈ leaving c, ∀ t ∈ latest c.log chn,
      (∀ s ∈ lastSetUp c.log, s.isInterleaved = t.isInterleaved) ∧
      (t.isInterleaved = false → (slots c.log).rtp chn = .live)
  | _ => True

instance (c : RtspConnection) (i : Input) : Decidable (Matching c i) :=
  match i with
  | .trigger _ _ => inferInstanceAs (Decidable (∀ chn ∈ leaving c, ∀ t ∈ latest c.log chn, _))
  | .request _ _ | .destroy | .read _ | .close _ | .writable _ | .push _ _ _ =>
      inferInstanceAs (Decidable True)

/-! ## How the log grows -/

theorem setUps_append (l m : List Effect) : setUps (l ++ m) = setUps l ++ setUps m :=
  List.filterMap_append

theorem lastSetUp_append (l m : List Effect) :
    lastSetUp (l ++ m) = (lastSetUp m).or (lastSetUp l) := by
  rw [lastSetUp, setUps_append, List.getLast?_append]
  unfold lastSetUp
  cases (setUps m).getLast? <;> rfl

theorem latest_append (l m : List Effect) (chn : MediaChannelId) :
    latest (l ++ m) chn = (latest m chn).or (latest l chn) := by
  rw [latest, setUps_append, List.filter_append, List.getLast?_append]
  unfold latest
  cases ((setUps m).filter _).getLast? <;> rfl

@[simp] theorem messages_append (l m : List Effect) : messages (l ++ m) = messages l ++ messages m :=
  List.flatMap_append

/-- The effect says nothing about where packets go, and nothing goes out. -/
def Effect.mute : Effect → Bool
  | .setUp _ _ | .exhausted _ _ | .framed _ _ _ | .sentTo _ _ _ _ | .responded _ _ | .written _ =>
      false
  | _ => true

theorem setUps_mute {es : List Effect} (h : ∀ e ∈ es, e.mute = true) : setUps es = [] := by
  refine List.filterMap_eq_nil_iff.mpr (fun e he => ?_)
  have := h e he
  cases e <;> first | rfl | exact Bool.noConfusion this

theorem messages_mute {es : List Effect} (h : ∀ e ∈ es, e.mute = true) : messages es = [] := by
  refine List.flatMap_eq_nil_iff.mpr (fun e he => ?_)
  have := h e he
  cases e <;> first | rfl | exact Bool.noConfusion this

theorem writtenBytes_mute {es : List Effect} (h : ∀ e ∈ es, e.mute = true) :
    writtenBytes es = [] := by
  refine List.flatMap_eq_nil_iff.mpr (fun e he => ?_)
  have := h e he
  cases e <;> first | rfl | exact Bool.noConfusion this

/-- What `HandleWrite` and `Close` do says nothing about where packets go. -/
theorem setUps_plumbing {fd : Int} {es : List Effect} (h : ∀ e ∈ es, Plumbing fd e) :
    setUps es = [] ∧ messages es = [] := by
  refine ⟨List.filterMap_eq_nil_iff.mpr fun e he => ?_, List.flatMap_eq_nil_iff.mpr fun e he => ?_⟩
  all_goals cases h e he <;> rfl

/-! ## The invariant -/

/-- What the RTP connection keeps agrees with what was promised. -/
structure Wired (sockfd : Int) (log : List Effect) (rtp : RtpConnection) : Prop where
  mode : ∀ t, lastSetUp log = some t → (rtp.transportMode = .rtpOverTcp ↔ t.isInterleaved = true)
  interleaved : ∀ chn k, latest log chn = some (.interleaved k) →
    (rtp.mediaChannelInfo chn).rtpChannel = k
  datagrams : ∀ chn fd rtcpFd peer, latest log chn = some (.datagrams fd rtcpFd peer) →
    fd ≠ sockfd ∧ rtp.peerRtpAddr chn = peer ∧ ((slots log).rtp chn = .live → rtp.rtpfd chn = fd)
  setUp : ∀ chn, (rtp.mediaChannelInfo chn).isSetup = true → latest log chn ≠ none
  play : ∀ chn, (rtp.mediaChannelInfo chn).isPlay = true → latest log chn ≠ none
  record : ∀ chn, (rtp.mediaChannelInfo chn).isRecord = false

/-- The connection is there, and what it keeps and does agrees with its promises. -/
structure Routed (c : RtspConnection) : Prop where
  sock : c.destroyed = false → c.sockfd ∈ openFds c.log
  follows : ∀ pre e post, c.log = pre ++ e :: post → Follows c.sockfd pre e
  balance : writtenBytes c.log ++ c.writeBuffer.pendingBytes = messages c.log
  wired : ∀ rtp, c.rtpConn = some rtp → Wired c.sockfd c.log rtp
  unset : c.destroyed = false → c.rtpConn = none → setUps c.log = []

theorem latest_ne_none {log : List Effect} {chn : MediaChannelId} (h : latest log chn ≠ none) :
    lastSetUp log ≠ none := by
  intro hn
  have hnil : setUps log = [] := by simpa [lastSetUp] using hn
  exact h (by rw [latest, hnil]; rfl)

/-- Two lists side by side: an element is in the first, or in the second with the first before. -/
theorem split_append {α : Type} {l m pre post : List α} {e : α} (h : l ++ m = pre ++ e :: post) :
    (∃ post', l = pre ++ e :: post') ∨ ∃ pre', pre = l ++ pre' ∧ m = pre' ++ e :: post := by
  rcases List.append_eq_append_iff.mp h with ⟨a, ha, hm⟩ | ⟨b, hl, hb⟩
  · exact Or.inr ⟨a, ha, hm⟩
  · cases b with
    | nil => exact Or.inr ⟨[], by simpa using hl.symm, by simpa using hb.symm⟩
    | cons x b =>
      obtain ⟨rfl, -⟩ := List.cons.inj hb
      exact Or.inl ⟨b, hl⟩

/-- Effects that say nothing keep an agreement, as long as what it is about stays. -/
theorem Wired.of_same {sockfd : Int} {log log' : List Effect} {rtp rtp' : RtpConnection}
    (h : Wired sockfd log rtp) (hu : setUps log' = setUps log) (hs : slots log' = slots log)
    (hm : rtp'.transportMode = rtp.transportMode) (hf : rtp'.rtpfd = rtp.rtpfd)
    (hp : rtp'.peerRtpAddr = rtp.peerRtpAddr)
    (hi : ∀ chn, (rtp'.mediaChannelInfo chn).rtpChannel = (rtp.mediaChannelInfo chn).rtpChannel ∧
      (rtp'.mediaChannelInfo chn).isSetup = (rtp.mediaChannelInfo chn).isSetup ∧
      ((rtp'.mediaChannelInfo chn).isPlay = true → (rtp.mediaChannelInfo chn).isPlay = true ∨
        (rtp.mediaChannelInfo chn).isSetup = true) ∧
      (rtp'.mediaChannelInfo chn).isRecord = false) : Wired sockfd log' rtp' := by
  have hlast : lastSetUp log' = lastSetUp log := by rw [lastSetUp, hu, lastSetUp]
  have hlatest : ∀ chn, latest log' chn = latest log chn := by
    intro chn
    rw [latest, hu, latest]
  refine ⟨?_, ?_, ?_, ?_, ?_, fun chn => (hi chn).2.2.2⟩
  · intro t ht
    rw [hm]
    exact h.mode t (hlast ▸ ht)
  · intro chn k hk
    rw [(hi chn).1]
    exact h.interleaved chn k (hlatest chn ▸ hk)
  · intro chn fd rtcpFd peer hk
    rw [hs, hf, hp]
    exact h.datagrams chn fd rtcpFd peer (hlatest chn ▸ hk)
  · intro chn hset
    rw [hlatest]
    exact h.setUp chn ((hi chn).2.1 ▸ hset)
  · intro chn hplay
    rw [hlatest]
    rcases (hi chn).2.2.1 hplay with hp | hs
    · exact h.play chn hp
    · exact h.setUp chn hs

/-- **A SETUP is promised what it got.** -/
theorem Wired.promised {sockfd : Int} {log es : List Effect} {rtp rtp' : RtpConnection}
    {chn : MediaChannelId} {t : Target} (h : Wired sockfd log rtp) (hu : setUps es = [(chn, t)])
    (hs : ∀ d, d ≠ chn → (es.foldl Slots.after (slots log)).rtp d = (slots log).rtp d)
    (hm : rtp'.transportMode = .rtpOverTcp ↔ t.isInterleaved = true)
    (hother : ∀ d, d ≠ chn → rtp'.mediaChannelInfo d = rtp.mediaChannelInfo d ∧
      rtp'.rtpfd d = rtp.rtpfd d ∧ rtp'.peerRtpAddr d = rtp.peerRtpAddr d)
    (hrec : (rtp'.mediaChannelInfo chn).isRecord = (rtp.mediaChannelInfo chn).isRecord)
    (hch : ∀ k, t = .interleaved k → (rtp'.mediaChannelInfo chn).rtpChannel = k)
    (hdg : ∀ fd rtcpFd peer, t = .datagrams fd rtcpFd peer →
      fd ≠ sockfd ∧ rtp'.peerRtpAddr chn = peer ∧ rtp'.rtpfd chn = fd) :
    Wired sockfd (log ++ es) rtp' := by
  have hlast : lastSetUp (log ++ es) = some t := by
    rw [lastSetUp_append, lastSetUp, hu]
    rfl
  have hself : latest (log ++ es) chn = some t := by
    rw [latest_append, latest, hu]
    simp
  have helse : ∀ d, d ≠ chn → latest (log ++ es) d = latest log d := by
    intro d hd
    rw [latest_append, latest, hu, List.filter_cons_of_neg (by simpa using Ne.symm hd)]
    rfl
  refine ⟨?_, ?_, ?_, ?_, ?_, ?_⟩
  · intro s hs
    rw [hlast, Option.some.injEq] at hs
    exact hs ▸ hm
  · intro d k hk
    by_cases hd : d = chn
    · subst hd
      rw [hself, Option.some.injEq] at hk
      exact hch k hk
    · rw [(hother d hd).1]
      exact h.interleaved d k (helse d hd ▸ hk)
  · intro d fd rtcpFd peer hk
    by_cases hd : d = chn
    · subst hd
      rw [hself, Option.some.injEq] at hk
      obtain ⟨h1, h2, h3⟩ := hdg fd rtcpFd peer hk
      exact ⟨h1, h2, fun _ => h3⟩
    · rw [(hother d hd).2.1, (hother d hd).2.2, slots_append, hs d hd]
      exact h.datagrams d fd rtcpFd peer (helse d hd ▸ hk)
  · intro d hset
    by_cases hd : d = chn
    · simp [hd, hself]
    · rw [helse d hd]
      exact h.setUp d ((hother d hd).1 ▸ hset)
  · intro d hplay
    by_cases hd : d = chn
    · simp [hd, hself]
    · rw [helse d hd]
      exact h.play d ((hother d hd).1 ▸ hplay)
  · intro d
    by_cases hd : d = chn
    · rw [hd, hrec]
      exact h.record chn
    · rw [(hother d hd).1]
      exact h.record d

/-- A SETUP without a free port leaves the channel's promise without its socket. -/
theorem Wired.unplugged {sockfd : Int} {log es : List Effect} {rtp rtp' : RtpConnection}
    (chn : MediaChannelId) (h : Wired sockfd log rtp) (hu : setUps es = [])
    (hs : ∀ d, d ≠ chn → (es.foldl Slots.after (slots log)).rtp d = (slots log).rtp d)
    (hstale : (es.foldl Slots.after (slots log)).rtp chn = .stale)
    (hm : rtp'.transportMode = rtp.transportMode)
    (hp : rtp'.peerRtpAddr = rtp.peerRtpAddr)
    (hf : ∀ d, d ≠ chn → rtp'.rtpfd d = rtp.rtpfd d)
    (hi : ∀ d, (rtp'.mediaChannelInfo d).rtpChannel = (rtp.mediaChannelInfo d).rtpChannel ∧
      (rtp'.mediaChannelInfo d).isSetup = (rtp.mediaChannelInfo d).isSetup ∧
      (rtp'.mediaChannelInfo d).isPlay = (rtp.mediaChannelInfo d).isPlay ∧
      (rtp'.mediaChannelInfo d).isRecord = (rtp.mediaChannelInfo d).isRecord) :
    Wired sockfd (log ++ es) rtp' := by
  have hlatest : ∀ d, latest (log ++ es) d = latest log d := by
    intro d
    rw [latest_append, latest, hu]
    rfl
  refine ⟨?_, ?_, ?_, ?_, ?_, ?_⟩
  · intro t ht
    rw [lastSetUp_append, lastSetUp, hu] at ht
    rw [hm]
    exact h.mode t ht
  · intro d k hk
    rw [(hi d).1]
    exact h.interleaved d k (hlatest d ▸ hk)
  · intro d fd rtcpFd peer hk
    obtain ⟨h1, h2, h3⟩ := h.datagrams d fd rtcpFd peer (hlatest d ▸ hk)
    refine ⟨h1, hp ▸ h2, fun hl => ?_⟩
    rw [slots_append] at hl
    by_cases hd : d = chn
    · rw [hd, hstale] at hl
      simp at hl
    · rw [hs d hd] at hl
      rw [hf d hd]
      exact h3 hl
  · intro d hset
    rw [hlatest]
    exact h.setUp d ((hi d).2.1 ▸ hset)
  · intro d hplay
    rw [hlatest]
    exact h.play d ((hi d).2.2.1 ▸ hplay)
  · intro d
    rw [(hi d).2.2.2]
    exact h.record d

/-- **What a call has to show**: its packets follow the promises, its bytes are accounted for, and
what is kept still agrees. -/
theorem Routed.advance {c c' : RtspConnection} {es : List Effect} (h : Routed c)
    (hd : c'.destroyed = c.destroyed) (hs : c'.sockfd = c.sockfd) (hl : c'.log = c.log ++ es)
    (hsock : c.sockfd ∈ openFds c.log → c.sockfd ∈ held (openFds c.log) (fdUses es))
    (hfol : ∀ pre e post, es = pre ++ e :: post → Follows c.sockfd (c.log ++ pre) e)
    (hbal : writtenBytes es ++ c'.writeBuffer.pendingBytes =
      c.writeBuffer.pendingBytes ++ messages es)
    (hw : ∀ rtp, c'.rtpConn = some rtp → Wired c.sockfd (c.log ++ es) rtp)
    (hu : c'.rtpConn = none → c.rtpConn = none ∧ setUps es = []) : Routed c' := by
  refine ⟨?_, ?_, ?_, ?_, ?_⟩
  · intro hd'
    rw [hs, hl, openFds_append]
    exact hsock (h.sock (hd ▸ hd'))
  · intro pre e post he
    rw [hl] at he
    rw [hs]
    rcases split_append he with ⟨post', hpre⟩ | ⟨pre', rfl, hes⟩
    · exact h.follows pre e post' hpre
    · exact hfol pre' e post hes
  · rw [hl, writtenBytes_append, messages_append, List.append_assoc, hbal, ← List.append_assoc,
      h.balance]
  · rw [hs, hl]
    exact hw
  · intro hd' hn
    obtain ⟨hn', hes⟩ := hu hn
    rw [hl, setUps_append, hes, h.unset (hd ▸ hd') hn']
    rfl

/-- Effects that say nothing about where packets go, and nothing of descriptors. -/
theorem follows_mute {sockfd : Int} {log es : List Effect}
    (hes : ∀ e ∈ es, ∀ chn, (∀ bytes q, e ≠ .framed chn bytes q) ∧
      ∀ fd peer bytes, e ≠ .sentTo chn fd peer bytes) :
    ∀ pre e post, es = pre ++ e :: post → Follows sockfd (log ++ pre) e := by
  intro pre e post he
  have hmem := hes e (by rw [he]; simp)
  cases e with
  | framed chn bytes q => exact absurd rfl ((hmem chn).1 bytes q)
  | sentTo chn fd peer bytes => exact absurd rfl ((hmem chn).2 fd peer bytes)
  | _ => trivial

/-- One effect that does. -/
theorem follows_single {sockfd : Int} {log : List Effect} {e : Effect} (h : Follows sockfd log e) :
    ∀ pre x post, [e] = pre ++ x :: post → Follows sockfd (log ++ pre) x := by
  intro pre x post he
  cases pre with
  | nil =>
    obtain ⟨rfl, -⟩ := List.cons.inj he
    rwa [List.append_nil]
  | cons y pre => simp at he

theorem Routed.quiet {c c' : RtspConnection} {es : List Effect} (h : Routed c)
    (hq : RtspConnection.Quiet c es c') : Routed c' := by
  have hf := hq.frame
  have hidle : ∀ e ∈ es, e.idle = true := fun e he => idle_of_plumbing (hq.plumbing e he)
  obtain ⟨hset, hmsg⟩ := setUps_plumbing hq.plumbing
  refine h.advance hf.destroyed hf.sockfd hq.log ?_ (follows_mute fun e he chn => ?_) ?_ ?_ ?_
  · rw [fdUses_idle hidle]
    exact id
  · cases hq.plumbing e he <;> simp
  · rw [hmsg, List.append_nil]
    exact hq.balance
  · intro rtp hr
    have hw := h.wired rtp (hf.rtpConn ▸ hr)
    refine hw.of_same ?_ ?_ rfl rfl rfl
      (fun chn => ⟨rfl, rfl, Or.inl, hw.record chn⟩)
    · rw [setUps_append, hset, List.append_nil]
    · rw [slots_append, slots_idle hidle]
  · intro hn
    exact ⟨hf.rtpConn ▸ hn, hset⟩

/-- What `Send` queues, and what `HandleWrite` then does. -/
theorem Routed.queue {c : RtspConnection} {bytes : Bytes} {note : Bool → Effect} (h : Routed c)
    (hn : ∀ b, note b = .responded bytes b ∨ ∃ chn k, note b = .framed chn bytes b ∧
      latest c.log chn = some (.interleaved k) ∧ IsFrame k bytes) : Routed (c.queue bytes note) := by
  have hlog : (c.queue bytes note).log = c.log ++ [note (c.takes bytes)] := rfl
  have hmsg : messages [note (c.takes bytes)] = if c.takes bytes then bytes else [] := by
    rcases hn (c.takes bytes) with he | ⟨chn, k, he, -⟩ <;>
      rw [he] <;> cases c.takes bytes <;> simp [messages]
  have hset : setUps [note (c.takes bytes)] = [] := by
    rcases hn (c.takes bytes) with he | ⟨chn, k, he, -⟩ <;> rw [he] <;> rfl
  have hidle : ∀ e ∈ [note (c.takes bytes)], e.idle = true := by
    intro e he
    rw [List.mem_singleton.mp he]
    rcases hn (c.takes bytes) with he | ⟨chn, k, he, -⟩ <;> rw [he] <;> rfl
  refine h.advance rfl rfl hlog ?_ ?_ ?_ ?_ ?_
  · rw [fdUses_idle hidle]
    exact id
  · refine follows_single ?_
    rcases hn (c.takes bytes) with he | ⟨chn, k, he, hk, hfr⟩ <;> rw [he]
    · trivial
    · exact ⟨k, hk, hfr⟩
  · rw [RtspConnection.pendingBytes_queue, hmsg, writtenBytes_eq_nil, List.nil_append]
    intro e he bs
    rw [List.mem_singleton.mp he]
    rcases hn (c.takes bytes) with he | ⟨chn, k, he, -⟩ <;> rw [he] <;> simp
  · intro rtp hr
    have hw := h.wired rtp hr
    refine hw.of_same ?_ ?_ rfl rfl rfl
      (fun chn => ⟨rfl, rfl, Or.inl, hw.record chn⟩)
    · rw [setUps_append, hset, List.append_nil]
    · rw [slots_append, slots_idle hidle]
  · intro hn
    exact ⟨hn, hset⟩

theorem Routed.sent {c c' : RtspConnection} {env : Env} {req : RtspRequest} {signed : Bool}
    (h : Routed c) (hs : RtspConnection.Sent c env req signed c') : Routed c' := by
  obtain @⟨res, es, _, -, -, hq⟩ := hs
  exact (h.queue fun b => Or.inl rfl).quiet hq

/-! ## One call -/

/-- Effects that say nothing, beside a change that keeps the agreement. -/
theorem Routed.mute {c c' : RtspConnection} {es : List Effect} (h : Routed c)
    (hd : c'.destroyed = c.destroyed) (hs : c'.sockfd = c.sockfd) (hl : c'.log = c.log ++ es)
    (hb : c'.writeBuffer = c.writeBuffer) (hes : ∀ e ∈ es, e.mute = true ∧ e.idle = true)
    (hw : ∀ rtp, c'.rtpConn = some rtp → Wired c.sockfd c.log rtp)
    (hn : c'.rtpConn = none → c.rtpConn = none) : Routed c' := by
  have hmute : ∀ e ∈ es, e.mute = true := fun e he => (hes e he).1
  have hidle : ∀ e ∈ es, e.idle = true := fun e he => (hes e he).2
  refine h.advance hd hs hl ?_ (follows_mute fun e he chn => ?_) ?_ (fun rtp hr => ?_)
    (fun hn' => ⟨hn hn', setUps_mute hmute⟩)
  · rw [fdUses_idle hidle]
    exact id
  · have := hmute e he
    cases e <;> first | exact Bool.noConfusion this | simp
  · rw [hb, writtenBytes_mute hmute, messages_mute hmute, List.append_nil, List.nil_append]
  · refine (hw rtp hr).of_same ?_ ?_ rfl rfl rfl
      (fun chn => ⟨rfl, rfl, Or.inl, (hw rtp hr).record chn⟩)
    · rw [setUps_append, setUps_mute hmute, List.append_nil]
    · rw [slots_append, slots_idle hidle]

theorem Wired.unset {sockfd : Int} {log : List Effect} (h : setUps log = []) (seed : RtpSeed) :
    Wired sockfd log (RtpConnection.new seed) := by
  have hlatest : ∀ chn, latest log chn = none := by
    intro chn
    rw [latest, h]
    rfl
  refine ⟨?_, ?_, ?_, ?_, ?_, fun _ => rfl⟩
  · intro t ht
    rw [lastSetUp, h] at ht
    simp at ht
  · intro chn k hk
    rw [hlatest] at hk
    simp at hk
  · intro chn fd rtcpFd peer hk
    rw [hlatest] at hk
    simp at hk
  · intro chn hset
    exact Bool.noConfusion hset
  · intro chn hplay
    exact Bool.noConfusion hplay

/-- DESCRIBE finds an RTP connection that agrees, or makes one. -/
theorem Routed.getD {c : RtspConnection} (h : Routed c) (hd : c.destroyed = false)
    (seed : RtpSeed) : Wired c.sockfd c.log (c.rtpConn.getD (RtpConnection.new seed)) := by
  cases hr : c.rtpConn with
  | none => exact Wired.unset (h.unset hd hr) seed
  | some rtp => exact h.wired rtp hr

theorem describeSources_wired {sockfd : Int} {log : List Effect} {rtp : RtpConnection}
    (session : MediaSession) (h : Wired sockfd log rtp) :
    Wired sockfd log (RtspConnection.describeSources rtp session) := by
  unfold RtspConnection.describeSources
  generalize channels = l
  induction l generalizing rtp with
  | nil => exact h
  | cons chn l ih =>
    rw [List.foldl_cons]
    refine ih ?_
    split
    · refine h.of_same rfl rfl rfl rfl rfl (fun d => ?_)
      by_cases hd : d = chn
      · subst hd
        simpa [RtpConnection.setPayloadType, RtpConnection.setClockRate, RtpConnection.updateInfo]
          using ⟨Or.inl, h.record d⟩
      · simpa [RtpConnection.setPayloadType, RtpConnection.setClockRate, RtpConnection.updateInfo,
          hd] using ⟨Or.inl, h.record d⟩
    · exact h

theorem play_wired {sockfd : Int} {log : List Effect} {rtp : RtpConnection}
    (h : Wired sockfd log rtp) : Wired sockfd log rtp.play := by
  refine h.of_same rfl rfl rfl rfl rfl (fun chn => ?_)
  unfold RtpConnection.play
  dsimp only
  cases hset : (rtp.mediaChannelInfo chn).isSetup with
  | true => simpa using h.record chn
  | false => simpa using ⟨hset, h.record chn⟩

theorem teardown_wired {sockfd : Int} {log : List Effect} {rtp : RtpConnection}
    (h : Wired sockfd log rtp) : Wired sockfd log rtp.teardown := by
  unfold RtpConnection.teardown
  split
  · exact h
  · exact h.of_same rfl rfl rfl rfl rfl fun chn => ⟨rfl, rfl, by simp, rfl⟩

/-- A new socket is not the connection's own. -/
theorem ne_sockfd {c : RtspConnection} {ops : List FdOp} {new : List Int} (h : Routed c)
    (hd : c.destroyed = false) (hk : kernelOk c.log = true)
    (hf : fresh (openFds c.log) (ops.flatMap FdOp.uses) = true)
    (hheld : held (openFds c.log) (ops.flatMap FdOp.uses) = new ++ openFds c.log) :
    ∀ fd ∈ new, fd ≠ c.sockfd := by
  intro fd hfd he
  have hnodup : (new ++ openFds c.log).Nodup := by
    rw [← hheld]
    exact held_nodup (held_nodup List.nodup_nil hk) hf
  exact (List.disjoint_of_nodup_append hnodup) hfd (he ▸ h.sock hd)

/-- **A SETUP**, answered with 200 or not: what it does to the RTP connection agrees with what it
adds to the log. -/
theorem Routed.setup {c : RtspConnection} {rtp' : RtpConnection}
    {rtcp : MediaChannelId → Option Int} {ops : List FdOp} {es : List Effect} {new : List Int}
    (h : Routed c) (hheld : held (openFds c.log) (ops.flatMap FdOp.uses) = new ++ openFds c.log)
    (hes : fdUses es = [] ∧ writtenBytes es = [] ∧ messages es = [])
    (hfol : ∀ e ∈ es, ∀ chn, (∀ bytes q, e ≠ .framed chn bytes q) ∧
      ∀ fd peer bytes, e ≠ .sentTo chn fd peer bytes)
    (hw : ∀ log, setUps log = setUps c.log → slots log = slots c.log →
      Wired c.sockfd (log ++ es) rtp') :
    Routed ({ c with rtpConn := some rtp', rtcpChannels := rtcp }.emit
      (ops.map Effect.fd ++ es)) := by
  have hops : ∀ e ∈ ops.map Effect.fd, ∃ op, e = .fd op := by
    intro e he
    obtain ⟨op, -, rfl⟩ := List.mem_map.mp he
    exact ⟨op, rfl⟩
  have hmute : ∀ e ∈ ops.map Effect.fd, e.mute = true := by
    intro e he
    obtain ⟨op, rfl⟩ := hops e he
    rfl
  have hslots : slots (c.log ++ ops.map Effect.fd) = slots c.log := by
    rw [slots_append]
    generalize slots c.log = s
    clear hheld hops hmute
    induction ops with
    | nil => rfl
    | cons op ops ih => exact ih
  refine h.advance rfl rfl rfl ?_ ?_ ?_ (fun rtp hr => ?_)
    (fun hn => by simp [RtspConnection.emit] at hn)
  · rw [fdUses_append, hes.1, fdUses_map_fd, List.append_nil, hheld]
    exact fun hmem => List.mem_append_right _ hmem
  · refine follows_mute (fun e he chn => ?_)
    rcases List.mem_append.mp he with he | he
    · obtain ⟨op, rfl⟩ := hops e he
      simp
    · exact hfol e he chn
  · rw [writtenBytes_append, messages_append, writtenBytes_mute hmute, messages_mute hmute, hes.2.1,
      hes.2.2, List.append_nil]
    simp [RtspConnection.emit]
  · simp only [RtspConnection.emit, Option.some.injEq] at hr
    subst hr
    rw [← List.append_assoc]
    exact hw _ (by rw [setUps_append, setUps_mute hmute, List.append_nil]) hslots

/-- What the two kinds of SETUP with sockets do to the RTP connection, descriptors apart. -/
theorem udp_wiring {c c' : RtpConnection} {addr : Bytes} {attempts : Attempts}
    {chn : MediaChannelId} {rtpPort rtcpPort : Nat} {ok : Bool} {ops : List FdOp}
    (h : c.setupRtpOverUdp (some addr) attempts chn rtpPort rtcpPort = (ok, c', ops)) :
    c'.transportMode = (if ok then .rtpOverUdp else c.transportMode) ∧
    c'.peerRtpAddr = (if ok then Function.update c.peerRtpAddr chn ⟨addr, rtpPort⟩
      else c.peerRtpAddr) ∧
    c'.mediaChannelInfo = Function.update c.mediaChannelInfo chn
      { c.mediaChannelInfo chn with
        rtpPort := rtpPort
        rtcpPort := rtcpPort
        isSetup := ok || (c.mediaChannelInfo chn).isSetup } := by
  rw [RtpConnection.setupRtpOverUdp_eq] at h
  have hsame := RtpConnection.bindPair_same chn attempts.1
    (c.updateInfo chn fun i => { i with rtpPort := rtpPort, rtcpPort := rtcpPort })
  generalize RtpConnection.bindPair chn attempts.1
    (c.updateInfo chn fun i => { i with rtpPort := rtpPort, rtcpPort := rtcpPort }) = b at h hsame
  obtain ⟨ok', c₂, ops'⟩ := b
  simp only [Prod.mk.injEq] at h
  obtain ⟨rfl, rfl, rfl⟩ := h
  have hinfo : c₂.mediaChannelInfo = Function.update c.mediaChannelInfo chn
      { c.mediaChannelInfo chn with rtpPort := rtpPort, rtcpPort := rtcpPort } :=
    hsame.mediaChannelInfo
  have haddr : c₂.peerRtpAddr = c.peerRtpAddr := hsame.peerRtpAddr
  cases ok' with
  | true =>
    refine ⟨rfl, ?_, ?_⟩
    · simp only [if_true, haddr]
    · simp [RtpConnection.updateInfo, hinfo]
  | false => exact ⟨hsame.transportMode, hsame.peerRtpAddr, hinfo⟩

theorem multicast_wiring {c c' : RtpConnection} {attempts : Attempts} {chn : MediaChannelId}
    {ip : Bytes} {port : Nat} {ok : Bool} {ops : List FdOp}
    (h : c.setupRtpOverMulticast attempts chn ip port = (ok, c', ops)) :
    c'.transportMode = (if ok then .rtpOverMulticast else c.transportMode) ∧
    c'.peerRtpAddr = (if ok then Function.update c.peerRtpAddr chn ⟨ip, port⟩
      else c.peerRtpAddr) ∧
    c'.mediaChannelInfo = if ok then Function.update c.mediaChannelInfo chn
      { c.mediaChannelInfo chn with rtpPort := port, isSetup := true } else c.mediaChannelInfo := by
  rw [RtpConnection.setupRtpOverMulticast_eq] at h
  have hsame := (RtpConnection.bindOne_same chn attempts.1 c).1
  generalize RtpConnection.bindOne chn attempts.1 c = b at h hsame
  obtain ⟨ok', c₂, ops'⟩ := b
  simp only [Prod.mk.injEq] at h
  obtain ⟨rfl, rfl, rfl⟩ := h
  dsimp only at hsame
  cases ok' with
  | true =>
    refine ⟨rfl, ?_, ?_⟩
    · simp only [if_true, hsame.peerRtpAddr]
    · simp [RtpConnection.updateInfo, hsame.mediaChannelInfo]
  | false => exact ⟨hsame.transportMode, hsame.peerRtpAddr, hsame.mediaChannelInfo⟩

/-- **A handler.** -/
theorem Routed.body {c c' : RtspConnection} {env : Env} {req : RtspRequest} (h : Routed c)
    (hd : c.destroyed = false) (hk : kernelOk c'.log = true)
    (hb : RtspConnection.Body c env req c') : Routed c' := by
  have hagain : ∀ {rtp : RtpConnection}, c.rtpConn = some rtp → ∀ {log : List Effect},
      setUps log = setUps c.log → slots log = slots c.log → Wired c.sockfd log rtp := by
    intro rtp hr log hu hs
    exact (h.wired rtp hr).of_same hu hs rfl rfl rfl
      fun chn => ⟨rfl, rfl, Or.inl, (h.wired rtp hr).record chn⟩
  cases hb with
  | ignored _ => exact h
  | options _ hs | unsupported _ _ _ hs | noSession _ _ hs | parameter _ _ hs => exact h.sent hs
  | notFound _ _ hs =>
    refine Routed.sent ?_ hs
    refine h.mute rfl rfl (List.append_nil _).symm rfl (by simp) (fun rtp hr => ?_) (by simp)
    exact Option.some.inj hr ▸ h.getD hd env.seed
  | @described _ session es _ _ hes hs =>
    refine Routed.sent ?_ hs
    refine h.mute rfl rfl rfl rfl ?_ (fun rtp hr => ?_) (by simp [RtspConnection.emit])
    · rcases hes with ⟨rfl, -⟩ | ⟨rfl, -⟩ <;> simp [Effect.mute, Effect.idle]
    · exact Option.some.inj hr ▸ describeSources_wired session (h.getD hd env.seed)
  | @played _ rtp _ hr hs =>
    refine Routed.sent ?_ hs
    refine h.mute rfl rfl rfl rfl (by simp [Effect.mute, Effect.idle]) (fun rtp' hr' => ?_)
      (by simp [RtspConnection.emit])
    exact Option.some.inj hr' ▸ play_wired (h.wired rtp hr)
  | @tornDown _ rtp _ hr hs =>
    refine Routed.sent ?_ hs
    refine h.mute rfl rfl (List.append_nil _).symm rfl (by simp) (fun rtp' hr' => ?_) (by simp)
    exact Option.some.inj hr' ▸ teardown_wired (h.wired rtp hr)
  | @tcp _ session rtp hm hl ht hr hs =>
    rw [← List.nil_append [Effect.setUp _ _], ← List.map_nil] at hs
    refine Routed.sent ?_ hs
    have hheld : held (openFds c.log) (([] : List FdOp).flatMap FdOp.uses) =
        [] ++ openFds c.log := rfl
    refine h.setup hheld ⟨rfl, rfl, rfl⟩ (by simp) (fun log hu hsl => ?_)
    refine (hagain hr hu hsl).promised rfl (fun d hd => ?_) ?_ (fun d hd => ?_) ?_ ?_ ?_
    · simp [Slots.after, hd]
    · simp [RtpConnection.setupRtpOverTcp, Target.isInterleaved]
    · simp [RtpConnection.setupRtpOverTcp, RtpConnection.updateInfo, hd]
    · simp [RtpConnection.setupRtpOverTcp, RtpConnection.updateInfo]
    · intro k hk
      obtain rfl := Target.interleaved.inj hk
      simp [RtpConnection.setupRtpOverTcp, RtpConnection.updateInfo]
    · intro fd rtcpFd peer hk
      simp at hk
  | @multicast _ session rtp rtp' ok ops hm hl ht hr hset hs =>
    obtain ⟨-, hheld, -, -, hfd⟩ := multicast_fds (openFds c.log) hset
    obtain ⟨hmode, hpeer, hinfo⟩ := multicast_wiring hset
    obtain ⟨hkl, hkf⟩ := kernelOk_sent hs rfl hk
    have hne := ne_sockfd h hd hkl hkf hheld
    refine Routed.sent ?_ hs
    cases ok with
    | true =>
      simp only [if_true] at hmode hpeer hinfo
      refine h.setup hheld ⟨rfl, rfl, rfl⟩ (by simp) (fun log hu hsl => ?_)
      refine (hagain hr hu hsl).promised rfl (fun d hd => ?_) ?_ (fun d hd => ?_) ?_ (by simp) ?_
      · simp [Slots.after, hd]
      · simp [hmode, Target.isInterleaved]
      · simp [hinfo, hpeer, hd, hfd d hd]
      · simp [hinfo]
      · intro fd rtcpFd peer hk
        simp only [Target.datagrams.injEq] at hk
        obtain ⟨rfl, -, rfl⟩ := hk
        exact ⟨hne _ (by simp), by simp [hpeer], rfl⟩
    | false =>
      simp only [Bool.false_eq_true, if_false] at hmode hpeer hinfo
      refine h.setup hheld ⟨rfl, rfl, rfl⟩ (by simp) (fun log hu hsl => ?_)
      refine (hagain hr hu hsl).unplugged req.channelId rfl (fun d hd => ?_) ?_ hmode hpeer hfd
        (fun d => ?_)
      · simp [Slots.after, hd]
      · simp [Slots.after]
      · simp [hinfo]
  | @udp _ session rtp rtp' ops hm hl ht hr hset hs =>
    cases hp : env.peerAddr with
    | none =>
      rw [hp, RtpConnection.setupRtpOverUdp] at hset
      simp at hset
    | some addr =>
      rw [hp] at hset hs
      obtain ⟨hkl, hkf⟩ := kernelOk_sent hs rfl hk
      obtain ⟨-, hheld, -, -, hfd⟩ := udp_fds hset hkf
      obtain ⟨hmode, hpeer, hinfo⟩ := udp_wiring hset
      have hne := ne_sockfd h hd hkl hkf hheld
      simp only [if_true, Bool.true_or] at hmode hpeer hinfo
      refine Routed.sent ?_ hs
      refine h.setup hheld ⟨rfl, rfl, rfl⟩ (by simp) (fun log hu hsl => ?_)
      refine (hagain hr hu hsl).promised rfl (fun d hd => ?_) ?_ (fun d hd => ?_) ?_ (by simp) ?_
      · simp [Slots.after, hd]
      · simp [hmode, Target.isInterleaved]
      · simp [hinfo, hpeer, hd, (hfd d hd).1]
      · simp [hinfo]
      · intro fd rtcpFd peer hk
        simp only [Target.datagrams.injEq] at hk
        obtain ⟨rfl, -, rfl⟩ := hk
        exact ⟨hne _ (by simp), by simp [hpeer], rfl⟩
  | @udpFailed _ session rtp rtp' ops hm hl ht hr hset hs =>
    cases hp : env.peerAddr with
    | none =>
      rw [hp, RtpConnection.setupRtpOverUdp] at hset
      simp only [Prod.mk.injEq] at hset
      obtain ⟨-, rfl, rfl⟩ := hset
      rw [hp] at hs
      refine Routed.sent ?_ hs
      refine h.mute rfl rfl rfl rfl (by simp) (fun rtp' hr' => ?_) (by simp [RtspConnection.emit])
      exact Option.some.inj hr' ▸ h.wired rtp hr
    | some addr =>
      rw [hp] at hset hs
      obtain ⟨hkl, hkf⟩ := kernelOk_sent hs rfl hk
      obtain ⟨-, hheld, -, -, hfd⟩ := udp_fds hset hkf
      obtain ⟨hmode, hpeer, hinfo⟩ := udp_wiring hset
      simp only [Bool.false_eq_true, if_false, Bool.false_or] at hmode hpeer hinfo
      refine Routed.sent ?_ hs
      refine h.setup hheld ⟨rfl, rfl, rfl⟩ (by simp) (fun log hu hsl => ?_)
      refine (hagain hr hu hsl).unplugged req.channelId rfl (fun d hd => ?_) ?_ hmode hpeer
        (fun d hd => (hfd d hd).1) (fun d => ?_)
      · simp [Slots.after, hd]
      · simp [Slots.after]
      · by_cases hd : d = req.channelId
        · subst hd
          simp [hinfo]
        · simp [hinfo, hd]

/-- A packet in its frame. -/
theorem isFrame_interleaved (channel : Nat) (h : RtpHeader) (pkt : RtpPacket) (data : PacketData) :
    IsFrame channel (RtpConnection.interleavedHeader channel pkt.size ++
      RtpConnection.rtpBytes h pkt data) := by
  have hge := pkt.size_ge
  have hle := pkt.size_le
  have hlen : (RtpConnection.rtpBytes h pkt data).length = pkt.size - 4 := by
    rw [RtpConnection.rtpBytes, List.length_append, h.length_toBytes, List.length_drop,
      List.length_take, data.length_eq]
    simp only [rtpHeaderSize, rtpTcpHeadSize, packetCapacity] at hge hle ⊢
    omega
  simp only [packetCapacity] at hle
  refine ⟨RtpConnection.rtpBytes h pkt data, by omega, ?_⟩
  have hmod : (UInt16.ofNat (pkt.size - 4)).toNat = pkt.size - 4 := by
    rw [UInt16.toNat_ofNat']
    omega
  simp [RtpConnection.interleavedHeader, be16, hlen, hmod]

/-- One call. -/
theorem Routed.serve {c c' : RtspConnection} {i : Input} (h : Routed c) (hg : Matching c i)
    (hs : c.serve i = some c') (hk : kernelOk c'.log = true) : Routed c' := by
  unfold RtspConnection.serve at hs
  split at hs
  · simp at hs
  · rename_i hd
    have hd : c.destroyed = false := by simpa using hd
    cases i with
    | read reader =>
      dsimp only at hs
      split at hs
      · simp at hs
      · rw [← Option.some.inj hs]
        exact h.mute rfl rfl (List.append_nil _).symm rfl (by simp) (fun rtp hr => h.wired rtp hr)
          (fun hn => hn)
    | request req env =>
      dsimp only at hs
      split at hs
      · simp at hs
      · rcases RtspConnection.handleCommand_cases hs with ⟨auth, -, -, -, -, hsent⟩ | ⟨d, he, hb⟩
        · refine Routed.sent ?_ hsent
          exact h.mute rfl rfl rfl rfl (by simp [Effect.mute, Effect.idle])
            (fun rtp hr => h.wired rtp hr) (fun hn => hn)
        · obtain ⟨nonce, hasAuth, es, rfl, hes⟩ := he.eq
          refine Routed.body ?_ ?_ hk hb
          swap
          · exact hd
          refine h.mute rfl rfl rfl rfl (fun e hmem => ?_) (fun rtp hr => h.wired rtp hr)
            (fun hn => hn)
          rcases List.mem_cons.mp hmem with rfl | hmem
          · exact ⟨rfl, rfl⟩
          · obtain ⟨n, rfl⟩ := hes e hmem
            exact ⟨rfl, rfl⟩
    | close env =>
      obtain ⟨es, hq⟩ := c.close_quiet env
      exact Option.some.inj hs ▸ h.quiet hq
    | writable env =>
      obtain ⟨es, hq⟩ := c.handleWrite_quiet env
      exact Option.some.inj hs ▸ h.quiet hq
    | push chn pkt taken =>
      obtain ⟨rtp, -, hc | ⟨hc, -⟩⟩ := RtspConnection.sendRtpPacket_cases hs
      · exact hc ▸ h
      · rw [hc]
        exact h.mute rfl rfl (List.append_nil _).symm rfl (by simp) (fun rtp hr => h.wired rtp hr)
          (fun hn => hn)
    | trigger data env =>
      obtain ⟨chn, pkt, rest, rtp, rtp', out, hcl, hr, hsend, hcase⟩ :=
        RtspConnection.runClosure_cases hs
      have hw := h.wired rtp hr
      have hsame := rtp.sendPacket_same chn pkt data
      rw [hsend] at hsame
      obtain ⟨hf, -, hm, hp, -, hi⟩ := hsame
      have hw' : Wired c.sockfd c.log rtp' := hw.of_same rfl rfl hm hf hp fun d =>
        ⟨(hi d).1, (hi d).2.1, fun hplay => Or.inl ((hi d).2.2.1 ▸ hplay),
          (hi d).2.2.2.trans (hw.record d)⟩
      -- The connection with the closure run, before anything is handed on.
      have hran : ∀ {r : RtpConnection}, Wired c.sockfd c.log r →
          Routed { c with closures := rest, rtpConn := some r } := by
        intro r hr'
        refine h.mute rfl rfl (List.append_nil _).symm rfl (by simp) (fun x hx => ?_) (by simp)
        exact Option.some.inj hx ▸ hr'
      -- Where the packet should go, if it goes at all.
      have hgoes : (rtp.setFrameType pkt.type).sends chn = true →
          ∃ t, latest c.log chn = some t ∧ (rtp.transportMode = .rtpOverTcp ↔
            t.isInterleaved = true) ∧ (t.isInterleaved = false → (slots c.log).rtp chn = .live) := by
        intro hsends
        have hplay : (rtp.mediaChannelInfo chn).isPlay = true := by
          have hrec := hw.record chn
          simp only [RtpConnection.sends, RtpConnection.setFrameType, hrec, Bool.or_false,
            Bool.and_eq_true] at hsends
          exact hsends.1
        have hne := hw.play chn hplay
        obtain ⟨t, ht⟩ := Option.ne_none_iff_exists'.mp hne
        obtain ⟨s, hlast⟩ := Option.ne_none_iff_exists'.mp (latest_ne_none hne)
        have hleave : leaving c = some chn := by
          simp [leaving, hcl, hr, hsends]
        obtain ⟨hkind, hlive⟩ := hg chn hleave t ht
        refine ⟨t, ht, ?_, hlive⟩
        rw [← hkind s hlast]
        exact hw.mode s hlast
      rcases rtp.sendPacket_cases chn pkt data with ⟨-, he⟩ | ⟨hsends, data', -, ⟨hm', he⟩ | ⟨hm', he⟩⟩
      · rw [hsend, Prod.mk.injEq] at he
        obtain ⟨rfl, rfl⟩ := he
        rcases hcase with ⟨-, hc⟩ | ⟨bytes, es, hout, -⟩ | ⟨fd, peer, bytes, hout, -⟩
        · exact hc ▸ hran hw'
        · simp at hout
        · simp at hout
      · rw [hsend, Prod.mk.injEq] at he
        obtain ⟨rfl, rfl⟩ := he
        rcases hcase with ⟨hout, -⟩ | ⟨bytes, es, hout, hq⟩ | ⟨fd, peer, bytes, hout, -⟩
        · simp at hout
        · simp only [Option.some.injEq, Transmission.tcp.injEq] at hout
          subst hout
          obtain ⟨t, ht, hmode, -⟩ := hgoes hsends
          cases t with
          | datagrams fd rtcpFd peer => exact Bool.noConfusion (hmode.mp hm')
          | interleaved k =>
            refine ((hran hw').queue fun b => Or.inr ⟨chn, k, rfl, ht, ?_⟩).quiet hq
            rw [hw.interleaved chn k ht]
            exact isFrame_interleaved k _ pkt data
        · simp at hout
      · rw [hsend, Prod.mk.injEq] at he
        obtain ⟨-, rfl⟩ := he
        rcases hcase with ⟨hout, -⟩ | ⟨bytes, es, hout, -⟩ | ⟨fd, peer, bytes, hout, hc⟩
        · simp at hout
        · simp at hout
        · simp only [Option.some.injEq, Transmission.udp.injEq] at hout
          obtain ⟨rfl, rfl, rfl⟩ := hout
          obtain ⟨t, ht, hmode, hlive⟩ := hgoes hsends
          cases t with
          | interleaved k => exact absurd (hmode.mpr rfl) hm'
          | datagrams fd rtcpFd peer =>
            obtain ⟨hne, hpeer, hfd⟩ := hw.datagrams chn fd rtcpFd peer ht
            -- A failing `sendto` tears the connection down, which changes no promise.
            have hw'' : Wired c.sockfd c.log (if env.sendto then rtp' else rtp'.teardown) := by
              split
              · exact hw'
              · exact teardown_wired hw'
            rw [hc, hfd (hlive rfl), hpeer]
            refine (hran hw'').advance rfl rfl rfl id (follows_single ⟨hne, rtcpFd, ht⟩)
              (List.append_nil _).symm (fun x hx => ?_) (by simp [RtspConnection.emit])
            obtain rfl := Option.some.inj hx
            refine hw''.of_same ?_ ?_ rfl rfl rfl
              (fun d => ⟨rfl, rfl, Or.inl, hw''.record d⟩)
            · exact (setUps_append _ _).trans (List.append_nil _)
            · exact slots_append _ _
    | destroy =>
      dsimp only at hs
      split at hs
      · rw [← Option.some.inj hs]
        have hfd : ∀ {l : List FdOp}, ∀ e ∈ l.map Effect.fd, e.mute = true := by
          intro l e he
          obtain ⟨op, -, rfl⟩ := List.mem_map.mp he
          rfl
        refine ⟨by simp [RtspConnection.destroy, RtspConnection.emit], ?_, ?_,
          by simp [RtspConnection.destroy, RtspConnection.emit],
          by simp [RtspConnection.destroy, RtspConnection.emit]⟩
        · intro pre e post he
          rcases split_append he with ⟨post', hpre⟩ | ⟨pre', rfl, hes⟩
          · exact h.follows pre e post' hpre
          · have hmem := hfd e (by rw [hes]; simp)
            cases e <;> first | exact Bool.noConfusion hmem | trivial
        · show writtenBytes (c.log ++ _) ++ _ = messages (c.log ++ _)
          rw [writtenBytes_append, messages_append, writtenBytes_mute hfd, messages_mute hfd,
            List.append_nil, List.append_nil]
          exact h.balance
      · simp at hs

theorem new_routed {fd : Int} (authInfo : Option DigestAuthentication) (request : RtspRequest)
    (h : 0 < fd) : Routed (RtspConnection.new fd authInfo request) := by
  have h0 : 0 ≤ fd := by omega
  refine ⟨fun _ => ?_, ?_, rfl, by simp [RtspConnection.new], fun _ _ => rfl⟩
  · simp [RtspConnection.new, openFds, fdUses, FdOp.uses, h0, held]
  · have hlog : ∀ e ∈ [Effect.fd (.opened fd), .channelUpdated fd], ∀ chn,
        (∀ bytes q, e ≠ .framed chn bytes q) ∧ ∀ gd peer bytes, e ≠ .sentTo chn gd peer bytes := by
      simp
    exact @follows_mute fd [] _ hlog

/-- **Per-channel transport.** In every run in which packets leave only while the connection's
latest SETUP matches their channel's: every RTP packet goes into a frame with the interleaved
channel, or from the socket to the address, that the latest 200 to a SETUP of its channel named;
no datagram goes onto the TCP socket; and what that socket has taken is a prefix of the responses
and frames in the order they were queued. -/
theorem per_channel_transport (authInfo : Option DigestAuthentication) {c : RtspConnection}
    (hr : Reach (onKernel authInfo) Matching c) :
    (∀ pre e post, c.log = pre ++ e :: post → Follows c.sockfd pre e) ∧
      writtenBytes c.log <+: messages c.log := by
  have hinv : Routed c := by
    refine hr.inv (P := Routed) (fun s hs => ?_) (fun t i u ht hg hst => ?_)
    · obtain ⟨fd, request, hpos, rfl⟩ := hs
      exact new_routed authInfo request hpos
    · obtain ⟨u', hserve, hu⟩ := Option.bind_eq_some_iff.mp hst
      split at hu
      · rename_i hk
        obtain rfl := Option.some.inj hu
        exact ht.serve hg hserve hk
      · simp at hu
  exact ⟨hinv.follows, _, hinv.balance⟩

/-- An RTP packet of an I frame, as small as one can be, and its array. -/
def keyPacket : RtpPacket := ⟨16, 3000, RtpConnection.videoFrameI, 1, by decide, by decide⟩

def blankData : PacketData := ⟨List.replicate packetCapacity 0, List.length_replicate⟩

/-- A client sets one track up, or both, and plays; a packet of the video track is sent. -/
def playing (setups : List RtspRequest) : List Input :=
  .request (.forLive .describe .rtpOverTcp .channel0 [(.cseq, [], 1)]) (Env.live 7 8) ::
    (setups.map fun req => .request req (Env.live 7 8)) ++
    [.request (.forLive .play .rtpOverTcp .channel0 [(.cseq, [], 4)]) (Env.live 7 8),
      .push .channel0 keyPacket true, .trigger blankData (Env.live 7 8)]

def videoOverTcp : RtspRequest :=
  .forLive .setup .rtpOverTcp .channel0 [(.cseq, [], 2), (.rtpChannel, [], 0), (.rtcpChannel, [], 1)]

def audioOverUdp : RtspRequest :=
  .forLive .setup .rtpOverUdp .channel1 [(.cseq, [], 3), (.rtpPort, [], 5000), (.rtcpPort, [], 5001)]

/-- The channels of the packets a connection has handed on, and how. -/
def handedOn (c : RtspConnection) : List (MediaChannelId × Option Int) :=
  c.log.filterMap fun e => match e with
    | .framed chn _ _ => some (chn, none)
    | .sentTo chn fd _ _ => some (chn, some fd)
    | _ => none

theorem per_channel_transport_tcp :
    ∃ c : RtspConnection, handedOn c = [(.channel0, none)] ∧
      (∀ pre e post, c.log = pre ++ e :: post → Follows c.sockfd pre e) ∧
      writtenBytes c.log <+: messages c.log := by
  obtain ⟨c, hr, hc⟩ := reach_of_runFrom RtspConnection.serveOnKernel Matching accepted
    (playing [videoOverTcp]) handedOn [(.channel0, none)] accepted_start (by decide +kernel)
  have h := per_channel_transport none hr
  exact ⟨c, hc, h⟩

/-- **Video over TCP and then audio over UDP**: the video packet is sent as a datagram onto the
TCP socket. -/
theorem per_channel_transport_mixed :
    ¬ ∀ (authInfo : Option DigestAuthentication) (c : RtspConnection),
      Reach (onKernel authInfo) (anyStep _ _) c →
        (∀ pre e post, c.log = pre ++ e :: post → Follows c.sockfd pre e) ∧
          writtenBytes c.log <+: messages c.log := by
  intro h
  obtain ⟨c, hr, hc⟩ := reach_of_runFrom RtspConnection.serveOnKernel (anyStep _ _) accepted
    (playing [videoOverTcp, audioOverUdp]) (fun c => (c.sockfd, handedOn c))
    (5, [(.channel0, some 5)]) accepted_start (by decide +kernel)
  obtain ⟨hsock, hsent⟩ := Prod.mk.inj hc
  have hmem : (MediaChannelId.channel0, some 5) ∈ handedOn c := by
    rw [hsent]
    exact List.mem_singleton.mpr rfl
  obtain ⟨e, he, hm⟩ := List.mem_filterMap.mp hmem
  obtain ⟨pre, post, hl⟩ := List.append_of_mem he
  have hfol := (h none c hr).1 pre e post hl
  cases e with
  | sentTo chn fd peer bytes =>
    simp only [Option.some.injEq, Prod.mk.injEq] at hm
    exact hfol.1 (hm.2.trans hsock.symm)
  | _ => simp at hm

end Maixii.Xop
