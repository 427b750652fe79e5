import Maixii.Lib.Ledger
import Maixii.Xop.RtspSteps

/-!
# `Xop/Descriptors.lean`: who closes what

Every descriptor a connection obtains, from `accept` or `socket`, as an entry in a ledger
(`Lib/Ledger.lean`): the kernel promises not to hand out what is open (`kernelOk`), and the
connection should close what it was handed, once.

`RtpConnection` keeps its descriptors in four slots, an RTP and an RTCP one for each channel, and
closes them all when it goes. It owns only some of what it finds there. A SETUP over TCP puts the
connection's own descriptor in, one that finds no free port leaves closed descriptors behind, and
a second SETUP overwrites the first one's sockets. `Slot` says what a slot holds, by the history
of SETUPs; `Careful` is the condition under which every descriptor is closed exactly once
(`descriptors_closed_once`).
-/

set_option autoImplicit false

namespace Maixii.Xop

open Maixii.Lib Maixii.Net

/-! ## The ledger -/

/-- A negative number is no descriptor. -/
def FdOp.uses : FdOp → List (Use Int)
  | .opened fd => if 0 ≤ fd then [.acquire fd] else []
  | .closed fd => if 0 ≤ fd then [.release fd] else []

def fdUses (log : List Effect) : List (Use Int) :=
  log.flatMap fun e => match e with
    | .fd op => op.uses
    | _ => []

@[simp] theorem fdUses_append (l m : List Effect) : fdUses (l ++ m) = fdUses l ++ fdUses m :=
  List.flatMap_append

@[simp] theorem fdUses_map_fd (ops : List FdOp) :
    fdUses (ops.map Effect.fd) = ops.flatMap FdOp.uses := by
  simp [fdUses, List.flatMap_map]

theorem fdUses_eq_nil {l : List Effect} (h : ∀ e ∈ l, ∀ op, e ≠ .fd op) : fdUses l = [] := by
  refine List.flatMap_eq_nil_iff.mpr (fun e he => ?_)
  cases e with
  | fd op => exact absurd rfl (h _ he op)
  | _ => rfl

/-- The descriptors of the connection that are open. -/
def openFds (log : List Effect) : List Int := held [] (fdUses log)

/-- `socket` and `accept` return no descriptor that is open. -/
def kernelOk (log : List Effect) : Bool := fresh [] (fdUses log)

/-- Nothing is closed that is not open. -/
def closesOk (log : List Effect) : Bool := sound [] (fdUses log)

/-- The descriptors with a `Channel` in the scheduler. -/
def registered (log : List Effect) : List Int :=
  log.foldl (fun l e => match e with
    | .channelUpdated fd => fd :: l
    | .channelRemoved fd => l.filter (· ≠ fd)
    | _ => l) []

/-- One call on a kernel that keeps its promise. -/
def RtspConnection.serveOnKernel (c : RtspConnection) (i : Input) : Option RtspConnection :=
  (c.serve i).bind fun c' => if kernelOk c'.log then some c' else none

/-- A connection of a server on a kernel. -/
def onKernel (authInfo : Option DigestAuthentication) : System RtspConnection Input :=
  System.ofStep (fun c => ∃ fd request, 0 < fd ∧ c = RtspConnection.new fd authInfo request)
    RtspConnection.serveOnKernel

/-! ## What the slots hold -/

/-- What is in a slot: nothing, a socket of the channel's own, the connection's descriptor, or
the number of a socket that was closed again. -/
inductive Slot
  | empty | live | borrowed | stale
  deriving DecidableEq, Repr

/-- The RTP and the RTCP slot of each channel. -/
structure Slots where
  rtp : MediaChannelId → Slot
  rtcp : MediaChannelId → Slot

def Slots.none : Slots := ⟨fun _ => .empty, fun _ => .empty⟩

def Slots.after (s : Slots) : Effect → Slots
  | .setUp chn (.interleaved _) =>
      ⟨Function.update s.rtp chn .borrowed, Function.update s.rtcp chn .borrowed⟩
  | .setUp chn (.datagrams _ rtcpFd _) =>
      ⟨Function.update s.rtp chn .live,
        if rtcpFd.isSome then Function.update s.rtcp chn .live else s.rtcp⟩
  | .exhausted chn rtcp =>
      ⟨Function.update s.rtp chn .stale,
        if rtcp then Function.update s.rtcp chn .stale else s.rtcp⟩
  | _ => s

/-- What the slots hold after the SETUPs of a log. -/
def slots (log : List Effect) : Slots := log.foldl Slots.after Slots.none

/-- The first round that binds both sockets, and the first that binds one. -/
def firstPair (as : List Attempt) : Option Attempt := as.find? fun a => a.rtpBound && a.rtcpBound

def firstOne (as : List Attempt) : Option Attempt := as.find? Attempt.rtpBound

/-- **The guard.** No SETUP is carried out on a channel that still has a socket of its own, or
ends up with descriptor 0; and when the connection goes, every descriptor it finds in a slot is a
socket of its own (a SETUP over TCP, or one without a free port, leaves others there). -/
def Careful (c : RtspConnection) : Input → Prop
  | .request req env => c.carriedOut env req = true →
      (slots c.log).rtp req.channelId ≠ .live ∧
      (req.transport = .rtpOverUdp → ∀ a ∈ firstPair env.attempts.1, a.rtpFd ≠ 0 ∧ a.rtcpFd ≠ 0) ∧
      (req.transport = .rtpOverMulticast → ∀ a ∈ firstOne env.attempts.1, a.rtpFd ≠ 0)
  | .destroy => ∀ rtp ∈ c.rtpConn, ∀ chn ∈ channels,
      (0 < rtp.rtpfd chn → (slots c.log).rtp chn = .live) ∧
      (0 < rtp.rtcpfd chn → (slots c.log).rtcp chn = .live)
  | _ => True

instance (c : RtspConnection) (i : Input) : Decidable (Careful c i) :=
  match i with
  | .request _ _ => inferInstanceAs (Decidable (_ → _))
  | .destroy => inferInstanceAs (Decidable (∀ rtp ∈ c.rtpConn, ∀ chn ∈ channels, _))
  | .read _ | .close _ | .writable _ | .push _ _ _ | .trigger _ _ =>
      inferInstanceAs (Decidable True)

/-! ## The loops that look for ports -/

/-- A socket opened and closed again. -/
theorem one_round (l : List Int) (fd : Int) :
    held l ([FdOp.opened fd, .closed fd].flatMap FdOp.uses) = l ∧
      sound l ([FdOp.opened fd, .closed fd].flatMap FdOp.uses) = true := by
  by_cases h : 0 ≤ fd <;> simp [FdOp.uses, h, held, sound]

/-- Two sockets opened and closed again. -/
theorem two_round {l : List Int} {fd gd : Int} (hfd : 0 ≤ fd)
    (hf : fresh l ([FdOp.opened fd, .opened gd, .closed fd, .closed gd].flatMap FdOp.uses) = true) :
    held l ([FdOp.opened fd, .opened gd, .closed fd, .closed gd].flatMap FdOp.uses) = l ∧
      sound l ([FdOp.opened fd, .opened gd, .closed fd, .closed gd].flatMap FdOp.uses) = true := by
  by_cases h : 0 ≤ gd
  · have hne : gd ≠ fd := by
      simp only [List.flatMap_cons, FdOp.uses, hfd, h, if_true, List.flatMap_nil,
        List.cons_append, List.nil_append, fresh, Bool.and_eq_true, decide_eq_true_eq,
        List.mem_cons, not_or] at hf
      exact hf.2.1.1
    simp [FdOp.uses, hfd, h, held, sound, List.erase_cons_tail, hne]
  · simp [FdOp.uses, hfd, h, held, sound]

/-- What the loop for UDP leaves of its rounds: the two sockets of the last one if it succeeded,
and otherwise nothing. -/
theorem bindPair_spec (chn : MediaChannelId) (as : List Attempt) (c : RtpConnection)
    (l : List Int) :
    let r := RtpConnection.bindPair chn as c
    fresh l (r.2.2.flatMap FdOp.uses) = true →
    sound l (r.2.2.flatMap FdOp.uses) = true ∧
    held l (r.2.2.flatMap FdOp.uses) =
      (if r.1 then r.2.1.rtcpfd chn :: r.2.1.rtpfd chn :: l else l) ∧
    (r.1 = true → 0 ≤ r.2.1.rtpfd chn ∧ 0 ≤ r.2.1.rtcpfd chn ∧
      ∃ a, firstPair as = some a ∧ r.2.1.rtpfd chn = a.rtpFd ∧ r.2.1.rtcpfd chn = a.rtcpFd) := by
  induction as generalizing c with
  | nil => simp [RtpConnection.bindPair, sound, held]
  | cons a as ih =>
    intro r hf
    cases hb : a.rtpBound with
    | false =>
      obtain ⟨d, hr⟩ : ∃ d, r = ((RtpConnection.bindPair chn as d).1,
          (RtpConnection.bindPair chn as d).2.1,
          [.opened a.rtpFd, .closed a.rtpFd] ++ (RtpConnection.bindPair chn as d).2.2) :=
        ⟨_, by simp only [r, RtpConnection.bindPair, hb, Bool.not_false, if_true]; rfl⟩
      have hround := one_round l a.rtpFd
      rw [hr, List.flatMap_append, fresh_append, hround.1, Bool.and_eq_true] at hf
      obtain ⟨h1, h2, h3⟩ := ih d hf.2
      rw [hr, List.flatMap_append, sound_append, held_append, hround.1, hround.2, h1, h2]
      refine ⟨rfl, rfl, fun hk => ?_⟩
      obtain ⟨p1, p2, b, hfind, p3⟩ := h3 hk
      exact ⟨p1, p2, b, by simpa [firstPair, hb] using hfind, p3⟩
    | true =>
      have hrtp := a.rtp_ok hb
      cases hb' : a.rtcpBound with
      | false =>
        obtain ⟨d, hr⟩ : ∃ d, r = ((RtpConnection.bindPair chn as d).1,
            (RtpConnection.bindPair chn as d).2.1,
            [.opened a.rtpFd, .opened a.rtcpFd, .closed a.rtpFd, .closed a.rtcpFd] ++
              (RtpConnection.bindPair chn as d).2.2) :=
          ⟨_, by simp only [r, RtpConnection.bindPair, hb, hb', Bool.not_true, Bool.not_false,
            Bool.false_eq_true, if_false, if_true]; rfl⟩
        rw [hr, List.flatMap_append, fresh_append, Bool.and_eq_true] at hf
        have hround := two_round hrtp hf.1
        rw [hround.1] at hf
        obtain ⟨h1, h2, h3⟩ := ih d hf.2
        rw [hr, List.flatMap_append, sound_append, held_append, hround.1, hround.2, h1, h2]
        refine ⟨rfl, rfl, fun hk => ?_⟩
        obtain ⟨p1, p2, b, hfind, p3⟩ := h3 hk
        exact ⟨p1, p2, b, by simpa [firstPair, hb, hb'] using hfind, p3⟩
      | true =>
        have hrtcp := a.rtcp_ok hb'
        simp [r, RtpConnection.bindPair, firstPair, hb, hb', FdOp.uses, hrtp, hrtcp, held, sound]

/-- The same of the loop for multicast, which opens one socket a round. -/
theorem bindOne_spec (chn : MediaChannelId) (as : List Attempt) (c : RtpConnection)
    (l : List Int) :
    let r := RtpConnection.bindOne chn as c
    sound l (r.2.2.flatMap FdOp.uses) = true ∧
    held l (r.2.2.flatMap FdOp.uses) = (if r.1 then r.2.1.rtpfd chn :: l else l) ∧
    (r.1 = true → 0 ≤ r.2.1.rtpfd chn ∧ ∃ a, firstOne as = some a ∧ r.2.1.rtpfd chn = a.rtpFd) := by
  induction as generalizing c with
  | nil => simp [RtpConnection.bindOne, sound, held]
  | cons a as ih =>
    intro r
    cases hb : a.rtpBound with
    | false =>
      obtain ⟨d, hr⟩ : ∃ d, r = ((RtpConnection.bindOne chn as d).1,
          (RtpConnection.bindOne chn as d).2.1,
          [.opened a.rtpFd, .closed a.rtpFd] ++ (RtpConnection.bindOne chn as d).2.2) :=
        ⟨_, by simp only [r, RtpConnection.bindOne, hb, Bool.not_false, if_true]; rfl⟩
      have hround := one_round l a.rtpFd
      obtain ⟨h1, h2, h3⟩ := ih d
      rw [hr, List.flatMap_append, sound_append, held_append, hround.1, hround.2, h1, h2]
      refine ⟨rfl, rfl, fun hk => ?_⟩
      obtain ⟨p1, b, hfind, p2⟩ := h3 hk
      exact ⟨p1, b, by simpa [firstOne, hb] using hfind, p2⟩
    | true =>
      have hrtp := a.rtp_ok hb
      simp [r, RtpConnection.bindOne, firstOne, hb, FdOp.uses, hrtp, held, sound]

/-! ## The invariant -/

/-- The descriptor in a slot of the connection; there is none before DESCRIBE. -/
def RtspConnection.rtpfd (c : RtspConnection) (chn : MediaChannelId) : Int :=
  (c.rtpConn.map fun rtp => rtp.rtpfd chn).getD 0

def RtspConnection.rtcpfd (c : RtspConnection) (chn : MediaChannelId) : Int :=
  (c.rtpConn.map fun rtp => rtp.rtcpfd chn).getD 0

/-- The sockets of the channel's own. -/
def owned (s : Slots) (rtp rtcp : MediaChannelId → Int) (chn : MediaChannelId) : List Int :=
  (if s.rtp chn = .live then [rtp chn] else []) ++ if s.rtcp chn = .live then [rtcp chn] else []

/-- The number in the slot is what the slot should hold. -/
def Slot.Holds (sockfd : Int) : Slot → Int → Prop
  | .empty, fd => fd = 0
  | .live, fd => 0 < fd
  | .borrowed, fd => fd = sockfd
  | .stale, _ => True

/-- A connection that is there holds its own descriptor and those of its live slots, and what it
has in the scheduler it remembers. -/
structure Alive (c : RtspConnection) : Prop where
  present : c.destroyed = false
  sockfd : 0 < c.sockfd
  closes : closesOk c.log = true
  balance : (openFds c.log).Perm
    (c.sockfd :: channels.flatMap (owned (slots c.log) c.rtpfd c.rtcpfd))
  rtp : ∀ chn, ((slots c.log).rtp chn).Holds c.sockfd (c.rtpfd chn)
  rtcp : ∀ chn, ((slots c.log).rtcp chn).Holds c.sockfd (c.rtcpfd chn)
  paired : ∀ chn, (slots c.log).rtcp chn = .live → (slots c.log).rtp chn = .live
  remembered : ∀ chn, c.rtcpChannels chn ≠ none → (slots c.log).rtcp chn = .live
  scheduled : ∀ fd ∈ registered c.log, c.isClosed = false ∧
    (fd = c.sockfd ∨ ∃ chn, c.rtcpChannels chn = some fd)

/-- What the log says of descriptors and channels. -/
theorem slots_append (l m : List Effect) : slots (l ++ m) = m.foldl Slots.after (slots l) :=
  List.foldl_append

theorem openFds_append (l m : List Effect) : openFds (l ++ m) = held (openFds l) (fdUses m) := by
  rw [openFds, fdUses_append, held_append]
  rfl

theorem closesOk_append (l m : List Effect) :
    closesOk (l ++ m) = (closesOk l && sound (openFds l) (fdUses m)) := by
  rw [closesOk, fdUses_append, sound_append]
  rfl

theorem kernelOk_append (l m : List Effect) :
    kernelOk (l ++ m) = (kernelOk l && fresh (openFds l) (fdUses m)) := by
  rw [kernelOk, fdUses_append, fresh_append]
  rfl

theorem mem_registered_append {l m : List Effect} {fd : Int} (h : fd ∈ registered (l ++ m)) :
    fd ∈ registered l ∧ Effect.channelRemoved fd ∉ m ∨ Effect.channelUpdated fd ∈ m := by
  rw [registered, List.foldl_append] at h
  change fd ∈ m.foldl _ (registered l) at h
  generalize registered l = r at h ⊢
  induction m generalizing r with
  | nil => exact Or.inl ⟨h, by simp⟩
  | cons e m ih =>
    rcases ih _ h with ⟨hr, hm⟩ | hm
    · cases e with
      | channelUpdated gd =>
        rcases List.mem_cons.mp hr with rfl | hr
        · exact Or.inr List.mem_cons_self
        · exact Or.inl ⟨hr, by simp [hm]⟩
      | channelRemoved gd =>
        simp only [List.mem_filter, decide_eq_true_eq] at hr
        exact Or.inl ⟨hr.1, by simp [hm, hr.2]⟩
      | _ => exact Or.inl ⟨hr, by simp [hm]⟩
    · exact Or.inr (List.mem_cons_of_mem _ hm)

/-- The effect has nothing to do with descriptors, slots or the scheduler. -/
def Effect.inert : Effect → Bool
  | .fd _ | .setUp _ _ | .exhausted _ _ | .channelUpdated _ | .channelRemoved _ => false
  | _ => true

/-- It has nothing to do with descriptors or slots. -/
def Effect.idle : Effect → Bool
  | .fd _ | .setUp _ _ | .exhausted _ _ => false
  | _ => true

theorem fdUses_idle {es : List Effect} (h : ∀ e ∈ es, e.idle = true) : fdUses es = [] := by
  refine fdUses_eq_nil (fun e he op heq => ?_)
  rw [heq] at he
  exact Bool.noConfusion (h _ he)

theorem slots_idle {es : List Effect} (h : ∀ e ∈ es, e.idle = true) (s : Slots) :
    es.foldl Slots.after s = s := by
  induction es with
  | nil => rfl
  | cons e es ih =>
    have he : s.after e = s := by
      have := h e List.mem_cons_self
      cases e <;> first | rfl | exact Bool.noConfusion this
    rw [List.foldl_cons, he]
    exact ih fun x hx => h x (List.mem_cons_of_mem _ hx)

theorem idle_of_inert {e : Effect} (h : e.inert = true) : e.idle = true := by
  cases e <;> first | rfl | exact Bool.noConfusion h

theorem idle_of_plumbing {fd : Int} {e : Effect} (h : Plumbing fd e) : e.idle = true := by
  cases h <;> rfl

/-- Idle effects, as long as what is registered stays remembered. -/
theorem Alive.idle {c c' : RtspConnection} {es : List Effect} (h : Alive c)
    (hd : c'.destroyed = c.destroyed) (hs : c'.sockfd = c.sockfd) (hl : c'.log = c.log ++ es)
    (hrc : c'.rtcpChannels = c.rtcpChannels) (hf : c'.rtpfd = c.rtpfd) (hg : c'.rtcpfd = c.rtcpfd)
    (hes : ∀ e ∈ es, e.idle = true)
    (hreg : ∀ fd ∈ registered c'.log, c'.isClosed = false ∧
      (fd = c'.sockfd ∨ ∃ chn, c'.rtcpChannels chn = some fd)) : Alive c' := by
  have hopen : openFds c'.log = openFds c.log := by
    rw [hl, openFds_append, fdUses_idle hes]
    rfl
  have hslots : slots c'.log = slots c.log := by rw [hl, slots_append, slots_idle hes]
  refine ⟨hd.trans h.present, hs ▸ h.sockfd, ?_, ?_, ?_, ?_, ?_, ?_, hreg⟩
  · rw [hl, closesOk_append, fdUses_idle hes, h.closes]
    rfl
  · rw [hopen, hslots, hs, hf, hg]
    exact h.balance
  · rw [hslots, hs, hf]
    exact h.rtp
  · rw [hslots, hs, hg]
    exact h.rtcp
  · rw [hslots]
    exact h.paired
  · rw [hslots, hrc]
    exact h.remembered

/-- Effects that concern neither descriptors nor the scheduler. -/
theorem Alive.inert {c c' : RtspConnection} {es : List Effect} (h : Alive c)
    (hd : c'.destroyed = c.destroyed) (hs : c'.sockfd = c.sockfd)
    (hc : c'.isClosed = c.isClosed) (hl : c'.log = c.log ++ es)
    (hrc : c'.rtcpChannels = c.rtcpChannels) (hf : c'.rtpfd = c.rtpfd) (hg : c'.rtcpfd = c.rtcpfd)
    (hes : ∀ e ∈ es, e.inert = true) : Alive c' := by
  refine h.idle hd hs hl hrc hf hg (fun e he => idle_of_inert (hes e he)) (fun fd hfd => ?_)
  rw [hl] at hfd
  rw [hc, hs, hrc]
  rcases mem_registered_append hfd with ⟨hr, -⟩ | hu
  · exact h.scheduled fd hr
  · exact Bool.noConfusion (hes _ hu)

/-- Writing and closing. -/
theorem Alive.quiet {c c' : RtspConnection} {es : List Effect} (h : Alive c)
    (hq : RtspConnection.Quiet c es c') : Alive c' := by
  have hf := hq.frame
  refine h.idle hf.destroyed hf.sockfd hq.log hf.rtcpChannels
    (by unfold RtspConnection.rtpfd; rw [hf.rtpConn])
    (by unfold RtspConnection.rtcpfd; rw [hf.rtpConn])
    (fun e he => idle_of_plumbing (hq.plumbing e he)) (fun fd hfd => ?_)
  rw [hq.log] at hfd
  rw [hf.sockfd, hf.rtcpChannels]
  -- What the effects register is the socket, and after closing nothing is.
  have hold : ∀ {fs : List Effect}, (∀ e ∈ fs, e ∈ es) → fd ∈ registered (c.log ++ fs) →
      fd = c.sockfd ∨ ∃ chn, c.rtcpChannels chn = some fd := by
    intro fs hfs hfd
    rcases mem_registered_append hfd with ⟨hr, -⟩ | hu
    · exact (h.scheduled fd hr).2
    · cases hq.plumbing _ (hfs _ hu)
      exact Or.inl rfl
  rcases hq.closes with ⟨he, hnone⟩ | ⟨-, pre, post, hes, hclosing⟩
  · refine ⟨?_, hold (fun _ h => h) hfd⟩
    cases hc : c.isClosed with
    | false => rw [he, hc]
    | true =>
      rw [hnone hc, List.append_nil] at hfd
      rw [(h.scheduled fd hfd).1] at hc
      exact Bool.noConfusion hc
  · rw [hes, ← List.append_assoc] at hfd
    rcases mem_registered_append hfd with ⟨hr, hm⟩ | hu
    · rcases hold (fun e he => by rw [hes]; exact List.mem_append_left _ he) hr with rfl | ⟨chn, hk⟩
      · exact absurd hclosing.socket hm
      · exact absurd (hclosing.rtcp chn fd hk) hm
    · exact absurd hu (hclosing.updates fd)

/-- A response. -/
theorem Alive.sent {c c' : RtspConnection} {env : Env} {req : RtspRequest} {signed : Bool}
    (h : Alive c) (hs : RtspConnection.Sent c env req signed c') : Alive c' := by
  obtain @⟨res, es, _, -, -, hq⟩ := hs
  have hlog : (c.queue res (.responded res)).log = c.log ++ [.responded res (c.takes res)] := rfl
  have hqueue : Alive (c.queue res (.responded res)) :=
    h.inert rfl rfl rfl hlog rfl rfl rfl (by simp [Effect.inert])
  exact hqueue.quiet hq

/-! ## One SETUP -/

/-- Only one channel's share of a list over both changes, and it was empty. -/
theorem flatMap_channels_perm {k k' : MediaChannelId → List Int} {chn : MediaChannelId}
    (h : ∀ d, d ≠ chn → k' d = k d) (hk : k chn = []) :
    (channels.flatMap k').Perm (k' chn ++ channels.flatMap k) := by
  cases chn with
  | channel0 =>
    have h1 := h .channel1 (by decide)
    simp [channels, h1, hk]
  | channel1 =>
    have h0 := h .channel0 (by decide)
    simp only [channels, List.flatMap_cons, List.flatMap_nil, List.append_nil, h0, hk]
    exact List.perm_append_comm

/-- **A SETUP on a free channel**, whatever it leaves there: its loop is balanced up to the
sockets it keeps (`new`), and those are the channel's own afterwards. -/
theorem Alive.setUp {c : RtspConnection} {rtp' : RtpConnection}
    {rtcp' : MediaChannelId → Option Int} {ops : List FdOp} {es : List Effect}
    {chn : MediaChannelId} {new : List Int} (h : Alive c) (ho : c.isClosed = false)
    (hfree : (slots c.log).rtp chn ≠ .live)
    (hes : fdUses es = [])
    (hsound : sound (openFds c.log) (ops.flatMap FdOp.uses) = true)
    (hheld : held (openFds c.log) (ops.flatMap FdOp.uses) = new ++ openFds c.log)
    (hfd : ∀ d, d ≠ chn → rtp'.rtpfd d = c.rtpfd d ∧ rtp'.rtcpfd d = c.rtcpfd d)
    {s' : Slots} (hs' : es.foldl Slots.after (slots c.log) = s')
    (hslot : ∀ d, d ≠ chn → s'.rtp d = (slots c.log).rtp d ∧ s'.rtcp d = (slots c.log).rtcp d)
    (hrtp : (s'.rtp chn).Holds c.sockfd (rtp'.rtpfd chn))
    (hrtcp : (s'.rtcp chn).Holds c.sockfd (rtp'.rtcpfd chn))
    (hpair : s'.rtcp chn = .live → s'.rtp chn = .live)
    (hnew : (owned s' rtp'.rtpfd rtp'.rtcpfd chn).Perm new)
    (hother : ∀ d, d ≠ chn → rtcp' d = c.rtcpChannels d)
    (hchn : rtcp' chn ≠ none → s'.rtcp chn = .live)
    (hup : ∀ fd, Effect.channelUpdated fd ∈ es → rtcp' chn = some fd) :
    Alive ({ c with rtpConn := some rtp', rtcpChannels := rtcp' }.emit
      (ops.map Effect.fd ++ es)) := by
  have hfree' : (slots c.log).rtcp chn ≠ .live := fun hl => hfree (h.paired chn hl)
  have hnone : c.rtcpChannels chn = none := by
    by_contra hne
    exact hfree' (h.remembered chn hne)
  have hfds : ∀ (l : List FdOp) (s : Slots), (l.map Effect.fd).foldl Slots.after s = s := by
    intro l
    induction l with
    | nil => exact fun _ => rfl
    | cons op l ih => exact fun s => ih s
  have hslots : slots (c.log ++ (ops.map Effect.fd ++ es)) = s' := by
    rw [slots_append, List.foldl_append, hfds, hs']
  have hopen : openFds (c.log ++ (ops.map Effect.fd ++ es)) = new ++ openFds c.log := by
    rw [openFds_append, fdUses_append, hes, fdUses_map_fd, List.append_nil, hheld]
  have hper : ∀ d, d ≠ chn → owned s' rtp'.rtpfd rtp'.rtcpfd d =
      owned (slots c.log) c.rtpfd c.rtcpfd d := by
    intro d hd
    obtain ⟨h1, h2⟩ := hfd d hd
    obtain ⟨h3, h4⟩ := hslot d hd
    simp only [owned, h1, h2, h3, h4]
  have hempty : owned (slots c.log) c.rtpfd c.rtcpfd chn = [] := by
    simp only [owned, hfree, hfree', if_false, List.append_nil]
  have hcases : ∀ {P : MediaChannelId → Prop}, P chn → (∀ d, d ≠ chn → P d) → ∀ d, P d := by
    intro P h1 h2 d
    by_cases hd : d = chn
    · exact hd ▸ h1
    · exact h2 d hd
  refine ⟨h.present, h.sockfd, ?_, ?_, ?_, ?_, ?_, ?_, ?_⟩
  · show closesOk (c.log ++ (ops.map Effect.fd ++ es)) = true
    rw [closesOk_append, fdUses_append, hes, fdUses_map_fd, List.append_nil, h.closes, hsound]
    rfl
  · show (openFds (c.log ++ (ops.map Effect.fd ++ es))).Perm (c.sockfd :: channels.flatMap
      (owned (slots (c.log ++ (ops.map Effect.fd ++ es))) rtp'.rtpfd rtp'.rtcpfd))
    rw [hopen, hslots]
    calc (new ++ openFds c.log).Perm (new ++ (c.sockfd ::
          channels.flatMap (owned (slots c.log) c.rtpfd c.rtcpfd))) := h.balance.append_left new
      _ |>.Perm (c.sockfd :: (new ++ channels.flatMap (owned (slots c.log) c.rtpfd c.rtcpfd))) :=
          List.perm_middle
      _ |>.Perm (c.sockfd :: channels.flatMap (owned s' rtp'.rtpfd rtp'.rtcpfd)) :=
          ((hnew.symm.append_right _).trans (flatMap_channels_perm hper hempty).symm).cons _
  · show ∀ d, ((slots (c.log ++ (ops.map Effect.fd ++ es))).rtp d).Holds c.sockfd (rtp'.rtpfd d)
    rw [hslots]
    refine hcases hrtp (fun d hd => ?_)
    rw [(hslot d hd).1, (hfd d hd).1]
    exact h.rtp d
  · show ∀ d, ((slots (c.log ++ (ops.map Effect.fd ++ es))).rtcp d).Holds c.sockfd (rtp'.rtcpfd d)
    rw [hslots]
    refine hcases hrtcp (fun d hd => ?_)
    rw [(hslot d hd).2, (hfd d hd).2]
    exact h.rtcp d
  · show ∀ d, (slots (c.log ++ (ops.map Effect.fd ++ es))).rtcp d = .live →
      (slots (c.log ++ (ops.map Effect.fd ++ es))).rtp d = .live
    rw [hslots]
    refine hcases hpair (fun d hd => ?_)
    rw [(hslot d hd).1, (hslot d hd).2]
    exact h.paired d
  · show ∀ d, rtcp' d ≠ none → (slots (c.log ++ (ops.map Effect.fd ++ es))).rtcp d = .live
    rw [hslots]
    refine hcases hchn (fun d hd => ?_)
    rw [hother d hd, (hslot d hd).2]
    exact h.remembered d
  · intro fd hfd
    refine ⟨ho, ?_⟩
    show fd = c.sockfd ∨ ∃ d, rtcp' d = some fd
    rcases mem_registered_append hfd with ⟨hr, -⟩ | hu
    · rcases (h.scheduled fd hr).2 with he | ⟨d, hd⟩
      · exact Or.inl he
      · refine Or.inr ⟨d, ?_⟩
        rw [hother d (fun he => by rw [he, hnone] at hd; simp at hd), hd]
    · rcases List.mem_append.mp hu with hu | hu
      · simp at hu
      · exact Or.inr ⟨chn, hup fd hu⟩

/-- What the two kinds of SETUP with sockets do to the ledger and the slots, in the terms of
`Alive.setUp`. -/
theorem udp_fds {c c' : RtpConnection} {addr : Bytes} {attempts : Attempts} {chn : MediaChannelId}
    {rtpPort rtcpPort : Nat} {ok : Bool} {ops : List FdOp} {l : List Int}
    (h : c.setupRtpOverUdp (some addr) attempts chn rtpPort rtcpPort = (ok, c', ops))
    (hf : fresh l (ops.flatMap FdOp.uses) = true) :
    sound l (ops.flatMap FdOp.uses) = true ∧
    held l (ops.flatMap FdOp.uses) = (if ok then [c'.rtcpfd chn, c'.rtpfd chn] else []) ++ l ∧
    (ok = true → 0 ≤ c'.rtpfd chn ∧ 0 ≤ c'.rtcpfd chn ∧
      ∃ a, firstPair attempts.1 = some a ∧ c'.rtpfd chn = a.rtpFd ∧ c'.rtcpfd chn = a.rtcpFd) ∧
    (attempts.1.any Attempt.rtpBound = false → c'.rtcpfd = c.rtcpfd) ∧
    ∀ d, d ≠ chn → c'.rtpfd d = c.rtpfd d ∧ c'.rtcpfd d = c.rtcpfd d := by
  rw [RtpConnection.setupRtpOverUdp_eq] at h
  generalize hc : (c.updateInfo chn fun i => { i with rtpPort := rtpPort, rtcpPort := rtcpPort }) =
    c₁ at h
  have hfd₁ : c₁.rtpfd = c.rtpfd ∧ c₁.rtcpfd = c.rtcpfd := by subst hc; exact ⟨rfl, rfl⟩
  have hspec := bindPair_spec chn attempts.1 c₁ l
  have hsame := RtpConnection.bindPair_same chn attempts.1 c₁
  have hrtcp := RtpConnection.bindPair_rtcpfd chn attempts.1 c₁
  generalize hb : RtpConnection.bindPair chn attempts.1 c₁ = b at h hspec hsame hrtcp
  obtain ⟨ok', c₂, ops'⟩ := b
  simp only [Prod.mk.injEq] at h
  obtain ⟨rfl, hc', rfl⟩ := h
  have hfd₂ : c'.rtpfd = c₂.rtpfd ∧ c'.rtcpfd = c₂.rtcpfd := by
    rw [← hc']
    split <;> exact ⟨rfl, rfl⟩
  obtain ⟨h1, h2, h3⟩ := hspec hf
  rw [hfd₂.1, hfd₂.2]
  refine ⟨h1, ?_, h3, fun ha => (hrtcp ha).trans hfd₁.2, fun d hd => ?_⟩
  · rw [h2]
    cases ok' <;> rfl
  · rw [hsame.rtpfd d hd, hsame.rtcpfd d hd, hfd₁.1, hfd₁.2]
    exact ⟨rfl, rfl⟩

theorem multicast_fds {c c' : RtpConnection} {attempts : Attempts} {chn : MediaChannelId}
    {ip : Bytes} {port : Nat} {ok : Bool} {ops : List FdOp} (l : List Int)
    (h : c.setupRtpOverMulticast attempts chn ip port = (ok, c', ops)) :
    sound l (ops.flatMap FdOp.uses) = true ∧
    held l (ops.flatMap FdOp.uses) = (if ok then [c'.rtpfd chn] else []) ++ l ∧
    (ok = true → 0 ≤ c'.rtpfd chn ∧ ∃ a, firstOne attempts.1 = some a ∧ c'.rtpfd chn = a.rtpFd) ∧
    c'.rtcpfd = c.rtcpfd ∧ ∀ d, d ≠ chn → c'.rtpfd d = c.rtpfd d := by
  rw [RtpConnection.setupRtpOverMulticast_eq] at h
  have hspec := bindOne_spec chn attempts.1 c l
  have hsame := RtpConnection.bindOne_same chn attempts.1 c
  generalize hb : RtpConnection.bindOne chn attempts.1 c = b at h hspec hsame
  obtain ⟨ok', c₂, ops'⟩ := b
  simp only [Prod.mk.injEq] at h
  obtain ⟨rfl, hc', rfl⟩ := h
  have hfd₂ : c'.rtpfd = c₂.rtpfd ∧ c'.rtcpfd = c₂.rtcpfd := by
    rw [← hc']
    split <;> exact ⟨rfl, rfl⟩
  obtain ⟨h1, h2, h3⟩ := hspec
  rw [hfd₂.1, hfd₂.2]
  refine ⟨h1, ?_, h3, hsame.2, hsame.1.rtpfd⟩
  rw [h2]
  cases ok' <;> rfl

/-! ## One call -/

theorem describeSources_fds (rtp : RtpConnection) (session : MediaSession) :
    (RtspConnection.describeSources rtp session).rtpfd = rtp.rtpfd ∧
      (RtspConnection.describeSources rtp session).rtcpfd = rtp.rtcpfd := by
  unfold RtspConnection.describeSources
  generalize channels = l
  induction l generalizing rtp with
  | nil => exact ⟨rfl, rfl⟩
  | cons chn l ih =>
    rw [List.foldl_cons]
    refine ⟨(ih _).1.trans ?_, (ih _).2.trans ?_⟩ <;> split <;> rfl

/-- An RTP connection made by DESCRIBE has nothing in its slots. -/
theorem getD_new_fds (c : RtspConnection) (seed : RtpSeed) :
    (c.rtpConn.getD (RtpConnection.new seed)).rtpfd = c.rtpfd ∧
      (c.rtpConn.getD (RtpConnection.new seed)).rtcpfd = c.rtcpfd := by
  unfold RtspConnection.rtpfd RtspConnection.rtcpfd
  cases c.rtpConn <;> exact ⟨rfl, rfl⟩

theorem fds_of_some {c : RtspConnection} {rtp : RtpConnection} (h : c.rtpConn = some rtp) :
    c.rtpfd = rtp.rtpfd ∧ c.rtcpfd = rtp.rtcpfd := by
  unfold RtspConnection.rtpfd RtspConnection.rtcpfd
  rw [h]
  exact ⟨rfl, rfl⟩

/-- The kernel kept its promise before a response went out. -/
theorem kernelOk_sent {x c' : RtspConnection} {env : Env} {req : RtspRequest} {signed : Bool}
    {ops : List FdOp} {l es : List Effect} (hs : RtspConnection.Sent x env req signed c')
    (hx : x.log = l ++ (ops.map Effect.fd ++ es)) (hk : kernelOk c'.log = true) :
    kernelOk l = true ∧ fresh (openFds l) (ops.flatMap FdOp.uses) = true := by
  obtain ⟨-, res, fs, hl, -⟩ := hs.log
  rw [hl, kernelOk_append, hx, kernelOk_append, fdUses_append, fresh_append, fdUses_map_fd] at hk
  simp only [Bool.and_eq_true] at hk
  exact ⟨hk.1.1, hk.1.2.1⟩

/-- **A handler.** `hsafe` is the guard, for the SETUPs that are carried out. -/
theorem Alive.body {c c' : RtspConnection} {env : Env} {req : RtspRequest} (h : Alive c)
    (ho : c.isClosed = false) (hk : kernelOk c'.log = true)
    (hsafe : ∀ session, req.method = .setup →
      (env.rtsp.bind fun r => r.lookId c.sessionId) = some session →
      (session.isMulticast = true ↔ req.transport = .rtpOverMulticast) →
      (req.transport = .rtpOverUdp → env.peerAddr.isSome = true) →
      (slots c.log).rtp req.channelId ≠ .live ∧
      (req.transport = .rtpOverUdp → ∀ a ∈ firstPair env.attempts.1, a.rtpFd ≠ 0 ∧ a.rtcpFd ≠ 0) ∧
      (req.transport = .rtpOverMulticast → ∀ a ∈ firstOne env.attempts.1, a.rtpFd ≠ 0))
    (hb : RtspConnection.Body c env req c') : Alive c' := by
  have hsame : ∀ {rtp : RtpConnection}, c.rtpConn = some rtp → ∀ (rtp' : RtpConnection),
      rtp'.rtpfd = rtp.rtpfd → rtp'.rtcpfd = rtp.rtcpfd → ∀ {es : List Effect},
      (∀ e ∈ es, e.inert = true) →
      Alive ({ c with rtpConn := some rtp' }.emit es) := by
    intro rtp hr rtp' hf hg es hes
    exact h.inert rfl rfl rfl rfl rfl (hf.trans (fds_of_some hr).1.symm)
      (hg.trans (fds_of_some hr).2.symm) hes
  cases hb with
  | ignored _ => exact h
  | options _ hs | unsupported _ _ _ hs | noSession _ _ hs | parameter _ _ hs => exact h.sent hs
  | notFound _ _ hs =>
    have hn := getD_new_fds c env.seed
    refine Alive.sent ?_ hs
    exact h.inert rfl rfl rfl (List.append_nil _).symm rfl hn.1 hn.2 (by simp)
  | @described _ session es _ _ hes hs =>
    have hn := getD_new_fds c env.seed
    have hd := describeSources_fds (c.rtpConn.getD (RtpConnection.new env.seed)) session
    refine Alive.sent ?_ hs
    refine h.inert rfl rfl rfl rfl rfl (hd.1.trans hn.1) (hd.2.trans hn.2) ?_
    rcases hes with ⟨rfl, -⟩ | ⟨rfl, -⟩ <;> simp [Effect.inert]
  | @played _ rtp _ hr hs =>
    refine Alive.sent ?_ hs
    refine hsame hr rtp.play rfl rfl ?_
    simp [Effect.inert]
  | @tornDown _ rtp _ hr hs =>
    have ht : rtp.teardown.rtpfd = rtp.rtpfd ∧ rtp.teardown.rtcpfd = rtp.rtcpfd := by
      unfold RtpConnection.teardown
      split <;> exact ⟨rfl, rfl⟩
    rw [← RtspConnection.emit_nil { c with rtpConn := _ }] at hs
    refine Alive.sent ?_ hs
    refine hsame hr _ ht.1 ht.2 ?_
    simp
  | @tcp _ session rtp hm hl ht hr hs =>
    obtain ⟨hfree, -⟩ := hsafe session hm hl (by simp [ht.1, ht.2]) (by simp [ht.2])
    have hc := fds_of_some hr
    rw [← List.nil_append [Effect.setUp _ _], ← List.map_nil] at hs
    refine Alive.sent ?_ hs
    refine h.setUp ho hfree rfl rfl (List.nil_append _).symm (fun d hd => ?_) rfl
      (fun d hd => ?_) ?_ ?_ ?_ ?_ (fun _ _ => rfl) (fun hne => ?_) (by simp)
    · simp [RtpConnection.setupRtpOverTcp, hd, hc]
    · simp [Slots.after, hd]
    · simp [Slots.after, Slot.Holds, RtpConnection.setupRtpOverTcp]
    · simp [Slots.after, Slot.Holds, RtpConnection.setupRtpOverTcp]
    · simp [Slots.after]
    · simp [Slots.after, owned]
    · exact absurd (h.paired _ (h.remembered _ hne)) hfree
  | @multicast _ session rtp rtp' ok ops hm hl ht hr hset hs =>
    obtain ⟨hfree, -, hpos⟩ := hsafe session hm hl (by simp [ht.1, ht.2]) (by simp [ht.2])
    have hc := fds_of_some hr
    obtain ⟨hsound, hheld, hok, hrtcp, hother⟩ := multicast_fds (openFds c.log) hset
    have hfree' : (slots c.log).rtcp req.channelId ≠ .live := fun hl => hfree (h.paired _ hl)
    have hrtcp' : ((slots c.log).rtcp req.channelId).Holds c.sockfd (rtp'.rtcpfd req.channelId) := by
      rw [hrtcp, ← hc.2]
      exact h.rtcp _
    refine Alive.sent ?_ hs
    cases ok with
    | true =>
      obtain ⟨h0, a, ha, hfd⟩ := hok rfl
      have hne := hpos ht.2 a ha
      refine h.setUp ho hfree rfl hsound hheld (fun d hd => ?_) rfl
        (fun d hd => ?_) ?_ ?_ ?_ ?_ (fun _ _ => rfl) (fun hne => ?_) (by simp)
      · rw [hother d hd, hrtcp, hc.1, hc.2]
        exact ⟨rfl, rfl⟩
      · simp [Slots.after, hd]
      · simp only [if_true, List.foldl_cons, List.foldl_nil, Slots.after, Function.update_self,
          Slot.Holds]
        omega
      · simpa [Slots.after] using hrtcp'
      · simp [Slots.after]
      · simp [Slots.after, owned, hfree']
      · exact absurd (h.paired _ (h.remembered _ hne)) hfree
    | false =>
      refine h.setUp ho hfree rfl hsound hheld (fun d hd => ?_) rfl
        (fun d hd => ?_) ?_ ?_ ?_ ?_ (fun _ _ => rfl) (fun hne => ?_) (by simp)
      · rw [hother d hd, hrtcp, hc.1, hc.2]
        exact ⟨rfl, rfl⟩
      · simp [Slots.after, hd]
      · simp [Slots.after, Slot.Holds]
      · simpa [Slots.after] using hrtcp'
      · simp [Slots.after, hfree']
      · simp [Slots.after, owned, hfree']
      · exact absurd (h.paired _ (h.remembered _ hne)) hfree
  | @udp _ session rtp rtp' ops hm hl ht hr hset hs =>
    have hc := fds_of_some hr
    cases hp : env.peerAddr with
    | none =>
      rw [hp, RtpConnection.setupRtpOverUdp] at hset
      simp at hset
    | some addr =>
      rw [hp] at hset
      obtain ⟨hfree, hpos, -⟩ := hsafe session hm hl (by simp [ht.1, ht.2]) (by simp [hp])
      obtain ⟨hsound, hheld, hok, -, hother⟩ := udp_fds hset (kernelOk_sent hs rfl hk).2
      obtain ⟨h0, h0', a, ha, hfd, hfd'⟩ := hok rfl
      have hne := hpos ht.2 a ha
      refine Alive.sent ?_ hs
      refine h.setUp ho hfree rfl hsound hheld (fun d hd => ?_) rfl
        (fun d hd => ?_) ?_ ?_ ?_ ?_ (fun d hd => ?_) (fun _ => ?_) ?_
      · rw [(hother d hd).1, (hother d hd).2, hc.1, hc.2]
        exact ⟨rfl, rfl⟩
      · simp [Slots.after, hd]
      · simp only [List.foldl_cons, List.foldl_nil, Slots.after, Function.update_self, Slot.Holds]
        omega
      · simp only [List.foldl_cons, List.foldl_nil, Slots.after, Option.isSome_some, if_true,
          Function.update_self, Slot.Holds]
        omega
      · simp [Slots.after]
      · simpa [Slots.after, owned] using List.Perm.swap _ _ _
      · simp [hd]
      · simp [Slots.after]
      · simp
  | @udpFailed _ session rtp rtp' ops hm hl ht hr hset hs =>
    have hc := fds_of_some hr
    cases hp : env.peerAddr with
    | none =>
      rw [hp, RtpConnection.setupRtpOverUdp] at hset
      simp only [Prod.mk.injEq] at hset
      obtain ⟨-, rfl, rfl⟩ := hset
      rw [hp] at hs
      refine Alive.sent ?_ hs
      refine hsame hr _ rfl rfl ?_
      simp
    | some addr =>
      rw [hp] at hset hs
      obtain ⟨hfree, -⟩ := hsafe session hm hl (by simp [ht.1, ht.2]) (by simp [hp])
      obtain ⟨hsound, hheld, -, hrtcp, hother⟩ := udp_fds hset (kernelOk_sent hs rfl hk).2
      have hfree' : (slots c.log).rtcp req.channelId ≠ .live := fun hl => hfree (h.paired _ hl)
      refine Alive.sent ?_ hs
      refine h.setUp ho hfree rfl hsound hheld (fun d hd => ?_) rfl
        (fun d hd => ?_) ?_ ?_ ?_ ?_ (fun _ _ => rfl) (fun hne => ?_) (by simp)
      · rw [(hother d hd).1, (hother d hd).2, hc.1, hc.2]
        exact ⟨rfl, rfl⟩
      · cases env.attempts.1.any Attempt.rtpBound <;> simp [Slots.after, hd]
      · simp [Slots.after, Slot.Holds]
      · cases hany : env.attempts.1.any Attempt.rtpBound with
        | true => simp [Slots.after, Slot.Holds]
        | false =>
          have := h.rtcp req.channelId
          rw [hc.2, ← hrtcp hany] at this
          simpa [Slots.after] using this
      · cases env.attempts.1.any Attempt.rtpBound <;> simp [Slots.after, hfree']
      · cases env.attempts.1.any Attempt.rtpBound <;> simp [Slots.after, owned, hfree']
      · exact absurd (h.paired _ (h.remembered _ hne)) hfree

/-- A destructor that finds only sockets of the channels' own closes those. -/
theorem destroy_uses {rtp : RtpConnection} {s : Slots}
    (h : ∀ chn, (0 < rtp.rtpfd chn ↔ s.rtp chn = .live) ∧ (0 < rtp.rtcpfd chn ↔ s.rtcp chn = .live)) :
    rtp.destroy.flatMap FdOp.uses =
      (channels.flatMap (owned s rtp.rtpfd rtp.rtcpfd)).map .release := by
  have hone : ∀ {fd : Int} {p : Prop} [Decidable p], (0 < fd ↔ p) →
      (if 0 < fd then [FdOp.closed fd] else []).flatMap FdOp.uses =
        (if p then [fd] else []).map Use.release := by
    intro fd p _ hp
    by_cases h0 : 0 < fd
    · have h0' : 0 ≤ fd := by omega
      simp [h0, hp.mp h0, FdOp.uses, h0']
    · simp [h0, mt hp.mpr h0]
  unfold RtpConnection.destroy
  rw [List.flatMap_assoc, List.map_flatMap]
  congr 1
  funext chn
  rw [List.flatMap_append, hone (h chn).1, hone (h chn).2, owned, List.map_append]

/-- A connection that is gone has closed what it opened and left nothing in the scheduler. -/
structure Gone (c : RtspConnection) : Prop where
  closes : closesOk c.log = true
  open_nil : openFds c.log = []
  registered_nil : registered c.log = []

theorem Alive.destroy {c : RtspConnection} (h : Alive c) (hc : c.isClosed = true)
    (hg : Careful c .destroy) : Gone c.destroy := by
  have hreg : registered c.log = [] := by
    refine List.eq_nil_iff_forall_not_mem.mpr (fun fd hfd => ?_)
    rw [(h.scheduled fd hfd).1] at hc
    exact Bool.noConfusion hc
  have hlive : ∀ {s : Slot} {fd : Int}, s.Holds c.sockfd fd → s = .live → 0 < fd := by
    rintro s fd hs rfl
    exact hs
  have huses : fdUses ((c.rtpConn.toList.flatMap RtpConnection.destroy ++
      if 0 < c.sockfd then [FdOp.closed c.sockfd] else []).map Effect.fd) =
      (channels.flatMap (owned (slots c.log) c.rtpfd c.rtcpfd) ++ [c.sockfd]).map .release := by
    have hsock : (if 0 < c.sockfd then [FdOp.closed c.sockfd] else []).flatMap FdOp.uses =
        [.release c.sockfd] := by
      have h0 := h.sockfd
      have h0' : 0 ≤ c.sockfd := by omega
      simp [FdOp.uses, h0, h0']
    rw [fdUses_map_fd, List.flatMap_append, hsock, List.map_append]
    congr 1
    cases hr : c.rtpConn with
    | none =>
      have hzero : ∀ chn, c.rtpfd chn = 0 ∧ c.rtcpfd chn = 0 := by
        intro chn
        unfold RtspConnection.rtpfd RtspConnection.rtcpfd
        rw [hr]
        exact ⟨rfl, rfl⟩
      have hnone : ∀ chn, owned (slots c.log) c.rtpfd c.rtcpfd chn = [] := by
        intro chn
        have h1 : (slots c.log).rtp chn ≠ .live := fun he => by
          have := hlive (h.rtp chn) he
          rw [(hzero chn).1] at this
          omega
        have h2 : (slots c.log).rtcp chn ≠ .live := fun he => h1 (h.paired chn he)
        simp [owned, h1, h2]
      simp [hnone]
    | some rtp =>
      have hfds := fds_of_some hr
      rw [hfds.1, hfds.2]
      simp only [Option.toList_some, List.flatMap_cons, List.flatMap_nil, List.append_nil]
      refine destroy_uses (fun chn => ?_)
      obtain ⟨h1, h2⟩ := hg rtp (by rw [hr]; rfl) chn (RtspConnection.mem_channels chn)
      have h3 := h.rtp chn
      have h4 := h.rtcp chn
      rw [hfds.1] at h3
      rw [hfds.2] at h4
      exact ⟨⟨h1, hlive h3⟩, ⟨h2, hlive h4⟩⟩
  have hperm : (openFds c.log).Perm
      (channels.flatMap (owned (slots c.log) c.rtpfd c.rtcpfd) ++ [c.sockfd]) :=
    h.balance.trans (List.perm_append_singleton _ _).symm
  obtain ⟨hsound, hheld⟩ := release_all hperm
  refine ⟨?_, ?_, ?_⟩
  · show closesOk (c.log ++ _) = true
    rw [closesOk_append, huses, h.closes, hsound]
    rfl
  · show openFds (c.log ++ _) = []
    rw [openFds_append, huses, hheld]
  · refine List.eq_nil_iff_forall_not_mem.mpr (fun fd hfd => ?_)
    rcases mem_registered_append hfd with ⟨hr, -⟩ | hu
    · rw [hreg] at hr
      simp at hr
    · simp at hu

/-- One call keeps a connection in order. -/
theorem Alive.serve {c c' : RtspConnection} {i : Input} (h : Alive c) (hg : Careful c i)
    (hs : c.serve i = some c') (hk : kernelOk c'.log = true) :
    Alive c' ∨ c'.destroyed = true ∧ Gone c' := by
  have hclosure : ∀ {rtp rtp' : RtpConnection} {chn : MediaChannelId} {pkt : RtpPacket}
      {data : PacketData} {out : PacketData × Option Transmission}, c.rtpConn = some rtp →
      rtp.sendPacket chn pkt data = (rtp', out) → rtp'.rtpfd = c.rtpfd ∧ rtp'.rtcpfd = c.rtcpfd := by
    intro rtp rtp' chn pkt data out hr hsend
    have hsame := rtp.sendPacket_same chn pkt data
    rw [hsend] at hsame
    rw [(fds_of_some hr).1, (fds_of_some hr).2]
    exact ⟨hsame.1, hsame.2.1⟩
  unfold RtspConnection.serve at hs
  split at hs
  · simp at hs
  · cases i with
    | read reader =>
      dsimp only at hs
      split at hs
      · simp at hs
      · rw [← Option.some.inj hs]
        exact Or.inl (h.inert rfl rfl rfl (List.append_nil _).symm rfl rfl rfl (by simp))
    | request req env =>
      dsimp only at hs
      split at hs
      · simp at hs
      · rename_i ho
        have ho : c.isClosed = false := by simpa using ho
        rcases RtspConnection.handleCommand_cases hs with ⟨auth, -, -, -, -, hsent⟩ | ⟨d, he, hb⟩
        · refine Or.inl (Alive.sent ?_ hsent)
          exact h.inert rfl rfl rfl rfl rfl rfl rfl (by simp [Effect.inert])
        · have hcarried := fun session hm hl ht hp =>
            hg (@RtspConnection.Entered.carriedOut _ _ _ _ session he hm hl ht hp)
          obtain ⟨nonce, hasAuth, es, rfl, hes⟩ := he.eq
          have hinert : ∀ e ∈ Effect.dispatched req :: es, e.inert = true := by
            intro e hmem
            rcases List.mem_cons.mp hmem with rfl | hmem
            · rfl
            · obtain ⟨n, rfl⟩ := hes e hmem
              rfl
          have hslots : slots (c.log ++ .dispatched req :: es) = slots c.log := by
            rw [slots_append, slots_idle fun e hmem => idle_of_inert (hinert e hmem)]
          refine Or.inl (Alive.body ?_ ?_ hk ?_ hb)
          · exact h.inert rfl rfl rfl rfl rfl rfl rfl hinert
          · exact ho
          · intro session hm hl ht hp
            show (slots (c.log ++ .dispatched req :: es)).rtp req.channelId ≠ .live ∧ _
            rw [hslots]
            exact hcarried session hm hl ht hp
    | close env =>
      obtain ⟨es, hq⟩ := c.close_quiet env
      exact Or.inl (Option.some.inj hs ▸ h.quiet hq)
    | writable env =>
      obtain ⟨es, hq⟩ := c.handleWrite_quiet env
      exact Or.inl (Option.some.inj hs ▸ h.quiet hq)
    | push chn pkt taken =>
      obtain ⟨rtp, -, hc | ⟨hc, -⟩⟩ := RtspConnection.sendRtpPacket_cases hs
      · exact Or.inl (hc ▸ h)
      · rw [hc]
        exact Or.inl (h.inert rfl rfl rfl (List.append_nil _).symm rfl rfl rfl (by simp))
    | trigger data env =>
      obtain ⟨chn, pkt, rest, rtp, rtp', out, -, hr, hsend, hcase⟩ :=
        RtspConnection.runClosure_cases hs
      obtain ⟨hf, hf'⟩ := hclosure hr hsend
      rcases hcase with ⟨-, hc⟩ | ⟨bytes, es, -, hq⟩ | ⟨fd, peer, bytes, -, hc⟩
      · rw [hc]
        exact Or.inl (h.inert rfl rfl rfl (List.append_nil _).symm rfl hf hf' (by simp))
      · refine Or.inl (Alive.quiet ?_ hq)
        exact h.inert rfl rfl rfl rfl rfl hf hf' (by simp [Effect.inert])
      · rw [hc]
        have ht : rtp'.teardown.rtpfd = rtp'.rtpfd ∧ rtp'.teardown.rtcpfd = rtp'.rtcpfd := by
          unfold RtpConnection.teardown
          split <;> exact ⟨rfl, rfl⟩
        refine Or.inl (h.inert rfl rfl rfl rfl rfl ?_ ?_ (by simp [Effect.inert]))
        · cases env.sendto
          · exact ht.1.trans hf
          · exact hf
        · cases env.sendto
          · exact ht.2.trans hf'
          · exact hf'
    | destroy =>
      dsimp only at hs
      split at hs
      · rename_i hc
        rw [← Option.some.inj hs]
        exact Or.inr ⟨rfl, h.destroy hc hg⟩
      · simp at hs

theorem new_alive {fd : Int} (authInfo : Option DigestAuthentication) (request : RtspRequest)
    (h : 0 < fd) : Alive (RtspConnection.new fd authInfo request) := by
  have h0 : 0 ≤ fd := by omega
  refine ⟨rfl, h, ?_, ?_, fun _ => rfl, fun _ => rfl, ?_, ?_, ?_⟩
  · simp [RtspConnection.new, closesOk, fdUses, FdOp.uses, h0, sound]
  · simp [RtspConnection.new, openFds, fdUses, FdOp.uses, h0, held, slots, Slots.after, owned,
      Slots.none, channels]
  · intro chn hl
    simp [RtspConnection.new, slots, Slots.after, Slots.none] at hl
  · intro chn hne
    exact absurd rfl hne
  · simp [RtspConnection.new, registered]

/-- **Every descriptor is closed once.** In every run of a connection whose steps are careful,
whatever requests it gets, whatever `bind` answers and whenever it closes: nothing is closed that
is not open, and when the connection is gone nothing it opened is, and none of its channels is in
the scheduler. -/
theorem descriptors_closed_once (authInfo : Option DigestAuthentication) {c : RtspConnection}
    (hr : Reach (onKernel authInfo) Careful c) :
    closesOk c.log = true ∧
      (c.destroyed = true → openFds c.log = [] ∧ registered c.log = []) := by
  have hinv : Alive c ∨ c.destroyed = true ∧ Gone c := by
    refine hr.inv (P := fun c => Alive c ∨ c.destroyed = true ∧ Gone c) (fun s hs => ?_)
      (fun t i u ht hg hst => ?_)
    · obtain ⟨fd, request, hpos, rfl⟩ := hs
      exact Or.inl (new_alive authInfo request hpos)
    · obtain ⟨u', hserve, hu⟩ := Option.bind_eq_some_iff.mp hst
      split at hu
      · rename_i hk
        obtain rfl := Option.some.inj hu
        rcases ht with ht | ⟨hd, -⟩
        · exact ht.serve hg hserve hk
        · simp [RtspConnection.serve, hd] at hserve
      · simp at hu
  rcases hinv with h | ⟨-, h⟩
  · refine ⟨h.closes, fun hd => ?_⟩
    rw [h.present] at hd
    exact Bool.noConfusion hd
  · exact ⟨h.closes, fun _ => ⟨h.open_nil, h.registered_nil⟩⟩

/-- A client that sets the video track up over UDP and goes. -/
def overUdp : List Input :=
  [.request (.forLive .describe .rtpOverTcp .channel0 [(.cseq, [], 1)]) (Env.live 7 8),
    .request (.forLive .setup .rtpOverUdp .channel0
      [(.cseq, [], 2), (.rtpPort, [], 5000), (.rtcpPort, [], 5001)]) (Env.live 7 8),
    .close (Env.live 7 8), .destroy]

/-- A client that sets it up over TCP and goes. -/
def overTcp : List Input :=
  [.request (.forLive .describe .rtpOverTcp .channel0 [(.cseq, [], 1)]) (Env.live 7 8),
    .request (.forLive .setup .rtpOverTcp .channel0
      [(.cseq, [], 2), (.rtpChannel, [], 0), (.rtcpChannel, [], 1)]) (Env.live 7 8),
    .close (Env.live 7 8), .destroy]

/-- The connection they are served on. -/
def accepted : RtspConnection :=
  .new 5 none ⟨.none, .channel0, .rtpOverTcp, [], [], [], .parseRequestLine⟩

theorem accepted_start : (onKernel none).start accepted := ⟨5, _, by decide, rfl⟩

theorem descriptors_closed_once_udp :
    ∃ c : RtspConnection, fdUses c.log =
        [.acquire 5, .acquire 7, .acquire 8, .release 7, .release 8, .release 5] ∧
      c.destroyed = true ∧ closesOk c.log = true ∧
      (c.destroyed = true → openFds c.log = [] ∧ registered c.log = []) := by
  obtain ⟨c, hr, hc⟩ := reach_of_runFrom RtspConnection.serveOnKernel Careful accepted overUdp
    (fun c => (fdUses c.log, c.destroyed))
    ([.acquire 5, .acquire 7, .acquire 8, .release 7, .release 8, .release 5], true)
    accepted_start (by decide +kernel)
  have h := descriptors_closed_once none hr
  exact ⟨c, congrArg Prod.fst hc, congrArg Prod.snd hc, h⟩

/-- **Over TCP the socket is closed three times**: `SetupRtpOverTcp` puts it into both slots. -/
theorem descriptors_closed_thrice :
    ¬ ∀ (authInfo : Option DigestAuthentication) (c : RtspConnection),
      Reach (onKernel authInfo) (anyStep _ _) c → closesOk c.log = true ∧
        (c.destroyed = true → openFds c.log = [] ∧ registered c.log = []) := by
  intro h
  obtain ⟨c, hr, hc⟩ := reach_of_runFrom RtspConnection.serveOnKernel (anyStep _ _) accepted overTcp
    (fun c => fdUses c.log) [.acquire 5, .release 5, .release 5, .release 5]
    accepted_start (by decide +kernel)
  have := (h none c hr).1
  rw [closesOk, hc] at this
  simp [sound] at this

end Maixii.Xop
