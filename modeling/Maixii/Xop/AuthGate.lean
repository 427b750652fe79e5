import Maixii.Xop.RtspSteps

/-!
# `Xop/AuthGate.lean`: nothing happens before the digest is right

A connection accepted while the server has authentication info. Its gate is **shut** until
`HandleAuthentication` has accepted a response: there is no RTP connection, no session, and
nothing guarded has been done (`Shut`). Afterwards it is **open** for good, and the log says by
which request (`Open`). `Inv` is the two together; `serve_inv` is one step.

The hash is any function, the nonces are whatever the generator gives, and the requests are any
values of `RtspRequest`.
-/

set_option autoImplicit false

namespace Maixii.Xop

open Maixii.Lib Maixii.Net

/-- What only an authenticated client may cause. -/
def Effect.guarded : Effect → Bool
  | .clientAdded _ | .described _ | .setUp _ _ | .played | .framed _ _ _ | .sentTo _ _ _ _ => true
  | _ => false

/-- The response made with this nonce was accepted here. -/
def Effect.authorizes (n : Bytes) : Effect → Bool
  | .authorized _ m => m = n
  | _ => false

/-- The nonce of a 401. -/
def Effect.challenge : Effect → Option Bytes
  | .challenged n => some n
  | _ => none

/-- The nonce of the most recent 401. -/
def lastNonce (log : List Effect) : Option Bytes := (log.filterMap Effect.challenge).getLast?

/-- A request that authenticates was dispatched with the right response to the nonce of the most
recent 401. -/
def Authorized (auth : DigestAuthentication) (log : List Effect) : Prop :=
  ∃ a req n b, log = a ++ .dispatched req :: b ∧
    (req.method = .describe ∨ req.method = .setup ∨ req.method = .play) ∧
    lastNonce a = some n ∧
    req.authResponse = auth.getResponse n req.method.toBytes req.getRtspUrl

theorem Authorized.append {auth : DigestAuthentication} {log : List Effect}
    (h : Authorized auth log) (es : List Effect) : Authorized auth (log ++ es) := by
  obtain ⟨a, req, n, b, hl, h1, h2, h3⟩ := h
  exact ⟨a, req, n, b ++ es, by simp [hl], h1, h2, h3⟩

theorem lastNonce_append (l m : List Effect) :
    lastNonce (l ++ m) = (lastNonce m).or (lastNonce l) := by
  simp [lastNonce, List.filterMap_append, List.getLast?_append]

/-- Neither guarded nor part of the authentication. -/
def Effect.Plain (e : Effect) : Prop :=
  e.guarded = false ∧ (∀ req n, e ≠ .authorized req n) ∧ e.challenge = none

theorem plain_of_plumbing {fd : Int} {e : Effect} (h : Plumbing fd e) : e.Plain := by
  cases h <;> exact ⟨rfl, by simp, rfl⟩

theorem lastNonce_plain {es : List Effect} (h : ∀ e ∈ es, e.Plain) : lastNonce es = none := by
  rw [lastNonce, List.filterMap_eq_nil_iff.mpr (fun e he => (h e he).2.2)]
  rfl

section

variable (auth : DigestAuthentication)

/-- Nobody has authenticated. -/
structure Shut (c : RtspConnection) : Prop where
  hasAuth : c.hasAuth = false
  rtpConn : c.rtpConn = none
  closures : c.closures = []
  log : ∀ e ∈ c.log, e.guarded = false ∧ ∀ req n, e ≠ .authorized req n
  nonce : c.nonce = (lastNonce c.log).getD []

/-- Somebody has: `pre` is the log up to the request that was accepted. -/
structure Open (c : RtspConnection) : Prop where
  hasAuth : c.hasAuth = true
  nonce : c.nonce = []
  log : ∃ pre req n post, c.log = pre ++ .dispatched req :: .authorized req n :: post ∧
    (∀ e ∈ pre, e.guarded = false ∧ ∀ r m, e ≠ .authorized r m) ∧
    (∀ e ∈ post, ∀ r m, e ≠ .authorized r m) ∧
    Authorized auth (pre ++ [.dispatched req])

/-- The gate. -/
def Inv (c : RtspConnection) : Prop :=
  c.authInfo = some auth ∧ (Shut c ∨ Open auth c)

variable {auth}

/-- Effects that are plain leave a shut gate shut. -/
theorem Shut.plain {c c' : RtspConnection} {es : List Effect} (h : Shut c)
    (hh : c'.hasAuth = c.hasAuth) (hr : c'.rtpConn = c.rtpConn) (hc : c'.closures = c.closures)
    (hn : c'.nonce = c.nonce) (hl : c'.log = c.log ++ es) (hes : ∀ e ∈ es, e.Plain) : Shut c' := by
  refine ⟨hh.trans h.hasAuth, hr.trans h.rtpConn, hc.trans h.closures, ?_, ?_⟩
  · intro e he
    rw [hl] at he
    rcases List.mem_append.mp he with he | he
    · exact h.log e he
    · exact ⟨(hes e he).1, (hes e he).2.1⟩
  · rw [hn, hl, lastNonce_append, lastNonce_plain hes, Option.none_or]
    exact h.nonce

/-- Whatever follows, an open gate stays open. -/
theorem Open.append {c c' : RtspConnection} {es : List Effect} (h : Open auth c)
    (hh : c'.hasAuth = c.hasAuth) (hn : c'.nonce = c.nonce) (hl : c'.log = c.log ++ es)
    (hes : ∀ e ∈ es, ∀ r m, e ≠ .authorized r m) : Open auth c' := by
  obtain ⟨pre, req, n, post, hlog, h1, h2, h3⟩ := h.log
  refine ⟨hh.trans h.hasAuth, hn.trans h.nonce, pre, req, n, post ++ es, ?_, h1, ?_, h3⟩
  · rw [hl, hlog]
    simp
  · intro e he
    rcases List.mem_append.mp he with he | he
    · exact h2 e he
    · exact hes e he

/-- Something quiet happens. -/
theorem Inv.quiet {c c' : RtspConnection} {es : List Effect} (h : Inv auth c)
    (hq : RtspConnection.Quiet c es c') : Inv auth c' := by
  have hf := hq.frame
  refine ⟨hf.authInfo.trans h.1, ?_⟩
  rcases h.2 with hs | ho
  · exact Or.inl (hs.plain hf.hasAuth hf.rtpConn hf.closures hf.nonce hq.log
      fun e he => plain_of_plumbing (hq.plumbing e he))
  · exact Or.inr (ho.append hf.hasAuth hf.nonce hq.log
      fun e he => (plain_of_plumbing (hq.plumbing e he)).2.1)

/-- An open gate stays open through a handler's body. -/
theorem Open.body {c c' : RtspConnection} {env : Env} {req : RtspRequest} (h : Open auth c)
    (hb : RtspConnection.Body c env req c') : Open auth c' := by
  have hk := hb.kept
  obtain ⟨es, hl, hes⟩ := hk.log
  exact h.append hk.hasAuth hk.nonce hl fun e he => (hes e he).1

/-- Behind a shut gate a handler that does not authenticate finds nothing to work on. -/
theorem Shut.body {c c' : RtspConnection} {env : Env} {req : RtspRequest} (h : Shut c)
    (hm : RtspRequest.authenticates req.method = false)
    (hb : RtspConnection.Body c env req c') : Shut c' := by
  have hres : ∀ {signed : Bool}, RtspConnection.Sent c env req signed c' → Shut c' := by
    intro signed hs
    obtain ⟨hf, res, es, hl, hp⟩ := hs.log
    refine h.plain hf.hasAuth hf.rtpConn hf.closures hf.nonce hl (fun e he => ?_)
    rcases List.mem_cons.mp he with rfl | he
    · exact ⟨rfl, by simp, rfl⟩
    · exact plain_of_plumbing (hp e he)
  have hno : ∀ m, req.method = m → RtspRequest.authenticates m = true → False := by
    intro m he ht
    rw [he, ht] at hm
    exact Bool.noConfusion hm
  cases hb with
  | ignored _ => exact h
  | options _ hs => exact hres hs
  | notFound hd _ _ | described hd _ _ _ | unsupported hd _ _ _ | noSession hd _ _
  | multicast hd _ _ _ _ _ | tcp hd _ _ _ _ | udp hd _ _ _ _ _ | udpFailed hd _ _ _ _ _
  | played hd _ _ => exact (hno _ hd rfl).elim
  | tornDown _ hr _ | parameter _ hr _ =>
    rw [h.rtpConn] at hr
    simp at hr

/-- Entering a handler. -/
theorem Shut.dispatched {c : RtspConnection} (h : Shut c) (req : RtspRequest) :
    Shut (c.emit [.dispatched req]) :=
  h.plain rfl rfl rfl rfl rfl (by simp [Effect.Plain, Effect.guarded, Effect.challenge])

theorem authenticates_cases {m : Method} (h : RtspRequest.authenticates m = true) :
    m = .describe ∨ m = .setup ∨ m = .play := by
  cases m <;> simp_all [RtspRequest.authenticates]

/-- **The gate opens** on the right response, and on nothing else. -/
theorem Shut.passed {c d : RtspConnection} {req : RtspRequest} (h : Shut c)
    (ha : c.authInfo = some auth) (hm : RtspRequest.authenticates req.method = true)
    (hp : RtspConnection.Passed (c.emit [.dispatched req]) req d) : Open auth d := by
  cases hp with
  | free hf =>
    have hn : c.authInfo = none ∨ c.hasAuth = true := hf
    rw [ha, h.hasAuth] at hn
    simp at hn
  | now ha' _ hn he =>
    have haeq : some auth = some _ := ha.symm.trans ha'
    obtain rfl := Option.some.inj haeq
    have hnonce : c.nonce ≠ [] := hn
    have hlast : lastNonce c.log = some c.nonce := by
      have := h.nonce
      cases hl : lastNonce c.log with
      | none => rw [hl] at this; exact absurd this hnonce
      | some n => rw [hl] at this; simp [this]
    refine ⟨rfl, rfl, c.log, req, c.nonce, [], ?_, h.log, by simp, ?_⟩
    · simp [RtspConnection.emit]
    · exact ⟨c.log, req, c.nonce, [], rfl, authenticates_cases hm, hlast, he.symm⟩

theorem handleCommand_inv {c c' : RtspConnection} {env : Env} {req : RtspRequest}
    (h : Inv auth c) (hc : c.handleCommand env req = some c') : Inv auth c' := by
  obtain ⟨ha, hgate⟩ := h
  rcases RtspConnection.handleCommand_cases hc with ⟨auth', ha', hh, -, -, hs⟩ | ⟨d, he, hb⟩
  · -- A 401: the gate must be shut, and the new nonce is the one remembered.
    rcases hgate with hshut | hopen
    · obtain ⟨hf, res, es, hl, hp⟩ := hs.log
      refine ⟨hf.authInfo.trans ha, Or.inl ⟨hf.hasAuth.trans hh, hf.rtpConn.trans hshut.rtpConn,
        hf.closures.trans hshut.closures, ?_, ?_⟩⟩
      · intro e he
        rw [hl] at he
        simp only [RtspConnection.emit, List.mem_append, List.mem_cons, List.not_mem_nil,
          or_false] at he
        rcases he with (he | rfl | rfl) | rfl | he
        · exact hshut.log e he
        · exact ⟨rfl, by simp⟩
        · exact ⟨rfl, by simp⟩
        · exact ⟨rfl, by simp⟩
        · exact ⟨(plain_of_plumbing (hp e he)).1, (plain_of_plumbing (hp e he)).2.1⟩
      · have hes : lastNonce (.responded res
            (({ c with nonce := env.nonce }.emit [.dispatched req, .challenged env.nonce]).takes res)
            :: es) = none := by
          refine lastNonce_plain (fun e he => ?_)
          rcases List.mem_cons.mp he with rfl | he
          · exact ⟨rfl, by simp, rfl⟩
          · exact plain_of_plumbing (hp e he)
        have hnew : lastNonce [.dispatched req, .challenged env.nonce] = some env.nonce := rfl
        rw [hf.nonce, hl, lastNonce_append, hes, Option.none_or, RtspConnection.emit,
          lastNonce_append, hnew]
        rfl
    · rw [hopen.hasAuth] at hh
      exact Bool.noConfusion hh
  · have hk := hb.kept
    have hda : d.authInfo = some auth := by
      unfold RtspConnection.Entered at he
      split at he
      · cases he with
        | free _ => exact ha
        | now _ _ _ _ => exact ha
      · rw [he]
        exact ha
    refine ⟨hk.authInfo.trans hda, ?_⟩
    unfold RtspConnection.Entered at he
    split at he
    · rename_i hm
      rcases hgate with hshut | hopen
      · exact Or.inr ((hshut.passed ha hm he).body hb)
      · have hd : Open auth d := by
          cases he with
          | free _ => exact hopen.append rfl rfl rfl (by simp)
          | now _ hh _ _ =>
            have hh' : c.hasAuth = false := hh
            rw [hopen.hasAuth] at hh'
            exact Bool.noConfusion hh'
        exact Or.inr (hd.body hb)
    · rename_i hm
      rw [he] at hb
      rcases hgate with hshut | hopen
      · exact Or.inl ((hshut.dispatched req).body (by simpa using hm) hb)
      · have hd : Open auth (c.emit [.dispatched req]) := hopen.append rfl rfl rfl (by simp)
        exact Or.inr (hd.body hb)

/-- One call keeps the gate. -/
theorem serve_inv {c c' : RtspConnection} {i : Input} (h : Inv auth c)
    (hs : c.serve i = some c') : Inv auth c' := by
  unfold RtspConnection.serve at hs
  split at hs
  · simp at hs
  · cases i with
    | read reader =>
      dsimp only at hs
      split at hs
      · simp at hs
      · rw [← Option.some.inj hs]
        refine ⟨h.1, ?_⟩
        rcases h.2 with hsh | ho
        · exact Or.inl (hsh.plain rfl rfl rfl rfl (List.append_nil _).symm (by simp))
        · exact Or.inr (ho.append rfl rfl (List.append_nil _).symm (by simp))
    | request req env =>
      dsimp only at hs
      split at hs
      · simp at hs
      · exact handleCommand_inv h hs
    | close env =>
      obtain ⟨es, hq⟩ := c.close_quiet env
      exact Option.some.inj hs ▸ h.quiet hq
    | writable env =>
      obtain ⟨es, hq⟩ := c.handleWrite_quiet env
      exact Option.some.inj hs ▸ h.quiet hq
    | push chn pkt taken =>
      obtain ⟨rtp, hr, hc | ⟨hc, -⟩⟩ := RtspConnection.sendRtpPacket_cases hs
      · exact hc ▸ h
      · rw [hc]
        refine ⟨h.1, ?_⟩
        rcases h.2 with hsh | ho
        · rw [hsh.rtpConn] at hr
          simp at hr
        · exact Or.inr (ho.append rfl rfl (List.append_nil _).symm (by simp))
    | trigger data env =>
      obtain ⟨chn, pkt, rest, rtp, rtp', out, -, hr, -, hcase⟩ := RtspConnection.runClosure_cases hs
      rcases h.2 with hsh | ho
      · rw [hsh.rtpConn] at hr
        simp at hr
      · rcases hcase with ⟨-, hc⟩ | ⟨bytes, es, -, hq⟩ | ⟨fd, peer, bytes, -, hc⟩
        · rw [hc]
          exact ⟨h.1, Or.inr (ho.append rfl rfl (List.append_nil _).symm (by simp))⟩
        · have hq' : Inv auth (RtspConnection.queue
              { c with closures := rest, rtpConn := some rtp' } bytes (.framed chn bytes)) :=
            ⟨h.1, Or.inr (ho.append rfl rfl rfl (by simp))⟩
          exact hq'.quiet hq
        · rw [hc]
          exact ⟨h.1, Or.inr (ho.append rfl rfl rfl (by simp))⟩
    | destroy =>
      dsimp only at hs
      split at hs
      · rw [← Option.some.inj hs]
        refine ⟨h.1, ?_⟩
        rcases h.2 with hsh | ho
        · refine Or.inl (hsh.plain rfl hsh.rtpConn.symm rfl rfl rfl (fun e he => ?_))
          simp only [hsh.rtpConn, Option.toList_none, List.flatMap_nil, List.nil_append,
            List.mem_map] at he
          obtain ⟨op, hop, rfl⟩ := he
          split at hop <;> simp at hop
          subst hop
          exact ⟨rfl, by simp, rfl⟩
        · refine Or.inr (ho.append rfl rfl rfl (fun e he => ?_))
          obtain ⟨op, -, rfl⟩ := List.mem_map.mp he
          simp
      · simp at hs

theorem new_inv (fd : Int) (request : RtspRequest) :
    Inv auth (RtspConnection.new fd (some auth) request) :=
  ⟨rfl, Or.inl ⟨rfl, rfl, rfl, by simp [RtspConnection.new, Effect.guarded], rfl⟩⟩

theorem reach_inv {c : RtspConnection}
    (hr : Reach (RtspConnection.requests (some auth)) (anyStep _ _) c) : Inv auth c := by
  refine hr.inv (fun s hs => ?_) (fun t i u ht _ hst => serve_inv ht hst)
  obtain ⟨fd, request, -, rfl⟩ := hs
  exact new_inv fd request

end

/-- A list that begins with `a` has its first `P` behind `a`, if `a` has none. -/
theorem prefix_of_first {α : Type} {P : α → Prop} {a b pre post : List α} {e : α}
    (h : a ++ b = pre ++ e :: post) (ha : ∀ x ∈ a, ¬ P x) (he : P e) : ∃ m, pre = a ++ m := by
  rcases List.append_eq_append_iff.mp h with ⟨m, hm, -⟩ | ⟨m, hm, hb⟩
  · exact ⟨m, hm⟩
  · cases m with
    | nil => exact ⟨[], by simpa using hm.symm⟩
    | cons x m =>
      rw [List.cons_append, List.cons.injEq] at hb
      exact absurd he (ha e (by rw [hm, hb.1]; simp))

/-- **The digest gate.** In every run of a connection accepted with authentication on, whatever
bytes it reads and whatever is pushed at it: a client is added, an SDP sent, a channel set up, the
stream played or a packet sent only after a request was dispatched with the
right response to the nonce of the last 401; without one there is no RTP connection at all; no
nonce is accepted twice, and the one remembered is the last one given out, or none once it has
been used. -/
theorem auth_gate (charSigned : Bool) (auth : DigestAuthentication) {c : RtspConnection}
    (hr : Reach (RtspConnection.socket charSigned (some auth)) (anyStep _ _) c) :
    (∀ pre e post, c.log = pre ++ e :: post → e.guarded = true → Authorized auth pre) ∧
    (c.rtpConn ≠ none → Authorized auth c.log) ∧
    (∀ n, (c.log.filter (Effect.authorizes n)).length ≤ 1) ∧
    c.nonce = if c.hasAuth then [] else (lastNonce c.log).getD [] := by
  have hplain : ∀ {l : List Effect} (n : Bytes), (∀ e ∈ l, ∀ r m, e ≠ .authorized r m) →
      l.filter (Effect.authorizes n) = [] := by
    intro l n h
    refine List.filter_eq_nil_iff.mpr (fun e he => ?_)
    cases e with
    | authorized r m => exact absurd rfl (h _ he r m)
    | _ => simp [Effect.authorizes]
  obtain ⟨-, hs | ho⟩ := reach_inv (RtspConnection.reach_requests hr)
  · refine ⟨?_, fun h => absurd hs.rtpConn h, fun n => ?_, ?_⟩
    · intro pre e post hl he
      rw [(hs.log e (by rw [hl]; simp)).1] at he
      exact Bool.noConfusion he
    · rw [hplain n fun e he => (hs.log e he).2]
      exact Nat.zero_le _
    · rw [hs.hasAuth]
      exact hs.nonce
  · obtain ⟨a, req, n, b, hlog, ha, hb, hauth⟩ := ho.log
    refine ⟨?_, fun _ => ?_, fun n' => ?_, ?_⟩
    · intro pre e post hl he
      have hl' : (a ++ [.dispatched req]) ++ .authorized req n :: b = pre ++ e :: post := by
        rw [← hl, hlog, List.append_assoc]
        rfl
      obtain ⟨m, rfl⟩ := prefix_of_first (P := fun e => e.guarded = true) hl' (fun x hx => by
        rcases List.mem_append.mp hx with hx | hx
        · rw [(ha x hx).1]
          exact Bool.false_ne_true
        · rw [List.mem_singleton.mp hx]
          exact Bool.false_ne_true) he
      exact hauth.append m
    · have := hauth.append (.authorized req n :: b)
      rwa [List.append_assoc, List.singleton_append, ← hlog] at this
    · rw [hlog, List.filter_append, hplain n' fun e he => (ha e he).2, List.nil_append,
        List.filter_cons_of_neg (by simp [Effect.authorizes]), List.filter_cons]
      split <;> simp [hplain n' hb]
    · rw [ho.hasAuth]
      exact ho.nonce

/-- A client that has not authenticated asks for a description. -/
def barred : List SocketInput :=
  [.recv ⟨ascii "DESCRIBE rtsp://h/live RTSP/1.0\r\nCSeq: 1\r\nAccept: application/sdp\r\n\r\n",
    by decide, by decide⟩ Env.idle]

/-- A hash under which every right response is empty. -/
def blankDigest : DigestAuthentication := ⟨[1], [2], [3], fun _ => []⟩

theorem auth_gate_barred :
    ∃ c : RtspConnection, lastNonce c.log = some [1] ∧
      (∀ pre e post, c.log = pre ++ e :: post → e.guarded = true →
        Authorized blankDigest pre) ∧
      c.nonce = if c.hasAuth then [] else (lastNonce c.log).getD [] := by
  have hs : (RtspConnection.socket false (some blankDigest)).start
      (RtspConnection.new 5 (some blankDigest)
        ⟨.none, .channel0, .rtpOverTcp, [], [], [], .parseRequestLine⟩) :=
    ⟨5, _, by decide, rfl⟩
  obtain ⟨c, hr, hn⟩ := reach_of_runFrom (RtspConnection.step false) (anyStep _ _) _
    barred (fun c => lastNonce c.log) (some [1]) hs (by decide +kernel)
  have h := auth_gate false _ hr
  exact ⟨c, hn, h.1, h.2.2.2⟩

end Maixii.Xop
