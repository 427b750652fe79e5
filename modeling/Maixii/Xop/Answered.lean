import Maixii.Xop.Descriptors
import Maixii.Xop.RtspText

/-!
# `Xop/Answered.lean`: every request is answered

A client that sends one request at a time, each in one piece, and waits. Between requests the
reader is at rest: the parser has nothing and the buffer is empty (`AtRest`). A request that comes
in is read whole, its handler runs once, and the reader is at rest again (`onRead_request`); the
handler queues one response with the request's `CSeq`, unless it finds no RTP connection to speak
for.

`Answerable` is the condition: what the parser takes for granted of the text, and what the handler
takes for granted of the connection. Everything else is answered (`every_request_answered`).
-/

set_option autoImplicit false

namespace Maixii.Xop

open Maixii.Lib Maixii.Net

/-! ## Requests with a body -/

/-- What the parser gets to see as headers: everything behind the request line, up to the last
CR LF. -/
def Request.message (q : Request) (body : Bytes) : Bytes :=
  if body = [] then unlines q.headers else unlines q.headers ++ crlf ++ body.take (body.length - 2)

/-- A request and its body. -/
def Request.wire (q : Request) (body : Bytes) : Bytes := q.text ++ body

theorem Request.wire_eq (q : Request) {body : Bytes} (h : body = [] ∨ crlf <:+ body) :
    q.wire body = q.line ++ crlf ++ (q.message body ++ crlf ++ []) := by
  have htext : q.text = q.line ++ crlf ++ (unlines q.headers ++ crlf) := by
    simp [Request.text, Request.lines]
  unfold Request.wire Request.message
  rw [htext]
  by_cases hb : body = []
  · simp [hb]
  · obtain ⟨b, rfl⟩ := h.resolve_left hb
    simp [crlf]

/-- The headers begin with the lines before the `CSeq`, and with it. -/
theorem Request.message_eq (q : Request) (body : Bytes) :
    ∃ rest, q.message body = unlines q.before ++ q.cseqLine ++ rest ∧ Stops isDigit rest := by
  have hheaders : unlines q.headers =
      unlines q.before ++ q.cseqLine ++ (crlf ++ unlines q.after) := by
    simp [Request.headers]
  unfold Request.message
  split
  · exact ⟨_, hheaders, stops_cons (by decide)⟩
  · refine ⟨crlf ++ (unlines q.after ++ (crlf ++ body.take (body.length - 2))), ?_,
      stops_cons (by decide)⟩
    rw [hheaders]
    simp

/-! ## The reader -/

/-- Nothing is half read. -/
structure AtRest (x : RtspReader) : Prop where
  request : Between x.request
  buffer : x.buffer.writerIndex = 0

/-- **One request, one command.** -/
theorem onRead_request (charSigned : Bool) {r : RtspRequest} {b : BufferReader} {q : Request}
    {body : Bytes} (h : Between r) (hb : b.readable = q.wire body) (hq : q.plain = true)
    (hbody : body = [] ∨ crlf <:+ body) (hc : completes q.method (q.message body) = true)
    (ha : RtspRequest.authenticates q.method = true →
      (readAuthorization (q.message body)).isSome = true) :
    ∃ req o, onRead charSigned ⟨r, b⟩ = some o ∧ o.command = some req ∧ AtRest o.reader ∧
      Ready q (q.message body) req := by
  rw [q.wire_eq hbody] at hb
  obtain ⟨r₁, b₁, hin, hb₁, hparse⟩ := parseRequest_line h hq hb
  obtain ⟨rest, hmsg, hrest⟩ := q.message_eq body
  have hcseq : RtspRequest.cseqOf (q.message body) = some q.cseq := by
    rw [hmsg]
    exact cseqOf_headers hq hrest
  obtain ⟨req, b₂, hround, hb₂, hw, hready⟩ :=
    headersRound_eq true hin hb₁ noCrlf_nil (Or.inr hcseq) ha
  rw [if_pos hc] at hready
  have hgot : req.gotAll = true := by simp [RtspRequest.gotAll, hready.state]
  have hread := onRead_of_parse charSigned (x := ⟨r, b⟩) (r := req) (b := b₂)
    (by rw [hb, Request.line]; simp) (hparse.trans hround)
    (by rw [hready.method]; exact q.method_known.1) (by rw [hready.method]; exact q.method_known.2)
    (by rw [hb₂]; exact Nat.zero_le _)
  simp only [hgot, if_true] at hread
  exact ⟨req, _, hread, rfl, ⟨between_reset req, hw rfl⟩, hready⟩

/-! ## The response -/

/-- A response that begins with a status line and this `CSeq`. -/
def HasCSeq (res : Bytes) (n : Nat) : Prop :=
  ∃ status rest, (13 : UInt8) ∉ status ∧
    res = ascii "RTSP/1.0 " ++ status ++ crlf ++ ascii "CSeq: " ++ decimal n ++ crlf ++ rest

theorem length_decimalAux_le : ∀ (fuel n : Nat) (acc : Bytes) (k : Nat), n < 10 ^ (k + 1) →
    (decimalAux fuel n acc).length ≤ acc.length + k + 1 := by
  intro fuel
  induction fuel with
  | zero =>
    intro n acc k _
    simp only [decimalAux]
    omega
  | succ fuel ih =>
    intro n acc k hn
    rw [decimalAux]
    split
    · simp only [List.length_cons]
      omega
    · cases k with
      | zero =>
        rename_i h10
        exact absurd (by simpa using hn) h10
      | succ k =>
        have hdiv : n / 10 < 10 ^ (k + 1) := by
          rw [Nat.div_lt_iff_lt_mul (by decide), ← Nat.pow_succ]
          exact hn
        have := ih (n / 10) (digit (n % 10) :: acc) k hdiv
        simp only [List.length_cons] at this
        omega

/-- A 32-bit number has at most ten digits. -/
theorem length_decimal_le {n : Nat} (h : n < 2 ^ 32) : (decimal n).length ≤ 10 := by
  have := length_decimalAux_le (n + 1) n [] 9 (Nat.lt_trans h (by decide))
  rw [List.length_nil] at this
  exact this

/-- What fits into the buffer and has no NUL in it survives `snprintf`. -/
theorem snprintf_append {size : Nat} {s t : Bytes} (hs : (0 : UInt8) ∉ s)
    (hlen : s.length ≤ size - 1) :
    ∃ rest, RtspRequest.snprintf size (s ++ t) = s ++ rest := by
  refine ⟨cstr (t.take (size - 1 - s.length)), ?_⟩
  rw [RtspRequest.snprintf, List.take_append, List.take_of_length_le hlen, cstr_append hs]

/-- **A response carries the request's `CSeq`**, unless `%d` has made it negative. -/
theorem Answers.hasCSeq {req : RtspRequest} {signed : Bool} {res : Bytes}
    (h : RtspConnection.Answers req signed res) (hlt : req.getCSeq < 2 ^ 32)
    (hs : signed = true → req.getCSeq < 2 ^ 31) : HasCSeq res req.getCSeq := by
  obtain ⟨size, status, headers, body, hsize, hstatus, hlen, rfl⟩ := h
  have htext : (if signed then RtspRequest.signedDecimal req.getCSeq else decimal req.getCSeq) =
      decimal req.getCSeq := by
    split
    · rename_i hsg
      rw [RtspRequest.signedDecimal, if_pos (hs hsg)]
    · rfl
  rw [htext]
  have hnul : (0 : UInt8) ∉ ascii "RTSP/1.0 " ++ status ++ crlf ++ ascii "CSeq: " ++
      decimal req.getCSeq ++ crlf := by
    simp only [List.mem_append, not_or]
    exact ⟨⟨⟨⟨⟨by decide, fun hm => (hstatus 0 hm).1 rfl⟩, by decide⟩, by decide⟩,
      not_mem_decimal (by decide)⟩, by decide⟩
  have hdec := length_decimal_le hlt
  have hpre : (ascii "RTSP/1.0 " ++ status ++ crlf ++ ascii "CSeq: " ++ decimal req.getCSeq ++ crlf
      ).length ≤ size - 1 := by
    have h1 : (ascii "RTSP/1.0 ").length = 9 := rfl
    have h2 : (ascii "CSeq: ").length = 6 := rfl
    have h3 : crlf.length = 2 := rfl
    simp only [List.length_append, h1, h2, h3]
    omega
  obtain ⟨rest, hrest⟩ := snprintf_append (t := headers.flatMap (· ++ crlf) ++ crlf ++ body) hnul hpre
  refine ⟨status, rest, fun hm => (hstatus 13 hm).2 rfl, ?_⟩
  rw [← hrest, RtspRequest.response]
  simp only [List.append_assoc]

/-! ## The condition -/

/-- The request gets past the authentication. -/
def admits (c : RtspConnection) (q : Request) (message : Bytes) : Bool :=
  match c.authInfo with
  | none => true
  | some auth => c.hasAuth || (decide (c.nonce ≠ []) &&
      decide (auth.getResponse c.nonce q.method.toBytes q.url = (readAuthorization message).getD []))

/-- The handler speaks for the RTP connection. -/
def needsRtp (c : RtspConnection) (q : Request) (message : Bytes) : Bool :=
  match q.method with
  | .play => admits c q message
  | .teardown | .getParameter => true
  | _ => false

/-- The response prints its `CSeq` with `%d`. -/
def printsSigned (c : RtspConnection) (env : Env) (q : Request) (message : Bytes) : Bool :=
  match q.method with
  | .options => false
  | .describe => !admits c q message
  | .setup => !admits c q message ||
      match env.rtsp.bind fun r => r.lookId c.sessionId, readTransport message with
      | some session, .found mode _ _ => session.isMulticast != decide (mode = .rtpOverMulticast)
      | _, _ => false
  | _ => true

/-- **The condition.** The text is as the parser takes for granted, its headers make the request
complete, and it ends with a line; the connection is open, with room in the send queue and, if the
handler needs one, an RTP connection; and the `CSeq` survives `%d`, if it is printed so. -/
def Answerable (c : RtspConnection) (env : Env) (q : Request) (body : Bytes) : Prop :=
  (q.plain = true ∧ (body = [] ∨ crlf <:+ body) ∧ completes q.method (q.message body) = true ∧
    (RtspRequest.authenticates q.method = true →
      (readAuthorization (q.message body)).isSome = true)) ∧
  c.isClosed = false ∧ c.writeBuffer.isFull = false ∧
  (needsRtp c q (q.message body) = true → c.rtpConn ≠ none) ∧
  (printsSigned c env q (q.message body) = true → q.cseq < 2 ^ 31)

/-! ## One handler, one response -/

/-- The responses in a log, and whether the send queue took them. -/
def responses (log : List Effect) : List (Bytes × Bool) :=
  log.filterMap fun e => match e with
    | .responded bytes queued => some (bytes, queued)
    | _ => none

theorem responses_append (l m : List Effect) : responses (l ++ m) = responses l ++ responses m :=
  List.filterMap_append

/-- From `c` to `c'` one response was queued, with this `CSeq`. -/
def AnsweredOnce (c c' : RtspConnection) (n : Nat) : Prop :=
  ∃ es res, c'.log = c.log ++ es ∧ responses es = [(res, true)] ∧ HasCSeq res n

/-- What a handler does, as far as responses go: something without one, and then one; or nothing,
for want of an RTP connection. -/
theorem RtspConnection.Body.answer {c c' : RtspConnection} {env : Env} {req : RtspRequest}
    (h : RtspConnection.Body c env req c') (hm : req.method ≠ .rtcp ∧ req.method ≠ .none) :
    (c.rtpConn = none ∧ (req.method = .play ∨ req.method = .teardown ∨
      req.method = .getParameter)) ∨
    ∃ signed x es, RtspConnection.Sent x env req signed c' ∧ x.log = c.log ++ es ∧ responses es = [] ∧
      x.writeBuffer = c.writeBuffer ∧ x.isClosed = c.isClosed ∧ x.reader = c.reader ∧
      x.destroyed = c.destroyed ∧ (x.rtpConn = none → x.sessionId = c.sessionId ∧ c.rtpConn = none) ∧
      (signed = true → req.method = .play ∨ req.method = .teardown ∨ req.method = .getParameter ∨
        req.method = .setup ∧ ∃ session,
          (env.rtsp.bind fun r => r.lookId c.sessionId) = some session ∧
          session.isMulticast ≠ decide (req.transport = .rtpOverMulticast)) := by
  have hops : ∀ (ops : List FdOp) (es : List Effect), responses es = [] →
      responses (ops.map Effect.fd ++ es) = [] := by
    intro ops es hes
    rw [responses_append, hes, List.append_nil]
    refine List.filterMap_eq_nil_iff.mpr (fun e he => ?_)
    obtain ⟨op, -, rfl⟩ := List.mem_map.mp he
    rfl
  cases h with
  | ignored h =>
    rcases h with h | h | h
    · exact Or.inl h
    · exact absurd h hm.1
    · exact absurd h hm.2
  | options _ hs =>
    exact Or.inr ⟨_, _, [], hs, by simp, rfl, rfl, rfl, rfl, rfl, fun hn => ⟨rfl, hn⟩, by simp⟩
  | noSession _ _ hs =>
    exact Or.inr ⟨_, _, [], hs, by simp, rfl, rfl, rfl, rfl, rfl, fun hn => ⟨rfl, hn⟩, by simp⟩
  | unsupported hset hl ht hs =>
    refine Or.inr ⟨_, _, [], hs, by simp, rfl, rfl, rfl, rfl, rfl, fun hn => ⟨rfl, hn⟩, fun _ => ?_⟩
    refine Or.inr (Or.inr (Or.inr ⟨hset, _, hl, ?_⟩))
    rcases ht with ⟨h1, h2⟩ | ⟨h1, h2⟩ <;> simp [h1, h2]
  | parameter hg _ hs =>
    exact Or.inr ⟨_, _, [], hs, by simp, rfl, rfl, rfl, rfl, rfl, fun hn => ⟨rfl, hn⟩,
      fun _ => Or.inr (Or.inr (Or.inl hg))⟩
  | notFound _ _ hs =>
    exact Or.inr ⟨_, _, [], hs, by simp, rfl, rfl, rfl, rfl, rfl, by simp, by simp⟩
  | described _ _ hes hs =>
    refine Or.inr ⟨_, _, _, hs, rfl, ?_, rfl, rfl, rfl, rfl, by simp [RtspConnection.emit], by simp⟩
    rcases hes with ⟨rfl, -⟩ | ⟨rfl, -⟩ <;> rfl
  | multicast _ _ _ _ _ hs =>
    refine Or.inr ⟨_, _, _, hs, rfl, hops _ _ ?_, rfl, rfl, rfl, rfl, by simp [RtspConnection.emit],
      by simp⟩
    split <;> rfl
  | tcp _ _ _ _ hs =>
    exact Or.inr ⟨_, _, _, hs, rfl, rfl, rfl, rfl, rfl, rfl, by simp [RtspConnection.emit], by simp⟩
  | udp _ _ _ _ _ hs =>
    exact Or.inr ⟨_, _, _, hs, rfl, hops _ _ rfl, rfl, rfl, rfl, rfl, by simp [RtspConnection.emit],
      by simp⟩
  | udpFailed _ _ _ _ _ hs =>
    refine Or.inr ⟨_, _, _, hs, rfl, hops _ _ ?_, rfl, rfl, rfl, rfl, by simp [RtspConnection.emit],
      by simp⟩
    split <;> rfl
  | played hp _ hs =>
    exact Or.inr ⟨_, _, _, hs, rfl, rfl, rfl, rfl, rfl, rfl, by simp [RtspConnection.emit],
      fun _ => Or.inl hp⟩
  | tornDown ht _ hs =>
    exact Or.inr ⟨_, _, [], hs, by simp, rfl, rfl, rfl, rfl, rfl, by simp,
      fun _ => Or.inr (Or.inl ht)⟩

/-- A response that the send queue has room for. -/
theorem RtspConnection.Sent.answered {c c' : RtspConnection} {env : Env} {req : RtspRequest}
    {signed : Bool} (h : RtspConnection.Sent c env req signed c') (ho : c.isClosed = false)
    (hf : c.writeBuffer.isFull = false) (hlt : req.getCSeq < 2 ^ 32)
    (hs : signed = true → req.getCSeq < 2 ^ 31) : AnsweredOnce c c' req.getCSeq := by
  obtain @⟨res, es, _, ha, -, hq⟩ := h
  have hres := Answers.hasCSeq ha hlt hs
  have htake : c.takes res = true := by
    have hlen : ¬ res.length ≤ 0 := by
      obtain ⟨status, rest, -, rfl⟩ := hres
      simp only [List.length_append]
      have : (ascii "RTSP/1.0 ").length = 9 := rfl
      omega
    simp [RtspConnection.takes, ho, BufferWriter.append, hlen, hf]
  refine ⟨.responded res true :: es, res, ?_, ?_, hres⟩
  · rw [hq.log]
    simp [RtspConnection.queue, RtspConnection.emit, htake]
  · have hnone : responses es = [] := by
      refine List.filterMap_eq_nil_iff.mpr (fun e he => ?_)
      cases hq.plumbing e he <;> rfl
    show (res, true) :: responses es = _
    rw [hnone]

/-- Only a SETUP without an RTP connection has no outcome. -/
theorem handleCommand_isSome {c : RtspConnection} {env : Env} {req : RtspRequest}
    (h : c.rtpConn = none → (env.rtsp.bind fun r => r.lookId c.sessionId) = none) :
    ∃ c', c.handleCommand env req = some c' := by
  have hsetup : ∀ {d : RtspConnection}, d.rtpConn = c.rtpConn → d.sessionId = c.sessionId →
      ∃ c', d.setup env req = some c' := by
    intro d hr hs
    unfold RtspConnection.setup
    rw [hs, hr]
    cases hc : c.rtpConn with
    | none =>
      rw [h hc]
      exact ⟨_, rfl⟩
    | some rtp =>
      cases env.rtsp.bind fun r => r.lookId c.sessionId with
      | none => exact ⟨_, rfl⟩
      | some session =>
        dsimp only
        split
        · split <;> exact ⟨_, rfl⟩
        · split <;> exact ⟨_, rfl⟩
  unfold RtspConnection.handleCommand
  cases req.method with
  | setup =>
    dsimp only
    unfold RtspConnection.handleCmdSetup
    rcases (c.emit [.dispatched req]).handleAuthentication_cases env req with
      ⟨d, hd, hp⟩ | ⟨auth, d, hd, -⟩
    · rw [hd]
      obtain ⟨hr, hs⟩ : d.rtpConn = c.rtpConn ∧ d.sessionId = c.sessionId := by
        cases hp <;> exact ⟨rfl, rfl⟩
      exact hsetup hr hs
    · rw [hd]
      exact ⟨_, rfl⟩
  | _ => exact ⟨_, rfl⟩

/-- The request the handler gets is the one that was sent. -/
theorem Ready.url {q : Request} {message : Bytes} {req : RtspRequest} (h : Ready q message req) :
    req.getRtspUrl = q.url := by
  rw [RtspRequest.getRtspUrl, h.requestLineParam]
  rfl

theorem Ready.passes {c : RtspConnection} {q : Request} {message : Bytes} {req : RtspRequest}
    (h : Ready q message req) (hm : RtspRequest.authenticates q.method = true) :
    (c.emit [.dispatched req]).passes req = admits c q message := by
  unfold RtspConnection.passes admits
  rw [h.method, h.url, h.auth hm]
  rfl

/-- **One command, one response.** -/
theorem handleCommand_answered {c : RtspConnection} {env : Env} {q : Request} {body : Bytes}
    {req : RtspRequest} (hready : Ready q (q.message body) req) (ha : Answerable c env q body)
    (hs : c.rtpConn = none → c.sessionId = 0) :
    ∃ c', c.handleCommand env req = some c' ∧ c'.reader = c.reader ∧
      c'.destroyed = c.destroyed ∧ (c'.rtpConn = none → c'.sessionId = 0) ∧
      AnsweredOnce c c' q.cseq := by
  obtain ⟨⟨hplain, -, -, -⟩, ho, hfull, hneeds, hsigned⟩ := ha
  have hlt := (Request.plain_spec hplain).2.2.1
  rw [← hready.cseq] at hlt hsigned ⊢
  have hlook : c.rtpConn = none → (env.rtsp.bind fun r => r.lookId c.sessionId) = none := by
    intro hn
    rw [hs hn]
    cases env.rtsp with
    | none => rfl
    | some r => exact r.lookId_zero
  have hsome : ∃ c', c.handleCommand env req = some c' := handleCommand_isSome hlook
  obtain ⟨c', hc⟩ := hsome
  refine ⟨c', hc, ?_⟩
  -- From the response to the whole step.
  have hdone : ∀ {x : RtspConnection} {signed : Bool} {es : List Effect},
      RtspConnection.Sent x env req signed c' → x.log = c.log ++ es → responses es = [] →
      x.writeBuffer = c.writeBuffer → x.isClosed = c.isClosed → x.reader = c.reader →
      x.destroyed = c.destroyed → (x.rtpConn = none → x.sessionId = 0) →
      (signed = true → req.getCSeq < 2 ^ 31) →
      c'.reader = c.reader ∧ c'.destroyed = c.destroyed ∧ (c'.rtpConn = none → c'.sessionId = 0) ∧
        AnsweredOnce c c' req.getCSeq := by
    intro x signed es hsent hl hes hw hcl hrd hde hrtp hsg
    have hf := hsent.log.1
    obtain ⟨fs, res, hl', hres, hcs⟩ := hsent.answered (hcl.trans ho) (hw ▸ hfull) hlt hsg
    refine ⟨hf.reader.trans hrd, hf.destroyed.trans hde, ?_, es ++ fs, res, ?_, ?_, hcs⟩
    · rw [hf.rtpConn, hf.sessionId]
      exact hrtp
    · rw [hl', hl, List.append_assoc]
    · rw [responses_append, hes, hres]
      rfl
  rcases RtspConnection.handleCommand_cases hc with ⟨auth, hauth, hhas, hm, hno, hsent⟩ | ⟨d, he, hb⟩
  · refine hdone hsent rfl rfl rfl rfl rfl rfl hs (fun _ => hsigned ?_)
    rw [hready.method] at hm hno
    have hadmits : admits c q (q.message body) = false := by
      rw [admits, hauth, hready.auth hm]
      rw [hready.url] at hno
      simpa [hhas] using hno
    unfold printsSigned
    cases hmethod : q.method <;> simp_all [RtspRequest.authenticates]
  · have hent := he
    obtain ⟨nonce, hasAuth, es, rfl, hes⟩ := he.eq
    have hresp : responses (.dispatched req :: es) = [] := by
      refine List.filterMap_eq_nil_iff.mpr (fun e hmem => ?_)
      rcases List.mem_cons.mp hmem with rfl | hmem
      · rfl
      · obtain ⟨n, rfl⟩ := hes e hmem
        rfl
    have hpasses : RtspRequest.authenticates q.method = true →
        admits c q (q.message body) = true := by
      intro hm
      rw [← hready.passes hm]
      rw [RtspConnection.Entered, if_pos (by rw [hready.method]; exact hm)] at hent
      exact hent.passes
    rcases hb.answer (by rw [hready.method]; exact q.method_known) with
      ⟨hnone, hm⟩ | ⟨signed, x, fs, hsent, hl, hfs, hw, hcl, hrd, hde, hrtp, hsg⟩
    · rw [hready.method] at hm
      refine absurd hnone (hneeds ?_)
      unfold needsRtp
      rcases hm with hm | hm | hm
      · rw [hm] at hpasses ⊢
        exact hpasses rfl
      · rw [hm]
      · rw [hm]
    · refine hdone hsent (hl.trans (List.append_assoc _ _ _))
        (by rw [responses_append, hresp, hfs]; rfl) hw hcl hrd hde (fun hn => ?_)
        (fun hsig => hsigned ?_)
      · obtain ⟨h1, h2⟩ := hrtp hn
        exact h1.trans (hs h2)
      · unfold printsSigned
        rw [← hready.method]
        rcases hsg hsig with hm | hm | hm | ⟨hm, session, hsess, hmode⟩
        · rw [hm]
        · rw [hm]
        · rw [hm]
        · rw [hm]
          obtain ⟨-, n₁, n₂, hread, -⟩ := hready.setup (hready.method ▸ hm)
          have hsess' : (env.rtsp.bind fun r => r.lookId c.sessionId) = some session := hsess
          rw [hsess', hread]
          simpa using Or.inr hmode

/-! ## Runs -/

/-- A connection between two requests. -/
structure Resting (c : RtspConnection) : Prop where
  reader : AtRest c.reader
  session : c.destroyed = false → c.rtpConn = none → c.sessionId = 0
  closed : c.destroyed = true → c.isClosed = true

/-- What is not a read leaves the reader alone. -/
theorem Resting.serve {c c' : RtspConnection} {i : Input} (h : Resting c)
    (hi : (∀ r, i ≠ .read r) ∧ ∀ req env, i ≠ .request req env) (hs : c.serve i = some c') :
    Resting c' := by
  have hquiet : ∀ {es : List Effect} {d d' : RtspConnection}, Resting d →
      RtspConnection.Quiet d es d' → Resting d' := by
    intro es d d' hd hq
    have hf := hq.frame
    refine ⟨hf.reader ▸ hd.reader, ?_, fun hx => hq.closed_mono (hd.closed (hf.destroyed ▸ hx))⟩
    rw [hf.destroyed, hf.rtpConn, hf.sessionId]
    exact hd.session
  unfold RtspConnection.serve at hs
  split at hs
  · simp at hs
  · cases i with
    | read r => exact absurd rfl (hi.1 r)
    | request req env => exact absurd rfl (hi.2 req env)
    | close env =>
      obtain ⟨es, hq⟩ := c.close_quiet env
      exact Option.some.inj hs ▸ hquiet h hq
    | writable env =>
      obtain ⟨es, hq⟩ := c.handleWrite_quiet env
      exact Option.some.inj hs ▸ hquiet h hq
    | push chn pkt taken =>
      obtain ⟨rtp, -, hc | ⟨hc, -⟩⟩ := RtspConnection.sendRtpPacket_cases hs
      · exact hc ▸ h
      · rw [hc]
        exact ⟨h.reader, h.session, h.closed⟩
    | trigger data env =>
      obtain ⟨chn, pkt, rest, rtp, rtp', out, -, -, -, hcase⟩ := RtspConnection.runClosure_cases hs
      have hran : ∀ (rtp : RtpConnection) (es : List Effect),
          Resting ({ c with closures := rest, rtpConn := some rtp }.emit es) := fun rtp es =>
        ⟨h.reader, fun _ hn => by simp [RtspConnection.emit] at hn, h.closed⟩
      rcases hcase with ⟨-, hc⟩ | ⟨bytes, es, -, hq⟩ | ⟨fd, peer, bytes, -, hc⟩
      · rw [hc, ← RtspConnection.emit_nil { c with closures := rest, rtpConn := some rtp' }]
        exact hran rtp' []
      · refine hquiet ?_ hq
        exact ⟨h.reader, fun _ hn => by simp [RtspConnection.queue, RtspConnection.emit] at hn,
          h.closed⟩
      · rw [hc]
        exact hran _ _
    | destroy =>
      dsimp only at hs
      split at hs
      · rename_i hcl
        rw [← Option.some.inj hs]
        exact ⟨h.reader, fun hd => by simp [RtspConnection.destroy, RtspConnection.emit] at hd,
          fun _ => hcl⟩
      · simp at hs

theorem Resting.call {charSigned : Bool} {c c' : RtspConnection} {i : Input} (h : Resting c)
    (hs : c.step charSigned (.call i) = some c') : Resting c' := by
  cases i with
  | read r => simp [RtspConnection.step] at hs
  | request req env => simp [RtspConnection.step] at hs
  | close env => exact h.serve (i := .close env) (by simp) hs
  | writable env => exact h.serve (i := .writable env) (by simp) hs
  | push chn pkt taken => exact h.serve (i := .push chn pkt taken) (by simp) hs
  | trigger data env => exact h.serve (i := .trigger data env) (by simp) hs
  | destroy => exact h.serve (i := .destroy) (by simp) hs

/-- **One request in one chunk.** -/
theorem Resting.request {charSigned : Bool} {c : RtspConnection} {env : Env} {q : Request}
    {body : Bytes} {chunk : Chunk} (h : Resting c) (hw : chunk.bytes = q.wire body)
    (ha : Answerable c env q body) :
    ∃ c', c.step charSigned (.recv chunk env) = some c' ∧ Resting c' ∧ AnsweredOnce c c' q.cseq := by
  have hopen := ha.2.1
  have hpresent : c.destroyed = false := by
    cases hd : c.destroyed with
    | false => rfl
    | true =>
      rw [h.closed hd] at hopen
      exact Bool.noConfusion hopen
  obtain ⟨b, hb⟩ := BufferReader.read_isSome chunk (BufferReader.canRead_of_empty h.reader.buffer)
  have hbytes : b.readable = q.wire body := by
    rw [BufferReader.readable_read hb, BufferReader.readable_of_empty h.reader.buffer, hw]
    rfl
  obtain ⟨hplain, hbody, hcomp, hauth⟩ := ha.1
  obtain ⟨req, o, ho, hcmd, hrest, hready⟩ :=
    onRead_request charSigned h.reader.request hbytes hplain hbody hcomp hauth
  have ha' : Answerable { c with reader := o.reader } env q body := ha
  obtain ⟨c', hc', hrd, hde, hse, hans⟩ := handleCommand_answered hready ha' (h.session hpresent)
  refine ⟨c', ?_, ⟨?_, fun _ => hse, fun hd => ?_⟩, hans⟩
  · simp only [RtspConnection.step, hpresent, Bool.false_eq_true, if_false]
    rw [RtspConnection.handleRead, if_neg (by simp [hopen])]
    simp only [hb, ho, Option.bind_some, hcmd]
    exact hc'
  · rw [hrd]
    exact hrest
  · have : c'.destroyed = c.destroyed := hde
    rw [this, hpresent] at hd
    exact Bool.noConfusion hd

/-- **The guard.** Whatever is read is one answerable request. -/
def OneByOne (c : RtspConnection) : SocketInput → Prop
  | .recv chunk env => ∃ q body, chunk.bytes = q.wire body ∧ Answerable c env q body
  | .call _ => True

theorem new_resting (fd : Int) (authInfo : Option DigestAuthentication) (request : RtspRequest) :
    Resting (RtspConnection.new fd authInfo request) :=
  ⟨⟨⟨rfl, rfl, rfl⟩, rfl⟩, fun _ _ => rfl, fun hd => Bool.noConfusion hd⟩

/-- **Every request is answered.** In every state that answerable requests, frames, writes and
closing lead to, in any order, the reader is at rest, and the next answerable request that comes in
one chunk gets exactly one response, with its own `CSeq`, and leaves the reader at rest. -/
theorem every_request_answered (charSigned : Bool) (authInfo : Option DigestAuthentication)
    {c : RtspConnection}
    (hr : Reach (RtspConnection.socket charSigned authInfo) OneByOne c) :
    AtRest c.reader ∧ ∀ (q : Request) (body : Bytes) (env : Env) (chunk : Chunk),
      chunk.bytes = q.wire body → Answerable c env q body →
        ∃ c', c.step charSigned (.recv chunk env) = some c' ∧ AtRest c'.reader ∧
          AnsweredOnce c c' q.cseq := by
  have hinv : Resting c := by
    refine hr.inv (P := Resting) (fun s hs => ?_) (fun t i u ht hg hst => ?_)
    · obtain ⟨fd, request, -, rfl⟩ := hs
      exact new_resting fd authInfo request
    · change t.step charSigned i = some u at hst
      cases i with
      | recv chunk env =>
        obtain ⟨q, body, hw, ha⟩ := hg
        obtain ⟨u', hu, hrest, -⟩ := ht.request hw ha
        rw [hu, Option.some.injEq] at hst
        exact hst ▸ hrest
      | call i => exact ht.call hst
  refine ⟨hinv.reader, fun q body env chunk hw ha => ?_⟩
  obtain ⟨c', hc', hrest, hans⟩ := hinv.request hw ha
  exact ⟨c', hc', hrest.reader, hans⟩

/-- A client that asks what there is. -/
def asksOptions : Request := .live .options 7 [ascii "User-Agent: x"] (by decide) (by decide)

/-- One that says goodbye before it has asked for anything. -/
def saysTeardown : Request := .live .teardown 7 [] (by decide) (by decide)

theorem accepted_socket (charSigned : Bool) :
    (RtspConnection.socket charSigned none).start accepted := ⟨5, _, by decide, rfl⟩

theorem every_request_answered_options :
    AtRest accepted.reader ∧ ∃ c', accepted.step true
        (.recv ⟨asksOptions.wire [], by decide, by decide⟩ Env.idle) = some c' ∧
      AtRest c'.reader ∧ AnsweredOnce accepted c' 7 := by
  obtain ⟨h1, h2⟩ := every_request_answered true none (Reach.start (accepted_socket true))
  exact ⟨h1, h2 asksOptions [] Env.idle _ rfl ⟨by decide +kernel, rfl, by decide, by decide,
    by decide⟩⟩

/-- **A TEARDOWN before DESCRIBE is not answered**: `HandleCmdTeardown` returns when there is no
RTP connection. -/
theorem teardown_unanswered :
    ¬ ∀ (charSigned : Bool) (authInfo : Option DigestAuthentication) (c : RtspConnection),
      Reach (RtspConnection.socket charSigned authInfo) OneByOne c → c.isClosed = false →
        ∀ (q : Request) (body : Bytes) (env : Env) (chunk : Chunk),
          chunk.bytes = q.wire body →
            ∃ c', c.step charSigned (.recv chunk env) = some c' ∧ AtRest c'.reader ∧
              AnsweredOnce c c' q.cseq := by
  intro h
  obtain ⟨c', hc', -, es, res, hl, hres, -⟩ := h true none accepted
    (Reach.start (accepted_socket true)) rfl saysTeardown [] Env.idle
    ⟨saysTeardown.wire [], by decide, by decide⟩ rfl
  have hnone : (accepted.step true (.recv ⟨saysTeardown.wire [], by decide, by decide⟩ Env.idle)).map
      (fun c => responses c.log) = some [] := by decide +kernel
  rw [hc', Option.map_some, Option.some.injEq, hl, responses_append, hres] at hnone
  simp at hnone

end Maixii.Xop
