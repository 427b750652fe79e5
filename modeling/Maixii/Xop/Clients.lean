import Mathlib.Data.List.Nodup
import Maixii.Xop.RtspServer

/-!
# `Xop/Clients.lean`: who is registered where, and who has been told

Whoever counts the viewers of a session counts its callbacks. They come from `AddClient` and
`RemoveClient`, but a client is also dropped without a word when its weak pointer has expired, and
a connection only remembers the **last** session it described: it never leaves the others. So the
books of a session balance as long as no connection describes two sessions and no session is removed
under its clients (`Tidy`).

What matters of a connection here is little (`Party`), and the books (`Accounts`) are about parties
and sessions only: an entry of a map is an open connection that has described the session, no more
and no less.
-/

set_option autoImplicit false

namespace Maixii.Xop

open Maixii.Lib Maixii.Net

/-! ## The guard -/

/-- The session a request describes. -/
def RtspConnection.describing (c : RtspConnection) (env : Env) (req : RtspRequest) :
    Option MediaSession :=
  if req.method = .describe ∧ c.passes req = true then
    env.rtsp.bind fun r => r.lookSuffix req.getRtspUrlSuffix
  else none

theorem RtspConnection.Describes.describing {c : RtspConnection} {env : Env} {req : RtspRequest}
    {session : MediaSession} (h : c.Describes env req session) :
    c.describing env req = some session := by
  rw [RtspConnection.describing, if_pos ⟨h.method, h.passes⟩, h.found]

/-- **The guard.** A session is removed when nobody is registered in it, and a connection describes
no other session than the one it has described. -/
def Tidy (srv : RtspServer) : ServerInput → Prop
  | .removeSession id => ∀ s ∈ srv.sessions, s.id = id → s.clients = []
  | .call i (.request req env) => ∀ c ∈ srv.conns[i]?,
      ∀ session ∈ c.describing (env.within srv.rtsp) req,
        c.sessionId = 0 ∨ c.sessionId = session.sessionId
  | _ => True

instance (srv : RtspServer) (i : ServerInput) : Decidable (Tidy srv i) :=
  match i with
  | .removeSession _ => inferInstanceAs (Decidable (∀ s ∈ srv.sessions, _))
  | .call i (.request _ _) => inferInstanceAs (Decidable (∀ c ∈ srv.conns[i]?, _))
  | .call _ (.read _) | .call _ (.close _) | .call _ (.writable _) | .call _ (.push _ _ _)
  | .call _ (.trigger _ _) | .call _ .destroy | .addSession _ _ | .accept _ _ | .frame _ _ _
  | .offer _ _ => inferInstanceAs (Decidable True)

/-! ## The map of a session -/

theorem LiveSession.addClient_id (s : LiveSession) (fd : Int) (i : Nat) :
    (s.addClient fd i).id = s.id := by
  unfold LiveSession.addClient
  split <;> rfl

theorem LiveSession.removeClient_id (s : LiveSession) (alive : Nat → Bool) (fd : Int) :
    (s.removeClient alive fd).id = s.id := by
  unfold LiveSession.removeClient
  split <;> rfl

/-- A socket number that is new is added once, wherever it goes. -/
theorem LiveSession.addClient_new {s : LiveSession} {fd : Int} (i : Nat)
    (h : ∀ e ∈ s.clients, e.1 ≠ fd) :
    (s.addClient fd i).clients.Perm ((fd, i) :: s.clients) ∧
      (s.addClient fd i).connected = s.connected + 1 ∧
      (s.addClient fd i).disconnected = s.disconnected := by
  have hany : s.clients.any (·.1 = fd) = false := by
    rw [List.any_eq_false]
    intro e he
    simpa using h e he
  rw [LiveSession.addClient, if_neg (by rw [hany]; decide)]
  refine ⟨?_, rfl, rfl⟩
  have hgt : s.clients.filter (fd < ·.1) = s.clients.filter (fun e => !decide (e.1 < fd)) := by
    refine List.filter_congr ?_
    intro e he
    have := h e he
    rw [← decide_not, decide_eq_decide]
    omega
  have hsplit : (s.clients.filter (·.1 < fd) ++ s.clients.filter (fd < ·.1)).Perm s.clients := by
    rw [hgt]
    exact List.filter_append_perm _ _
  exact List.perm_middle.trans (hsplit.cons _)

theorem LiveSession.addClient_old {s : LiveSession} {fd : Int} {i : Nat} {e : Int × Nat}
    (he : e ∈ s.clients) (hfd : e.1 = fd) : s.addClient fd i = s := by
  rw [LiveSession.addClient, if_pos]
  exact List.any_eq_true.mpr ⟨e, he, by simpa using hfd⟩

/-- A client that is there is taken out, and its callback is called. -/
theorem LiveSession.removeClient_there {s : LiveSession} {alive : Nat → Bool} {fd : Int} {i : Nat}
    (hk : (s.clients.map Prod.fst).Nodup) (he : (fd, i) ∈ s.clients) (ha : alive i = true) :
    s.clients.Perm ((fd, i) :: (s.removeClient alive fd).clients) ∧
      (s.removeClient alive fd).connected = s.connected ∧
      (s.removeClient alive fd).disconnected = s.disconnected + 1 := by
  have honly : ∀ e ∈ s.clients, e.1 = fd → e = (fd, i) := by
    intro e hmem hfd
    exact List.inj_on_of_nodup_map hk hmem he hfd
  have hfind : s.clients.find? (·.1 = fd) = some (fd, i) := by
    cases hf : s.clients.find? (·.1 = fd) with
    | none =>
      have := List.find?_eq_none.mp hf _ he
      simp at this
    | some e =>
      have hp := List.find?_some hf
      rw [honly e (List.mem_of_find?_eq_some hf) (by simpa using hp)]
  have hrem : s.removeClient alive fd = { s with
      clients := s.clients.filter (·.1 ≠ fd)
      disconnected := s.disconnected + 1 } := by
    rw [LiveSession.removeClient, hfind]
    simp [ha]
  rw [hrem]
  refine ⟨?_, rfl, rfl⟩
  have hnd : s.clients.Nodup := hk.of_map _
  have herase : s.clients.filter (·.1 ≠ fd) = s.clients.erase (fd, i) := by
    rw [hnd.erase_eq_filter]
    refine List.filter_congr ?_
    intro e hmem
    rw [Bool.eq_iff_iff, bne_iff_ne, decide_eq_true_iff]
    exact ⟨fun hne heq => hne (by rw [heq]), fun hne heq => hne (honly e hmem heq)⟩
  show s.clients.Perm ((fd, i) :: s.clients.filter (·.1 ≠ fd))
  rw [herase]
  exact List.perm_cons_erase he

/-! ## Parties -/

/-- What of a connection the sessions know. -/
structure Party where
  sockfd : Int
  isClosed : Bool
  destroyed : Bool
  sessionId : Nat
  events : List Effect

def RtspConnection.party (c : RtspConnection) : Party :=
  ⟨c.sockfd, c.isClosed, c.destroyed, c.sessionId, clientEvents c.log⟩

/-- The entry is an open connection that has described the session. -/
def Enrolled (ps : List Party) (id : Nat) (e : Int × Nat) : Prop :=
  ∃ p, ps[e.2]? = some p ∧ p.isClosed = false ∧ p.sockfd = e.1 ∧ p.sessionId = id

/-- **The books.** -/
structure Accounts (ps : List Party) (ss rs : List LiveSession) : Prop where
  ids : ((ss ++ rs).map LiveSession.id).Nodup
  ids_ge : ∀ s ∈ ss ++ rs, 2 ≤ s.id
  fds : ∀ (i j : Nat) (p q : Party), ps[i]? = some p → ps[j]? = some q → p.destroyed = false →
    q.destroyed = false → p.sockfd = q.sockfd → i = j
  closed : ∀ p ∈ ps, p.destroyed = true → p.isClosed = true
  keys : ∀ s ∈ ss, (s.clients.map Prod.fst).Nodup
  entries : ∀ s ∈ ss, ∀ e, e ∈ s.clients ↔ Enrolled ps s.id e
  balance : ∀ s ∈ ss, s.connected = s.disconnected + s.clients.length
  gone : ∀ s ∈ rs, s.clients = [] ∧ s.connected = s.disconnected
  present : ∀ p ∈ ps, p.isClosed = false → p.sessionId ≠ 0 → ∃ s ∈ ss, s.id = p.sessionId
  added : ∀ p ∈ ps, ∀ id, .clientAdded id ∈ p.events → id = p.sessionId ∧ id ≠ 0

/-- What becomes of a map when party `e` moves: it keeps its other entries, has one for the party if
that is `inside`, and balances. -/
structure LiveSession.Moves (s : LiveSession) (e : Int × Nat) (inside : Prop) (s' : LiveSession) :
    Prop where
  id : s'.id = s.id
  keys : (s'.clients.map Prod.fst).Nodup
  entries : ∀ x, x ∈ s'.clients ↔ x ∈ s.clients ∧ x.2 ≠ e.2 ∨ x = e ∧ inside
  balance : s'.connected = s'.disconnected + s'.clients.length

namespace Accounts

variable {ps : List Party} {ss rs : List LiveSession} {i : Nat} {p p' : Party}

/-- Two open connections have two sockets. -/
theorem same {j : Nat} {q : Party} (h : Accounts ps ss rs) (hp : ps[i]? = some p)
    (hq : ps[j]? = some q) (hpc : p.isClosed = false) (hqc : q.isClosed = false)
    (hfd : p.sockfd = q.sockfd) : i = j := by
  have halive : ∀ {k : Nat} {r : Party}, ps[k]? = some r → r.isClosed = false →
      r.destroyed = false := by
    intro k r hr hc
    cases hd : r.destroyed with
    | false => rfl
    | true =>
      have := h.closed r (List.mem_of_getElem? hr) hd
      rw [hc] at this
      exact absurd this (by decide)
  exact h.fds i j p q hp hq (halive hp hpc) (halive hq hqc) hfd

/-- **A party moves on**, and with it every map. -/
theorem move (p' : Party) (h : Accounts ps ss rs) (hp : ps[i]? = some p)
    (hfd : p'.sockfd = p.sockfd) (hdes : p.destroyed = true → p'.destroyed = true)
    (hcl : p'.destroyed = true → p'.isClosed = true) {f : LiveSession → LiveSession}
    (hf : ∀ s ∈ ss,
      s.Moves (p.sockfd, i) (p'.isClosed = false ∧ p'.sessionId = s.id) (f s))
    (hpres : p'.isClosed = false → p'.sessionId ≠ 0 → ∃ s ∈ ss, s.id = p'.sessionId)
    (hadd : ∀ id, .clientAdded id ∈ p'.events → id = p'.sessionId ∧ id ≠ 0) :
    Accounts (ps.set i p') (ss.map f) rs := by
  have hi : i < ps.length := (List.getElem?_eq_some_iff.mp hp).1
  have hself : (ps.set i p')[i]? = some p' := List.getElem?_set_self hi
  have hother : ∀ {j : Nat}, j ≠ i → (ps.set i p')[j]? = ps[j]? := by
    intro j hj
    exact List.getElem?_set_ne (Ne.symm hj)
  have hmem : ∀ q ∈ ps.set i p', q = p' ∨ q ∈ ps := by
    intro q hq
    exact (List.mem_or_eq_of_mem_set hq).symm
  have hids : (ss.map f ++ rs).map LiveSession.id = (ss ++ rs).map LiveSession.id := by
    rw [List.map_append, List.map_append, List.map_map]
    congr 1
    exact List.map_congr_left fun s hs => (hf s hs).id
  -- A party of the new list is one of the old list with the same socket, still there.
  have hback : ∀ (j : Nat) (q : Party), (ps.set i p')[j]? = some q → q.destroyed = false →
      ∃ r, ps[j]? = some r ∧ r.destroyed = false ∧ r.sockfd = q.sockfd := by
    intro j q hq hqd
    by_cases hj : j = i
    · subst hj
      rw [hself, Option.some.injEq] at hq
      subst hq
      refine ⟨p, hp, ?_, hfd.symm⟩
      cases hd : p.destroyed with
      | false => rfl
      | true => rw [hdes hd] at hqd; exact hqd
    · rw [hother hj] at hq
      exact ⟨q, hq, hqd, rfl⟩
  refine ⟨hids ▸ h.ids, ?_, ?_, ?_, ?_, ?_, ?_, h.gone, ?_, ?_⟩
  · intro s hs
    have : s.id ∈ (ss ++ rs).map LiveSession.id := hids ▸ List.mem_map_of_mem hs
    obtain ⟨t, ht, hst⟩ := List.mem_map.mp this
    exact hst ▸ h.ids_ge t ht
  · intro j k q r hq hr hqd hrd heq
    obtain ⟨q', hq', hqd', hqf⟩ := hback j q hq hqd
    obtain ⟨r', hr', hrd', hrf⟩ := hback k r hr hrd
    exact h.fds j k q' r' hq' hr' hqd' hrd' (by rw [hqf, hrf, heq])
  · intro q hq hqd
    rcases hmem q hq with rfl | hq
    · exact hcl hqd
    · exact h.closed q hq hqd
  · intro s hs
    obtain ⟨t, ht, rfl⟩ := List.mem_map.mp hs
    exact (hf t ht).keys
  · intro s hs e
    obtain ⟨t, ht, rfl⟩ := List.mem_map.mp hs
    rw [(hf t ht).entries, (hf t ht).id, h.entries t ht]
    unfold Enrolled
    by_cases he : e.2 = i
    · rw [he, hself]
      constructor
      · rintro (⟨-, hne⟩ | ⟨rfl, hc, hs⟩)
        · exact absurd rfl hne
        · exact ⟨p', rfl, hc, hfd, hs⟩
      · rintro ⟨q, hq, hc, hf, hs⟩
        rw [Option.some.injEq] at hq
        subst hq
        exact Or.inr ⟨Prod.ext (by rw [← hf, hfd]) he, hc, hs⟩
    · rw [hother he]
      constructor
      · rintro (⟨hq, -⟩ | ⟨rfl, -⟩)
        · exact hq
        · exact absurd rfl he
      · intro hq
        exact Or.inl ⟨hq, he⟩
  · intro s hs
    obtain ⟨t, ht, rfl⟩ := List.mem_map.mp hs
    exact (hf t ht).balance
  · intro q hq hqc hqs
    have hold : ∃ s ∈ ss, s.id = q.sessionId := by
      rcases hmem q hq with rfl | hq
      · exact hpres hqc hqs
      · exact h.present q hq hqc hqs
    obtain ⟨s, hs, hsid⟩ := hold
    exact ⟨f s, List.mem_map_of_mem hs, (hf s hs).id.trans hsid⟩
  · intro q hq
    rcases hmem q hq with rfl | hq
    · exact hadd
    · exact h.added q hq

/-- An entry of a map that names the party is the party's own. -/
theorem entry {s : LiveSession} {e : Int × Nat} (h : Accounts ps ss rs) (hp : ps[i]? = some p)
    (hs : s ∈ ss) (he : e ∈ s.clients) (hi : e.2 = i) :
    e = (p.sockfd, i) ∧ p.isClosed = false ∧ p.sessionId = s.id := by
  obtain ⟨q, hq, hc, hf, hid⟩ := (h.entries s hs e).mp he
  rw [hi, hp, Option.some.injEq] at hq
  subst hq
  exact ⟨Prod.ext hf.symm hi, hc, hid⟩

/-- A map nobody touches, and a party that is as much in the session as it was. -/
theorem stays {s : LiveSession} {inside : Prop} (h : Accounts ps ss rs) (hp : ps[i]? = some p)
    (hs : s ∈ ss) (hiff : inside ↔ p.isClosed = false ∧ p.sessionId = s.id) :
    s.Moves (p.sockfd, i) inside s := by
  refine ⟨rfl, h.keys s hs, ?_, h.balance s hs⟩
  intro e
  rw [hiff]
  constructor
  · intro he
    by_cases hi : e.2 = i
    · exact Or.inr (h.entry hp hs he hi)
    · exact Or.inl ⟨he, hi⟩
  · rintro (⟨he, -⟩ | ⟨rfl, hc, hid⟩)
    · exact he
    · exact (h.entries s hs _).mpr ⟨p, hp, hc, rfl, hid⟩

/-- **A DESCRIBE**, of the first session or of the same one again. -/
theorem join {s : LiveSession} (h : Accounts ps ss rs) (hp : ps[i]? = some p)
    (ho : p.isClosed = false) (hs : s ∈ ss) (hone : p.sessionId = 0 ∨ p.sessionId = s.id)
    (alive : Nat → Bool) :
    Accounts (ps.set i { p with
        sessionId := s.id
        events := p.events ++ [.clientAdded s.id] })
      (RtspServer.apply alive p.sockfd i ss (.clientAdded s.id)) rs := by
  have hfd : ∀ {t : LiveSession}, t ∈ ss → p.sessionId ≠ t.id → ∀ e ∈ t.clients,
      e.1 ≠ p.sockfd := by
    -- Whoever has the socket number is the party itself, and that is not in the session.
    intro t ht hne e he heq
    obtain ⟨q, hq, hqc, hqf, hqs⟩ := (h.entries t ht e).mp he
    have hi : e.2 = i := h.same hq hp hqc ho (hqf.trans heq)
    exact hne (h.entry hp ht he hi).2.2
  have hsid : 2 ≤ s.id := h.ids_ge s (List.mem_append_left _ hs)
  refine h.move { p with sessionId := s.id, events := _ } hp rfl (fun hd => hd)
    (h.closed p (List.mem_of_getElem? hp)) ?_ ?_ ?_
  · intro t ht
    by_cases heq : t.id = s.id
    · rw [if_pos heq]
      rcases hone with h0 | h1
      · -- The first DESCRIBE: there is no entry yet.
        have hout : p.sessionId ≠ t.id := by omega
        have hnew := LiveSession.addClient_new i (hfd ht hout)
        refine ⟨t.addClient_id _ _, ?_, ?_, ?_⟩
        · rw [(hnew.1.map Prod.fst).nodup_iff, List.map_cons, List.nodup_cons]
          refine ⟨?_, h.keys t ht⟩
          intro hmem
          obtain ⟨e, he, hef⟩ := List.mem_map.mp hmem
          exact hfd ht hout e he hef
        · intro e
          rw [hnew.1.mem_iff, List.mem_cons]
          constructor
          · rintro (rfl | he)
            · exact Or.inr ⟨rfl, ho, heq.symm⟩
            · exact Or.inl ⟨he, fun hi => hout (h.entry hp ht he hi).2.2⟩
          · rintro (⟨he, -⟩ | ⟨rfl, -⟩)
            · exact Or.inr he
            · exact Or.inl rfl
        · have := h.balance t ht
          rw [hnew.1.length_eq, hnew.2.1, hnew.2.2, List.length_cons]
          omega
      · -- The same session again: the entry is there.
        have hold : (p.sockfd, i) ∈ t.clients :=
          (h.entries t ht _).mpr ⟨p, hp, ho, rfl, h1.trans heq.symm⟩
        rw [LiveSession.addClient_old hold rfl]
        exact h.stays hp ht (by simp [h1])
    · rw [if_neg heq]
      have hout : p.sessionId ≠ t.id := by
        have := h.ids_ge t (List.mem_append_left _ ht)
        omega
      exact h.stays hp ht (by simp [hout, Ne.symm heq])
  · intro _ _
    exact ⟨s, hs, rfl⟩
  · intro id hid
    rcases List.mem_append.mp hid with hid | hid
    · have hold := h.added p (List.mem_of_getElem? hp) id hid
      rcases hone with h0 | h1
      · exact absurd (hold.1.trans h0) hold.2
      · exact ⟨hold.1.trans h1, hold.2⟩
    · obtain rfl : id = s.id := by simpa using hid
      exact ⟨rfl, by omega⟩

/-- How a party takes its leave of the session it remembers. -/
def farewell (sessionId : Nat) : List Effect :=
  if sessionId = 0 then [] else [.clientRemoved sessionId]

theorem not_added_farewell {sessionId id : Nat} : .clientAdded id ∉ farewell sessionId := by
  unfold farewell
  split <;> simp

/-- **A close.** -/
theorem leave (h : Accounts ps ss rs) (hp : ps[i]? = some p) (ho : p.isClosed = false)
    {alive : Nat → Bool} (ha : alive i = true) :
    Accounts (ps.set i { p with
        isClosed := true
        events := p.events ++ farewell p.sessionId })
      ((farewell p.sessionId).foldl (RtspServer.apply alive p.sockfd i) ss) rs := by
  have hmem : p ∈ ps := List.mem_of_getElem? hp
  have hadd : ∀ id, .clientAdded id ∈ p.events ++ farewell p.sessionId →
      id = p.sessionId ∧ id ≠ 0 := by
    intro id hid
    rcases List.mem_append.mp hid with hid | hid
    · exact h.added p hmem id hid
    · exact absurd hid not_added_farewell
  have hmove : ∀ f : LiveSession → LiveSession,
      (∀ s ∈ ss, s.Moves (p.sockfd, i) (true = false ∧ p.sessionId = s.id) (f s)) →
      Accounts (ps.set i { p with
        isClosed := true
        events := p.events ++ farewell p.sessionId }) (ss.map f) rs := by
    intro f hf
    exact h.move { p with isClosed := true, events := _ } hp rfl (fun hd => hd) (fun _ => rfl) hf
      (fun hc => Bool.noConfusion hc) hadd
  by_cases h0 : p.sessionId = 0
  · -- It is in no session.
    have hnil : farewell p.sessionId = [] := if_pos h0
    have hstay := hmove id ?_
    · rw [List.map_id, hnil] at hstay
      rw [hnil]
      exact hstay
    · intro t ht
      refine h.stays hp ht ?_
      have := h.ids_ge t (List.mem_append_left _ ht)
      have hout : p.sessionId ≠ t.id := by omega
      simp [hout]
  · have hone : farewell p.sessionId = [.clientRemoved p.sessionId] := if_neg h0
    rw [hone] at hmove ⊢
    refine hmove _ ?_
    intro t ht
    by_cases heq : t.id = p.sessionId
    · rw [if_pos heq]
      have hold : (p.sockfd, i) ∈ t.clients :=
        (h.entries t ht _).mpr ⟨p, hp, ho, rfl, heq.symm⟩
      have hrem := LiveSession.removeClient_there (h.keys t ht) hold ha
      have hnd := (hrem.1.map Prod.fst).nodup_iff.mp (h.keys t ht)
      rw [List.map_cons, List.nodup_cons] at hnd
      refine ⟨t.removeClient_id _ _, hnd.2, ?_, ?_⟩
      · intro e
        rw [hrem.1.mem_iff, List.mem_cons]
        constructor
        · intro he
          refine Or.inl ⟨Or.inr he, ?_⟩
          intro hi
          have := (h.entry hp ht (hrem.1.mem_iff.mpr (List.mem_cons_of_mem _ he)) hi).1
          exact hnd.1 (this ▸ List.mem_map_of_mem he)
        · rintro (⟨rfl | he, hne⟩ | ⟨-, hc, -⟩)
          · exact absurd rfl hne
          · exact he
          · exact absurd hc (by decide)
      · have := h.balance t ht
        rw [hrem.1.length_eq, List.length_cons] at this
        rw [hrem.2.1, hrem.2.2]
        omega
    · rw [if_neg heq]
      refine h.stays hp ht ?_
      have hout : p.sessionId ≠ t.id := Ne.symm heq
      simp [hout]

/-- The object goes, some time after its socket was closed. -/
theorem destroy (h : Accounts ps ss rs) (hp : ps[i]? = some p) (hc : p.isClosed = true) :
    Accounts (ps.set i { p with destroyed := true }) ss rs := by
  have hmove := h.move { p with destroyed := true } (f := id) hp rfl (fun _ => rfl) (fun _ => hc) ?_ ?_
    (h.added p (List.mem_of_getElem? hp))
  · rwa [List.map_id] at hmove
  · intro t ht
    exact h.stays hp ht Iff.rfl
  · intro ho
    exact absurd hc (by rw [show p.isClosed = false from ho]; decide)

/-- A new connection is in no session. -/
theorem accept (h : Accounts ps ss rs) (hc : p.isClosed = false) (hd : p.destroyed = false)
    (hs : p.sessionId = 0) (hev : p.events = [])
    (hfd : ∀ q ∈ ps, q.destroyed = false → q.sockfd ≠ p.sockfd) : Accounts (ps ++ [p]) ss rs := by
  have hget : ∀ (j : Nat) (q : Party), (ps ++ [p])[j]? = some q →
      ps[j]? = some q ∨ j = ps.length ∧ q = p := by
    intro j q hq
    by_cases hj : j < ps.length
    · exact Or.inl (by rwa [List.getElem?_append_left hj] at hq)
    · have hlen := (List.getElem?_eq_some_iff.mp hq).1
      rw [List.length_append, List.length_singleton] at hlen
      have hjl : j = ps.length := by omega
      subst hjl
      refine Or.inr ⟨rfl, ?_⟩
      rw [List.getElem?_append_right (Nat.le_refl _), Nat.sub_self] at hq
      simpa using hq.symm
  have hmem : ∀ q ∈ ps ++ [p], q ∈ ps ∨ q = p := by
    intro q hq
    simpa using hq
  refine ⟨h.ids, h.ids_ge, ?_, ?_, h.keys, ?_, h.balance, h.gone, ?_, ?_⟩
  · intro j k q r hq hr hqd hrd heq
    rcases hget j q hq with hq' | ⟨hj, hqp⟩
    · rcases hget k r hr with hr' | ⟨-, hrp⟩
      · exact h.fds j k q r hq' hr' hqd hrd heq
      · exact absurd (hrp ▸ heq) (hfd q (List.mem_of_getElem? hq') hqd)
    · rcases hget k r hr with hr' | ⟨hk, -⟩
      · exact absurd (hqp ▸ heq.symm) (hfd r (List.mem_of_getElem? hr') hrd)
      · exact hj.trans hk.symm
  · intro q hq hqd
    rcases hmem q hq with hq | rfl
    · exact h.closed q hq hqd
    · exact absurd hqd (by rw [hd]; decide)
  · intro s hs' e
    rw [h.entries s hs' e]
    constructor
    · rintro ⟨q, hq, hrest⟩
      refine ⟨q, ?_, hrest⟩
      rw [List.getElem?_append_left (List.getElem?_eq_some_iff.mp hq).1, hq]
    · rintro ⟨q, hq, hqc, hqf, hqs⟩
      rcases hget e.2 q hq with hq | ⟨-, rfl⟩
      · exact ⟨q, hq, hqc, hqf, hqs⟩
      · have := h.ids_ge s (List.mem_append_left _ hs')
        omega
  · intro q hq hqc hqs
    rcases hmem q hq with hq | rfl
    · exact h.present q hq hqc hqs
    · exact absurd hs hqs
  · intro q hq id hid
    rcases hmem q hq with hq | rfl
    · exact h.added q hq id hid
    · rw [hev] at hid
      exact absurd hid List.not_mem_nil

/-- A new session is empty. -/
theorem addSession (h : Accounts ps ss rs) {media : MediaSession} (suffix : Bytes)
    (hge : 2 ≤ media.sessionId) (hnew : ∀ s ∈ ss ++ rs, s.id ≠ media.sessionId) :
    Accounts ps (ss ++ [⟨media, suffix, [], 0, 0⟩]) rs := by
  let new : LiveSession := ⟨media, suffix, [], 0, 0⟩
  have hmem : ∀ s ∈ ss ++ [new], s ∈ ss ∨ s = new := by
    intro s hs
    simpa using hs
  have hperm : (ss ++ [new] ++ rs).Perm (new :: (ss ++ rs)) := by
    rw [List.append_assoc, List.singleton_append]
    exact List.perm_middle
  refine ⟨?_, ?_, h.fds, h.closed, ?_, ?_, ?_, h.gone, ?_, h.added⟩
  · rw [(hperm.map LiveSession.id).nodup_iff, List.map_cons, List.nodup_cons]
    refine ⟨?_, h.ids⟩
    intro hid
    obtain ⟨s, hs, heq⟩ := List.mem_map.mp hid
    exact hnew s hs heq
  · intro s hs
    rcases List.mem_cons.mp (hperm.mem_iff.mp hs) with rfl | hs
    · exact hge
    · exact h.ids_ge s hs
  · intro s hs
    rcases hmem s hs with hs | rfl
    · exact h.keys s hs
    · exact List.nodup_nil
  · intro s hs e
    rcases hmem s hs with hs | rfl
    · exact h.entries s hs e
    · refine iff_of_false List.not_mem_nil ?_
      -- Whoever has described a session has described one that is there.
      rintro ⟨q, hq, hqc, -, hqs⟩
      have hq0 : q.sessionId ≠ 0 := by
        rw [hqs]
        exact Nat.ne_of_gt (Nat.lt_of_lt_of_le Nat.zero_lt_two hge)
      obtain ⟨t, ht, hid⟩ := h.present q (List.mem_of_getElem? hq) hqc hq0
      exact hnew t (List.mem_append_left _ ht) (hid.trans hqs)
  · intro s hs
    rcases hmem s hs with hs | rfl
    · exact h.balance s hs
    · rfl
  · intro q hq hqc hqs
    obtain ⟨s, hs, hid⟩ := h.present q hq hqc hqs
    exact ⟨s, List.mem_append_left _ hs, hid⟩

/-- A session that is removed has nobody in it. -/
theorem removeSession {s : LiveSession} (h : Accounts ps ss rs) (hs : s ∈ ss)
    (hnil : s.clients = []) :
    Accounts ps (ss.filter fun t => t.id ≠ s.id) (rs ++ [s]) := by
  have hsub : ∀ t ∈ ss.filter (fun t => t.id ≠ s.id), t ∈ ss ∧ t.id ≠ s.id := by
    intro t ht
    simpa using List.mem_filter.mp ht
  have hperm : (ss.filter (fun t => t.id ≠ s.id) ++ (rs ++ [s])).Perm
      (s :: (ss.filter (fun t => t.id ≠ s.id) ++ rs)) := by
    rw [← List.append_assoc]
    exact List.perm_append_singleton _ _
  have hrest : (ss.filter (fun t => t.id ≠ s.id) ++ rs).Sublist (ss ++ rs) :=
    List.filter_sublist.append (List.Sublist.refl rs)
  have hnd : (ss ++ rs).map LiveSession.id = ss.map LiveSession.id ++ rs.map LiveSession.id :=
    List.map_append
  refine ⟨?_, ?_, h.fds, h.closed, fun t ht => h.keys t (hsub t ht).1,
    fun t ht => h.entries t (hsub t ht).1, fun t ht => h.balance t (hsub t ht).1, ?_, ?_, h.added⟩
  · rw [(hperm.map LiveSession.id).nodup_iff, List.map_cons, List.nodup_cons]
    refine ⟨?_, h.ids.sublist (hrest.map _)⟩
    intro hid
    obtain ⟨t, ht, heq⟩ := List.mem_map.mp hid
    rcases List.mem_append.mp ht with ht | ht
    · exact (hsub t ht).2 heq
    · have hdis := List.disjoint_of_nodup_append (hnd ▸ h.ids)
      exact hdis (List.mem_map_of_mem hs) (heq ▸ List.mem_map_of_mem ht)
  · intro t ht
    rcases List.mem_cons.mp (hperm.mem_iff.mp ht) with rfl | ht
    · exact h.ids_ge t (List.mem_append_left _ hs)
    · exact h.ids_ge t (hrest.subset ht)
  · intro t ht
    rcases List.mem_append.mp ht with ht | ht
    · exact h.gone t ht
    · obtain rfl : t = s := by simpa using ht
      have := h.balance t hs
      rw [hnil] at this
      exact ⟨hnil, this⟩
  · -- An open party of the session would be in its map.
    intro q hq hqc hqs
    obtain ⟨t, ht, hid⟩ := h.present q hq hqc hqs
    refine ⟨t, List.mem_filter.mpr ⟨ht, ?_⟩, hid⟩
    simp only [ne_eq, decide_not, Bool.not_eq_true', decide_eq_false_iff_not]
    intro heq
    obtain ⟨j, hj⟩ := List.getElem?_of_mem hq
    have hmem : (q.sockfd, j) ∈ s.clients :=
      (h.entries s hs _).mpr ⟨q, hj, hqc, rfl, by rw [← hid, heq]⟩
    rw [hnil] at hmem
    exact List.not_mem_nil hmem

/-- Entries have not expired. -/
theorem unexpired (h : Accounts ps ss rs) {s : LiveSession} (hs : s ∈ ss) {alive : Nat → Bool}
    (ha : ∀ (j : Nat) (q : Party), ps[j]? = some q → q.destroyed = false → alive j = true) :
    s.clients.filter (fun e => alive e.2) = s.clients := by
  refine List.filter_eq_self.mpr ?_
  intro e he
  obtain ⟨q, hq, hqc, -, -⟩ := (h.entries s hs e).mp he
  refine ha e.2 q hq ?_
  cases hd : q.destroyed with
  | false => rfl
  | true =>
    have := h.closed q (List.mem_of_getElem? hq) hd
    rw [hqc] at this
    exact Bool.noConfusion this

end Accounts

/-! ## The server keeps the books -/

def RtspServer.Balanced (srv : RtspServer) : Prop :=
  Accounts (srv.conns.map RtspConnection.party) srv.sessions srv.removed

theorem getElem?_party {srv : RtspServer} {i : Nat} {c : RtspConnection}
    (h : srv.conns[i]? = some c) : (srv.conns.map RtspConnection.party)[i]? = some c.party := by
  rw [List.getElem?_map, h]
  rfl

/-- The session a connection remembers is found, as long as it is there. -/
theorem departure_within {srv : RtspServer} {sessionId : Nat} (env : Env)
    (h : sessionId ≠ 0 → ∃ s ∈ srv.sessions, s.id = sessionId) :
    RtspConnection.departure sessionId (env.within srv.rtsp) = Accounts.farewell sessionId := by
  unfold RtspConnection.departure Accounts.farewell
  by_cases h0 : sessionId = 0
  · rw [if_pos h0, if_pos h0]
    rfl
  · obtain ⟨s, hs, hid⟩ := h h0
    have hlook : ∃ t, srv.lookId sessionId = some t ∧ t.id = sessionId := by
      cases hf : srv.lookId sessionId with
      | none =>
        have := List.find?_eq_none.mp hf s hs
        simp [hid] at this
      | some t => exact ⟨t, rfl, by simpa using List.find?_some hf⟩
    obtain ⟨t, ht, htid⟩ := hlook
    have hrtsp : ((env.within srv.rtsp).rtsp.bind fun r => r.lookId sessionId) = some t.media := by
      show srv.rtsp.lookId sessionId = _
      simp [RtspServer.rtsp, h0, ht]
    rw [if_neg h0, if_neg h0, hrtsp]
    show [Effect.clientRemoved t.id] = _
    rw [htid]

theorem env_within {r : Rtsp} {input : Input} {env : Env} (h : (input.within r).env = some env) :
    ∃ e : Env, env = e.within r := by
  cases input <;> simp only [Input.within, Input.env, Option.some.injEq, reduceCtorEq] at h
  all_goals exact ⟨_, h.symm⟩

/-- From `d` to `c'` the connection may close, and the books are kept. -/
theorem Accounts.departs {ps : List Party} {ss rs : List LiveSession} {i : Nat}
    {d c' : RtspConnection} {env : Env} {alive : Nat → Bool} (h : Accounts ps ss rs)
    (hp : ps[i]? = some d.party) (ha : alive i = true) (hd : d.Departs env c')
    (hdep : c'.isClosed = d.isClosed ∨
      RtspConnection.departure d.sessionId env = Accounts.farewell d.sessionId) :
    ∃ es, clientEvents c'.log = clientEvents d.log ++ es ∧
      Accounts (ps.set i c'.party) (es.foldl (RtspServer.apply alive d.sockfd i) ss) rs := by
  have hev := hd.events
  by_cases hclosing : c'.isClosed = true ∧ d.isClosed = false
  · have hfar := hdep.resolve_left (by rw [hclosing.1, hclosing.2]; decide)
    rw [hclosing.1, hclosing.2, hfar] at hev
    have hparty : c'.party = { d.party with
        isClosed := true
        events := d.party.events ++ farewell d.party.sessionId } := by
      rw [RtspConnection.party, hd.sockfd, hclosing.1, hd.destroyed, hd.sessionId, hev]
      rfl
    refine ⟨farewell d.sessionId, hev, ?_⟩
    rw [hparty]
    exact h.leave hp hclosing.2 ha
  · have hsame : c'.isClosed = d.isClosed := by
      cases hc : d.isClosed with
      | true => exact hd.closed hc
      | false =>
        cases hc' : c'.isClosed with
        | false => rfl
        | true => exact absurd ⟨hc', hc⟩ hclosing
    have hnone : clientEvents c'.log = clientEvents d.log := by
      rw [hev, hsame]
      cases d.isClosed <;> simp
    have hparty : c'.party = d.party := by
      rw [RtspConnection.party, hd.sockfd, hsame, hd.destroyed, hd.sessionId, hnone]
      rfl
    have hset : ps.set i c'.party = ps := by
      rw [hparty]
      obtain ⟨hi, hpi⟩ := List.getElem?_eq_some_iff.mp hp
      rw [← hpi, List.set_getElem_self]
    refine ⟨[], by rw [hnone, List.append_nil], ?_⟩
    rw [hset]
    exact h

theorem serve_not_destroyed {c c' : RtspConnection} {i : Input} (h : c.serve i = some c') :
    c.destroyed = false := by
  cases hd : c.destroyed with
  | false => rfl
  | true => simp [RtspConnection.serve, hd] at h

/-- **One call.** -/
theorem RtspServer.Balanced.call {srv : RtspServer} {i : Nat} {input : Input}
    {c c' : RtspConnection} (h : srv.Balanced) (hg : Tidy srv (.call i input))
    (hc : srv.conns[i]? = some c) (hs : c.serve (input.within srv.rtsp) = some c') :
    (srv.advance i c c').Balanced := by
  have hlive := serve_not_destroyed hs
  have hp := getElem?_party hc
  have hi : i < srv.conns.length := (List.getElem?_eq_some_iff.mp hc).1
  have halive : c'.destroyed = false →
      ({ srv with conns := srv.conns.set i c' } : RtspServer).alive i = true := by
    intro hd
    simp [RtspServer.alive, List.getElem?_set_self hi, hd]
  have hpresent : c.isClosed = false → c.sessionId ≠ 0 →
      ∃ s ∈ srv.sessions, s.id = c.sessionId := by
    intro hopen h0
    exact h.present c.party (List.mem_of_getElem? hp) hopen h0
  -- Whatever the log says has been done to the sessions.
  have hdone : ∀ {es : List Effect}, clientEvents c'.log = clientEvents c.log ++ es →
      Accounts ((srv.conns.map RtspConnection.party).set i c'.party)
        (es.foldl (RtspServer.apply ({ srv with conns := srv.conns.set i c' } : RtspServer).alive
          c.sockfd i) srv.sessions) srv.removed → (srv.advance i c c').Balanced := by
    intro es hes hacc
    unfold RtspServer.Balanced RtspServer.advance
    simp only [hes, List.drop_left, List.map_set]
    exact hacc
  rcases RtspConnection.serve_handled hs with ⟨env, hd, hor⟩ | ⟨env, req, hreq, ho, hd⟩ |
    ⟨-, hclosed, rfl⟩
  · obtain ⟨es, hes, hacc⟩ := Accounts.departs h hp (halive (hd.destroyed.trans hlive)) hd (by
      rcases hor with henv | hsame
      · obtain ⟨e, rfl⟩ := env_within henv
        cases hopen : c.isClosed with
        | true => exact Or.inl (hd.closed hopen)
        | false => exact Or.inr (departure_within e (hpresent hopen))
      · exact Or.inl hsame)
    exact hdone hes hacc
  · obtain ⟨e, rfl⟩ : ∃ e : Env, env = e.within srv.rtsp := env_within (by rw [hreq]; rfl)
    rcases hd with hd | ⟨session, d, hdesc, hfd, hsid, hdc, hdd, hev, hd⟩
    · obtain ⟨es, hes, hacc⟩ := Accounts.departs h hp (halive (hd.destroyed.trans hlive)) hd
        (Or.inr (departure_within e (hpresent ho)))
      exact hdone hes hacc
    · -- The session described is one of the server's.
      obtain ⟨s, hs', rfl⟩ : ∃ s ∈ srv.sessions, s.media = session := by
        obtain ⟨s, hf, heq⟩ := Option.map_eq_some_iff.mp hdesc.found
        exact ⟨s, List.mem_of_find?_eq_some hf, heq⟩
      have hone : c.sessionId = 0 ∨ c.sessionId = s.id := by
        cases input with
        | request req' env' =>
          simp only [Input.within, Input.request.injEq] at hreq
          obtain ⟨rfl, henv⟩ := hreq
          refine hg c hc s.media ?_
          rw [henv]
          exact hdesc.describing
        | _ => simp [Input.within] at hreq
      have hparty : d.party = { c.party with
          sessionId := s.id
          events := c.party.events ++ [.clientAdded s.id] } := by
        rw [RtspConnection.party, hfd, hdc, hdd, hsid, hev]
        rfl
      have hd' := hd.destroyed.trans (hdd.trans hlive)
      have hjoin := Accounts.join h hp ho hs' hone
        ({ srv with conns := srv.conns.set i c' } : RtspServer).alive
      rw [← hparty] at hjoin
      have hpd : ((srv.conns.map RtspConnection.party).set i d.party)[i]? = some d.party :=
        List.getElem?_set_self (by rw [List.length_map]; exact hi)
      obtain ⟨es, hes, hacc⟩ := hjoin.departs hpd (halive hd') hd (Or.inr (by
        refine departure_within e ?_
        intro _
        exact ⟨s, hs', hsid.symm⟩))
      rw [hev, List.append_assoc] at hes
      rw [List.set_set, hfd] at hacc
      exact hdone hes hacc
  · have hes : clientEvents c.destroy.log = clientEvents c.log ++ [] := by
      rw [RtspConnection.destroy_events, List.append_nil]
    have hparty : c.destroy.party = { c.party with destroyed := true } := by
      rw [RtspConnection.party, RtspConnection.destroy_events]
      rfl
    refine hdone hes ?_
    rw [hparty]
    exact Accounts.destroy h hp hclosed

/-- Sending is no business of the sessions. -/
theorem sendTo_party (c : RtspConnection) (chn : MediaChannelId) (pkt : RtpPacket) (taken : Bool) :
    (RtspServer.sendTo c chn pkt taken).1.party = c.party := by
  unfold RtspServer.sendTo
  split
  · rfl
  · split
    · rfl
    · cases h : c.sendRtpPacket chn pkt taken with
      | none => rfl
      | some c' =>
        obtain ⟨_, -, rfl | ⟨rfl, -⟩⟩ := RtspConnection.sendRtpPacket_cases h <;> rfl

theorem RtspServer.Balanced.frame {srv : RtspServer} (h : srv.Balanced) {s : LiveSession}
    (hs : s ∈ srv.sessions) (chn : MediaChannelId) (pkt : RtpPacket) :
    (srv.startPush s chn pkt).Balanced := by
  have hall : s.clients.filter (fun e => srv.alive e.2) = s.clients := by
    refine h.unexpired hs ?_
    intro j q hq hqd
    rw [List.getElem?_map, Option.map_eq_some_iff] at hq
    obtain ⟨c, hc, rfl⟩ := hq
    have hlive : c.destroyed = false := hqd
    simp [RtspServer.alive, hc, hlive]
  have hsame : (srv.startPush s chn pkt).sessions = srv.sessions := by
    simp only [RtspServer.startPush, hall]
    refine (List.map_congr_left ?_).trans (List.map_id _)
    intro t ht
    split
    · rename_i heq
      rw [List.inj_on_of_nodup_map h.ids (List.mem_append_left _ ht) (List.mem_append_left _ hs) heq]
      rfl
    · rfl
  unfold RtspServer.Balanced
  rw [hsame]
  exact h

theorem RtspServer.Balanced.offer {srv srv' : RtspServer} {k : Nat} {taken : Bool}
    (h : srv.Balanced) (hs : srv.continuePush k taken = some srv') : srv'.Balanced := by
  unfold RtspServer.continuePush at hs
  split at hs
  · simp at hs
  · split at hs
    · simp only [Option.some.injEq] at hs
      subst hs
      exact h
    · rename_i push _ i rest _
      simp only [Option.map_eq_some_iff] at hs
      obtain ⟨c, hc, rfl⟩ := hs
      unfold RtspServer.Balanced
      dsimp only
      rw [List.map_set, sendTo_party]
      obtain ⟨hi, hpi⟩ := List.getElem?_eq_some_iff.mp (getElem?_party hc)
      rw [← hpi, List.set_getElem_self]
      exact h

theorem RtspServer.Balanced.step {authInfo : Option DigestAuthentication} {srv srv' : RtspServer}
    {i : ServerInput} (h : srv.Balanced) (hg : Tidy srv i) (hs : srv.step authInfo i = some srv') :
    srv'.Balanced := by
  cases i with
  | addSession media suffix =>
    simp only [RtspServer.step] at hs
    split at hs
    · rename_i hok
      simp only [Option.some.injEq] at hs
      subst hs
      exact Accounts.addSession h suffix hok.1 hok.2.1
    · simp at hs
  | removeSession id =>
    simp only [RtspServer.step, Option.map_eq_some_iff] at hs
    obtain ⟨s, hf, rfl⟩ := hs
    have hmem := List.mem_of_find?_eq_some hf
    obtain rfl : s.id = id := by simpa using List.find?_some hf
    exact Accounts.removeSession h hmem (hg s hmem rfl)
  | accept fd request =>
    simp only [RtspServer.step] at hs
    split at hs
    · rename_i hok
      simp only [Option.some.injEq] at hs
      subst hs
      unfold RtspServer.Balanced
      rw [List.map_append]
      refine Accounts.accept h rfl rfl rfl rfl ?_
      intro q hq hqd
      obtain ⟨c, hc, rfl⟩ := List.mem_map.mp hq
      have hlive : c.destroyed = false := hqd
      exact hok.2 c hc hlive
    · simp at hs
  | call i input =>
    -- A push is a step of its own.
    have hcall : ((srv.conns[i]?).bind fun c =>
        (c.serve (input.within srv.rtsp)).map fun c' => srv.advance i c c') = some srv' := by
      cases input <;> first | exact hs | simp [RtspServer.step] at hs
    obtain ⟨c, hc, hserve⟩ := Option.bind_eq_some_iff.mp hcall
    obtain ⟨c', hc', rfl⟩ := Option.map_eq_some_iff.mp hserve
    exact h.call hg hc hc'
  | frame id chn pkt =>
    simp only [RtspServer.step, Option.map_eq_some_iff] at hs
    obtain ⟨s, hf, rfl⟩ := hs
    exact h.frame (List.mem_of_find?_eq_some hf) chn pkt
  | offer k taken => exact h.offer hs

theorem new_balanced : RtspServer.new.Balanced :=
  ⟨List.nodup_nil, by simp [RtspServer.new], by simp [RtspServer.new], by simp [RtspServer.new],
    by simp [RtspServer.new], by simp [RtspServer.new], by simp [RtspServer.new],
    by simp [RtspServer.new], by simp [RtspServer.new], by simp [RtspServer.new]⟩

theorem reach_balanced {authInfo : Option DigestAuthentication} {srv : RtspServer}
    (h : Reach (RtspServer.server authInfo) Tidy srv) : srv.Balanced := by
  refine h.inv ?_ ?_
  · rintro s rfl
    exact new_balanced
  · intro s i t hs hg hst
    exact hs.step hg hst

/-- The connection is open. -/
def RtspServer.isOpen (srv : RtspServer) (i : Nat) : Bool :=
  match srv.conns[i]? with
  | some c => !c.isClosed
  | none => false

/-- **The viewers of a session are those it has been told of.** In every run that keeps to the
guard, the callbacks of every session, removed or not, differ by the number of open connections
registered in it; with all connections closed they are equal; and an open connection that has
described a session is registered in it, with its own RTP connection. -/
theorem client_accounting (authInfo : Option DigestAuthentication) {srv : RtspServer}
    (h : Reach (RtspServer.server authInfo) Tidy srv) :
    (∀ s ∈ srv.sessions ++ srv.removed,
      s.connected = s.disconnected + (s.clients.filter fun e => srv.isOpen e.2).length ∧
      ((∀ c ∈ srv.conns, c.isClosed = true) → s.connected = s.disconnected)) ∧
    ∀ (i : Nat) (c : RtspConnection), srv.conns[i]? = some c → c.isClosed = false →
      ∀ id, .clientAdded id ∈ c.log → ∃ s ∈ srv.sessions, s.id = id ∧ (c.sockfd, i) ∈ s.clients := by
  have hb := reach_balanced h
  have hopen : ∀ s ∈ srv.sessions, s.clients.filter (fun e => srv.isOpen e.2) = s.clients := by
    intro s hs
    refine List.filter_eq_self.mpr ?_
    intro e he
    obtain ⟨q, hq, hqc, -, -⟩ := (hb.entries s hs e).mp he
    rw [List.getElem?_map, Option.map_eq_some_iff] at hq
    obtain ⟨c, hc, rfl⟩ := hq
    have hco : c.isClosed = false := hqc
    simp [RtspServer.isOpen, hc, hco]
  have hcount : ∀ s ∈ srv.sessions ++ srv.removed,
      s.connected = s.disconnected + (s.clients.filter fun e => srv.isOpen e.2).length := by
    intro s hs
    rcases List.mem_append.mp hs with hs | hs
    · rw [hopen s hs]
      exact hb.balance s hs
    · obtain ⟨hnil, heq⟩ := hb.gone s hs
      rw [hnil, heq]
      rfl
  refine ⟨fun s hs => ⟨hcount s hs, ?_⟩, ?_⟩
  · intro hall
    have hnone : s.clients.filter (fun e => srv.isOpen e.2) = [] := by
      refine List.filter_eq_nil_iff.mpr ?_
      intro e _
      unfold RtspServer.isOpen
      split
      · rename_i c hc
        simp [hall c (List.mem_of_getElem? hc)]
      · simp
    rw [hcount s hs, hnone]
    rfl
  · intro i c hc ho id hid
    have hp := getElem?_party hc
    have hev : .clientAdded id ∈ c.party.events := List.mem_filter.mpr ⟨hid, rfl⟩
    obtain ⟨hsid, h0⟩ := hb.added c.party (List.mem_of_getElem? hp) id hev
    obtain ⟨s, hs, hs'⟩ := hb.present c.party (List.mem_of_getElem? hp) ho (hsid ▸ h0)
    exact ⟨s, hs, hs'.trans hsid.symm,
      (hb.entries s hs _).mpr ⟨c.party, hp, ho, rfl, hs'.symm⟩⟩

/-- A unicast session of a video track. -/
def videoSession (id : Nat) : MediaSession :=
  ⟨id, false, [], fun _ => 0, fun chn => if chn = .channel0 then some ⟨90000, 96⟩ else none,
    ascii "v=0"⟩

/-- A DESCRIBE of `rtsp://h/` and this suffix. -/
def describeOf (suffix : Bytes) : RtspRequest :=
  { RtspRequest.forLive .describe .rtpOverTcp .channel0 [(.cseq, [], 1)] with
    requestLineParam := [(.url, ascii "rtsp://h/" ++ suffix, 0), (.urlIp, ascii "h", 0),
      (.urlPort, [], 554), (.urlSuffix, suffix, 0), (.version, ascii "RTSP/1.0", 0),
      (.method, Method.describe.toBytes, 0)] }

/-- Two sessions, and a client that describes these and goes. -/
def visiting (suffixes : List Bytes) : List ServerInput :=
  [.addSession (videoSession 2) (ascii "live"), .addSession (videoSession 3) (ascii "cam"),
    .accept 5 ⟨.none, .channel0, .rtpOverTcp, [], [], [], .parseRequestLine⟩] ++
    (suffixes.map fun suffix => .call 0 (.request (describeOf suffix) Env.idle)) ++
    [.call 0 (.close Env.idle), .call 0 .destroy]

/-- How often each callback of every session has been called, and how many are in its map. -/
def RtspServer.books (srv : RtspServer) : List (Nat × Nat × Nat) :=
  srv.sessions.map fun s => (s.connected, s.disconnected, s.clients.length)

theorem server_start : (RtspServer.server none).start RtspServer.new := rfl

theorem client_accounting_one :
    ∃ srv : RtspServer, srv.books = [(1, 1, 0), (0, 0, 0)] ∧
      (∀ s ∈ srv.sessions ++ srv.removed,
        s.connected = s.disconnected + (s.clients.filter fun e => srv.isOpen e.2).length ∧
        ((∀ c ∈ srv.conns, c.isClosed = true) → s.connected = s.disconnected)) ∧
      ∀ (i : Nat) (c : RtspConnection), srv.conns[i]? = some c → c.isClosed = false →
        ∀ id, .clientAdded id ∈ c.log →
          ∃ s ∈ srv.sessions, s.id = id ∧ (c.sockfd, i) ∈ s.clients := by
  obtain ⟨srv, hr, hb⟩ := reach_of_runFrom (RtspServer.step none) Tidy RtspServer.new
    (visiting [ascii "live", ascii "live"]) RtspServer.books [(1, 1, 0), (0, 0, 0)] server_start
    (by decide +kernel)
  have h := client_accounting none hr
  exact ⟨srv, hb, h⟩

/-- **A client that describes two sessions and goes** is still counted in the first. -/
theorem client_accounting_two :
    ¬ ∀ (authInfo : Option DigestAuthentication) (srv : RtspServer),
      Reach (RtspServer.server authInfo) (anyStep _ _) srv →
      (∀ s ∈ srv.sessions ++ srv.removed,
        s.connected = s.disconnected + (s.clients.filter fun e => srv.isOpen e.2).length ∧
        ((∀ c ∈ srv.conns, c.isClosed = true) → s.connected = s.disconnected)) ∧
      ∀ (i : Nat) (c : RtspConnection), srv.conns[i]? = some c → c.isClosed = false →
        ∀ id, .clientAdded id ∈ c.log →
          ∃ s ∈ srv.sessions, s.id = id ∧ (c.sockfd, i) ∈ s.clients := by
  intro h
  obtain ⟨srv, hr, hb⟩ := reach_of_runFrom (RtspServer.step none) (anyStep _ _) RtspServer.new
    (visiting [ascii "live", ascii "cam"])
    (fun srv => (srv.books, srv.conns.all RtspConnection.isClosed))
    ([(1, 0, 1), (1, 1, 0)], true) server_start (by decide +kernel)
  obtain ⟨hbooks, hclosed⟩ := Prod.mk.inj hb
  have hall : ∀ c ∈ srv.conns, c.isClosed = true := List.all_eq_true.mp hclosed
  have hfirst : (1, 0, 1) ∈ srv.books := by
    rw [hbooks]
    exact List.mem_cons_self
  obtain ⟨s, hs, heq⟩ := List.mem_map.mp hfirst
  obtain ⟨hcon, hrest⟩ := Prod.mk.inj heq
  obtain ⟨hdis, -⟩ := Prod.mk.inj hrest
  have := ((h none srv hr).1 s (List.mem_append_left _ hs)).2 hall
  rw [hcon, hdis] at this
  exact absurd this (by decide)

end Maixii.Xop
