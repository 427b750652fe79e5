import Maixii.Xop.Clients

/-!
# `Xop/Registered.lean`: an open connection stays in its maps

A map of clients is keyed by socket number, and every connection of the server writes into it under
its own. Since no two connections have one socket (`OwnSockets`), nobody but the connection itself
takes its entry out, and it does so only when it closes: whatever step the server takes, an entry
of an open connection stays (`registered_step`). This holds in every run, whatever the clients do.
-/

set_option autoImplicit false

namespace Maixii.Xop

open Maixii.Lib Maixii.Net

/-! ## Connections and their sockets -/

namespace RtspConnection

/-- A connection keeps its socket, stays closed, and is closed before it goes. -/
theorem serve_keeps {c c' : RtspConnection} {i : Input} (h : c.serve i = some c') :
    c'.sockfd = c.sockfd ∧ (c.isClosed = true → c'.isClosed = true) ∧
      (c'.destroyed = true → c'.isClosed = true) := by
  have hlive := serve_not_destroyed h
  rcases serve_handled h with ⟨env, hd, -⟩ | ⟨env, req, -, ho, hd | hd⟩ | ⟨-, hc, rfl⟩
  · refine ⟨hd.sockfd, hd.closed, ?_⟩
    intro hdes
    rw [hd.destroyed, hlive] at hdes
    exact absurd hdes (by decide)
  · refine ⟨hd.sockfd, hd.closed, ?_⟩
    intro hdes
    rw [hd.destroyed, hlive] at hdes
    exact absurd hdes (by decide)
  · obtain ⟨session, d, -, hfd, -, hdc, hdd, -, hd⟩ := hd
    refine ⟨hd.sockfd.trans hfd, fun hc => hd.closed (hdc.trans hc), ?_⟩
    intro hdes
    rw [hd.destroyed, hdd, hlive] at hdes
    exact absurd hdes (by decide)
  · exact ⟨rfl, fun _ => hc, fun _ => hc⟩

/-- A connection that stays open leaves no session. -/
theorem serve_stays {c c' : RtspConnection} {i : Input} (h : c.serve i = some c')
    (ho : c'.isClosed = false) :
    ∀ e ∈ (clientEvents c'.log).drop (clientEvents c.log).length, ∃ id, e = .clientAdded id := by
  have hnone : ∀ {d : RtspConnection} {env : Env}, d.Departs env c' →
      clientEvents c'.log = clientEvents d.log := by
    intro d env hd
    rw [hd.events, ho]
    simp
  rcases serve_handled h with ⟨env, hd, -⟩ | ⟨env, req, -, -, hd | hd⟩ | ⟨-, hc, rfl⟩
  · rw [hnone hd, List.drop_length]
    exact List.forall_mem_nil _
  · rw [hnone hd, List.drop_length]
    exact List.forall_mem_nil _
  · obtain ⟨session, d, -, -, -, -, -, hev, hd⟩ := hd
    rw [hnone hd, hev, List.drop_left]
    intro e he
    exact ⟨session.sessionId, List.mem_singleton.mp he⟩
  · rw [destroy_events, List.drop_length]
    exact List.forall_mem_nil _

end RtspConnection

namespace RtspServer

variable {authInfo : Option DigestAuthentication} {srv srv' : RtspServer}

/-- The socket of a connection that has just been accepted is nobody else's. -/
theorem step_fresh {i : Nat} {c' : RtspConnection} {inp : ServerInput}
    (hs : srv.step authInfo inp = some srv') (hc : srv.conns[i]? = none)
    (hc' : srv'.conns[i]? = some c') :
    i = srv.conns.length ∧ ∀ c ∈ srv.conns, c.destroyed = false → c.sockfd ≠ c'.sockfd := by
  have hlen : srv.conns.length ≤ i := List.getElem?_eq_none_iff.mp hc
  have hlt : i < srv'.conns.length := (List.getElem?_eq_some_iff.mp hc').1
  obtain ⟨fd, request, hacc⟩ : ∃ fd request, inp = .accept fd request := by
    by_contra hne
    have hsame := step_length hs (fun fd request h => hne ⟨fd, request, h⟩)
    omega
  subst hacc
  simp only [step] at hs
  split at hs
  · rename_i hok
    obtain rfl := Option.some.inj hs
    rw [List.length_append, List.length_singleton] at hlt
    have hi : i = srv.conns.length := by omega
    refine ⟨hi, ?_⟩
    have hlast : (srv.conns ++ [RtspConnection.new fd authInfo request])[i]? = some c' := hc'
    rw [hi, List.getElem?_concat_length] at hlast
    rw [← Option.some.inj hlast]
    exact hok.2
  · simp at hs

/-- **No two connections have one socket**, and none goes before it is closed. -/
structure OwnSockets (srv : RtspServer) : Prop where
  fds : ∀ (i j : Nat) (c d : RtspConnection), srv.conns[i]? = some c → srv.conns[j]? = some d →
    c.destroyed = false → d.destroyed = false → c.sockfd = d.sockfd → i = j
  closed : ∀ (i : Nat) (c : RtspConnection), srv.conns[i]? = some c → c.destroyed = true →
    c.isClosed = true

theorem ConnStep.keeps {i : Nat} {c c' : RtspConnection} {inp : ServerInput}
    (h : ConnStep srv i c inp c') (hc : c.destroyed = true → c.isClosed = true) :
    c'.sockfd = c.sockfd ∧ (c'.destroyed = false → c.destroyed = false) ∧
      (c'.destroyed = true → c'.isClosed = true) ∧ (c'.isClosed = false → c.isClosed = false) := by
  have hserve : ∀ {j : Input}, c.serve j = some c' → c'.sockfd = c.sockfd ∧
      (c'.destroyed = false → c.destroyed = false) ∧ (c'.destroyed = true → c'.isClosed = true) ∧
      (c'.isClosed = false → c.isClosed = false) := by
    intro j hj
    obtain ⟨hfd, hcl, hdes⟩ := RtspConnection.serve_keeps hj
    refine ⟨hfd, fun _ => serve_not_destroyed hj, hdes, ?_⟩
    intro ho
    cases hcc : c.isClosed with
    | false => rfl
    | true =>
      rw [hcl hcc] at ho
      exact ho
  cases h with
  | idle _ => exact ⟨rfl, id, hc, id⟩
  | call _ h => exact hserve h
  | offer _ h => exact hserve h

theorem OwnSockets.step {inp : ServerInput} (h : srv.OwnSockets)
    (hs : srv.step authInfo inp = some srv') : srv'.OwnSockets := by
  -- A connection was there before, with its socket, or is the new one.
  have hback : ∀ {i : Nat} {c' : RtspConnection}, srv'.conns[i]? = some c' →
      (∃ c, srv.conns[i]? = some c ∧ c'.sockfd = c.sockfd ∧
        (c'.destroyed = false → c.destroyed = false) ∧
        (c'.destroyed = true → c'.isClosed = true)) ∨
      i = srv.conns.length ∧ c'.destroyed = false ∧
        ∀ c ∈ srv.conns, c.destroyed = false → c.sockfd ≠ c'.sockfd := by
    intro i c' hc'
    cases hc : srv.conns[i]? with
    | none =>
      obtain ⟨hi, hfd⟩ := step_fresh hs hc hc'
      obtain ⟨fd, request, -, rfl⟩ := step_new hs hc hc'
      exact Or.inr ⟨hi, rfl, hfd⟩
    | some c =>
      obtain ⟨d, hd, hstep⟩ := step_conn hs hc
      obtain rfl := Option.some.inj (hc'.symm.trans hd)
      obtain ⟨hfd, hdes, hcl, -⟩ := hstep.keeps (h.closed i c hc)
      exact Or.inl ⟨c, rfl, hfd, hdes, hcl⟩
  refine ⟨?_, ?_⟩
  · intro i j c d hc hd hcl hdl heq
    rcases hback hc with ⟨c₀, hc₀, hcf, hcd, -⟩ | ⟨hi, -, hcn⟩
    · rcases hback hd with ⟨d₀, hd₀, hdf, hdd, -⟩ | ⟨-, -, hdn⟩
      · exact h.fds i j c₀ d₀ hc₀ hd₀ (hcd hcl) (hdd hdl) (by rw [← hcf, ← hdf, heq])
      · exact absurd (hcf.symm.trans heq) (hdn c₀ (List.mem_of_getElem? hc₀) (hcd hcl))
    · rcases hback hd with ⟨d₀, hd₀, hdf, hdd, -⟩ | ⟨hj, -, -⟩
      · exact absurd (hdf.symm.trans heq.symm) (hcn d₀ (List.mem_of_getElem? hd₀) (hdd hdl))
      · exact hi.trans hj.symm
  · intro i c hc hdes
    rcases hback hc with ⟨_, -, -, -, hcl⟩ | ⟨-, hlive, -⟩
    · exact hcl hdes
    · rw [hlive] at hdes
      exact absurd hdes (by decide)

theorem ownSockets_reach {G : RtspServer → ServerInput → Prop} (h : Reach (server authInfo) G srv) :
    srv.OwnSockets := by
  refine h.inv ?_ fun _ _ _ hs _ hst => hs.step hst
  rintro _ rfl
  exact ⟨by simp [new], by simp [new]⟩

end RtspServer

/-! ## Staying in the map -/

/-- The entry is in the map of the session, as long as there is one. -/
def Registered (ss : List LiveSession) (sid : Nat) (e : Int × Nat) : Prop :=
  ∀ s, (ss.find? fun s => s.id = sid) = some s → e ∈ s.clients

theorem LiveSession.mem_addClient {s : LiveSession} {e : Int × Nat} (fd : Int) (i : Nat)
    (h : e ∈ s.clients) : e ∈ (s.addClient fd i).clients := by
  unfold LiveSession.addClient
  split
  · exact h
  · rename_i hnew
    have hne : e.1 ≠ fd := by
      intro heq
      exact hnew (List.any_eq_true.mpr ⟨e, h, by simpa using heq⟩)
    rcases Int.lt_or_gt_of_ne hne with hlt | hgt
    · exact List.mem_append_left _ (List.mem_filter.mpr ⟨h, by simpa using hlt⟩)
    · exact List.mem_append_right _
        (List.mem_cons_of_mem _ (List.mem_filter.mpr ⟨h, by simpa using hgt⟩))

theorem LiveSession.mem_removeClient {s : LiveSession} {e : Int × Nat} {alive : Nat → Bool}
    {fd : Int} (hne : fd ≠ e.1) (h : e ∈ s.clients) : e ∈ (s.removeClient alive fd).clients := by
  unfold LiveSession.removeClient
  split
  · exact h
  · exact List.mem_filter.mpr ⟨h, by simpa using Ne.symm hne⟩

namespace Registered

variable {ss : List LiveSession} {sid : Nat} {e : Int × Nat}

/-- Sessions keep their ids and the entry. -/
theorem map {f : LiveSession → LiveSession} (h : Registered ss sid e) (hid : ∀ s, (f s).id = s.id)
    (hf : ∀ s, (ss.find? fun s => s.id = sid) = some s → e ∈ s.clients → e ∈ (f s).clients) :
    Registered (ss.map f) sid e := by
  intro t ht
  rw [List.find?_map] at ht
  obtain ⟨s, hs, rfl⟩ := Option.map_eq_some_iff.mp ht
  have hfind : (ss.find? fun s => s.id = sid) = some s := by
    rw [← hs]
    congr 1
    funext s
    simp [hid]
  exact hf s hfind (h s hfind)

/-- What another socket does, or one that only registers. -/
theorem apply {alive : Nat → Bool} {fd : Int} {i : Nat} {x : Effect} (h : Registered ss sid e)
    (hx : fd ≠ e.1 ∨ ∃ id, x = .clientAdded id) :
    Registered (RtspServer.apply alive fd i ss x) sid e := by
  cases x with
  | clientAdded id =>
    refine h.map ?_ ?_
    · intro s
      split
      · exact s.addClient_id fd i
      · rfl
    · intro s _ hs
      split
      · exact s.mem_addClient fd i hs
      · exact hs
  | clientRemoved id =>
    have hne : fd ≠ e.1 := hx.resolve_right (by rintro ⟨id, hid⟩; exact Effect.noConfusion hid)
    refine h.map ?_ ?_
    · intro s
      split
      · exact s.removeClient_id alive fd
      · rfl
    · intro s _ hs
      split
      · exact s.mem_removeClient hne hs
      · exact hs
  | _ => exact h

theorem foldl_apply {alive : Nat → Bool} {fd : Int} {i : Nat} {es : List Effect}
    (h : Registered ss sid e) (hes : fd ≠ e.1 ∨ ∀ x ∈ es, ∃ id, x = .clientAdded id) :
    Registered (es.foldl (RtspServer.apply alive fd i) ss) sid e := by
  induction es generalizing ss with
  | nil => exact h
  | cons x es ih =>
    refine ih (h.apply (hes.imp_right fun hall => hall x List.mem_cons_self)) ?_
    exact hes.imp_right fun hall y hy => hall y (List.mem_cons_of_mem _ hy)

end Registered

namespace RtspServer

variable {authInfo : Option DigestAuthentication} {srv srv' : RtspServer}

/-- The session exists, or has existed. -/
def Known (srv : RtspServer) (sid : Nat) : Prop := ∃ s ∈ srv.sessions ++ srv.removed, s.id = sid

theorem Known.of_ids {sid : Nat} (h : srv.Known sid)
    (hids : ∀ s ∈ srv.sessions ++ srv.removed, ∃ t ∈ srv'.sessions ++ srv'.removed, t.id = s.id) :
    srv'.Known sid := by
  obtain ⟨s, hs, rfl⟩ := h
  exact hids s hs

theorem apply_ids (alive : Nat → Bool) (fd : Int) (i : Nat) (ss : List LiveSession)
    (es : List Effect) :
    (es.foldl (apply alive fd i) ss).map LiveSession.id = ss.map LiveSession.id := by
  induction es generalizing ss with
  | nil => rfl
  | cons x es ih =>
    rw [List.foldl_cons, ih]
    cases x with
    | clientAdded id =>
      rw [apply, List.map_map]
      refine List.map_congr_left ?_
      intro s _
      show LiveSession.id (if s.id = id then s.addClient fd i else s) = s.id
      split
      · exact s.addClient_id fd i
      · rfl
    | clientRemoved id =>
      rw [apply, List.map_map]
      refine List.map_congr_left ?_
      intro s _
      show LiveSession.id (if s.id = id then s.removeClient alive fd else s) = s.id
      split
      · exact s.removeClient_id alive fd
      · rfl
    | _ => rfl

/-- An id that has been given is not given again. -/
theorem Known.step {sid : Nat} {inp : ServerInput} (h : srv.Known sid)
    (hs : srv.step authInfo inp = some srv') : srv'.Known sid := by
  have hmap : ∀ {t : RtspServer}, t.sessions.map LiveSession.id = srv.sessions.map LiveSession.id →
      t.removed = srv.removed → t.Known sid := by
    intro t hids hrem
    refine h.of_ids ?_
    intro s hmem
    rcases List.mem_append.mp hmem with hmem | hmem
    · have : s.id ∈ t.sessions.map LiveSession.id := by
        rw [hids]
        exact List.mem_map_of_mem hmem
      obtain ⟨u, hu, hid⟩ := List.mem_map.mp this
      exact ⟨u, List.mem_append_left _ hu, hid⟩
    · exact ⟨s, List.mem_append_right _ (hrem ▸ hmem), rfl⟩
  cases inp with
  | addSession media suffix =>
    simp only [RtspServer.step] at hs
    split at hs
    · obtain rfl := Option.some.inj hs
      refine h.of_ids ?_
      intro s hmem
      refine ⟨s, ?_, rfl⟩
      rcases List.mem_append.mp hmem with hmem | hmem
      · exact List.mem_append_left _ (List.mem_append_left _ hmem)
      · exact List.mem_append_right _ hmem
    · simp at hs
  | removeSession id =>
    simp only [RtspServer.step, Option.map_eq_some_iff] at hs
    obtain ⟨r, hr, rfl⟩ := hs
    refine h.of_ids ?_
    intro s hmem
    by_cases hid : s.id = id
    · refine ⟨r, List.mem_append_right _ (List.mem_append_right _ List.mem_cons_self), ?_⟩
      have : r.id = id := by simpa using List.find?_some hr
      rw [this, hid]
    · refine ⟨s, ?_, rfl⟩
      rcases List.mem_append.mp hmem with hmem | hmem
      · exact List.mem_append_left _ (List.mem_filter.mpr ⟨hmem, by simpa using hid⟩)
      · exact List.mem_append_right _ (List.mem_append_left _ hmem)
  | accept fd request =>
    simp only [RtspServer.step] at hs
    split at hs
    · obtain rfl := Option.some.inj hs
      exact hmap rfl rfl
    · simp at hs
  | call j input =>
    obtain ⟨d, d', -, -, rfl⟩ := call_cases hs
    exact hmap (apply_ids _ _ _ _ _) rfl
  | frame id chn pkt =>
    simp only [RtspServer.step, Option.map_eq_some_iff] at hs
    obtain ⟨s, -, rfl⟩ := hs
    refine hmap ?_ rfl
    show List.map LiveSession.id (List.map _ _) = _
    rw [List.map_map]
    refine List.map_congr_left ?_
    intro t _
    simp only [Function.comp]
    split <;> rfl
  | offer k taken =>
    simp only [RtspServer.step, continuePush] at hs
    split at hs
    · simp at hs
    · split at hs
      · obtain rfl := Option.some.inj hs
        exact hmap rfl rfl
      · obtain ⟨d, hd, rfl⟩ := Option.map_eq_some_iff.mp hs
        exact hmap rfl rfl

/-- **An open connection stays in the map it is in.** -/
theorem registered_step {i : Nat} {sid : Nat} {c c' : RtspConnection} {inp : ServerInput}
    (hown : srv.OwnSockets) (hknown : srv.Known sid)
    (hreg : Registered srv.sessions sid (c.sockfd, i)) (hc : srv.conns[i]? = some c)
    (hs : srv.step authInfo inp = some srv') (hc' : srv'.conns[i]? = some c')
    (ho : c'.isClosed = false) : Registered srv'.sessions sid (c.sockfd, i) := by
  obtain ⟨x, hx, hstep⟩ := step_conn hs hc
  obtain rfl := Option.some.inj (hc'.symm.trans hx)
  have hopen : c.isClosed = false := (hstep.keeps (hown.closed i c hc)).2.2.2 ho
  have hlive : c.destroyed = false := by
    cases hd : c.destroyed with
    | false => rfl
    | true =>
      rw [hown.closed i c hc hd] at hopen
      exact hopen
  cases inp with
  | addSession media suffix =>
    simp only [RtspServer.step] at hs
    split at hs
    · rename_i hok
      obtain rfl := Option.some.inj hs
      intro s hfind
      rw [List.find?_append, Option.or_eq_some_iff] at hfind
      rcases hfind with hfind | ⟨-, hfind⟩
      · exact hreg s hfind
      · -- The new session has another id.
        obtain ⟨t, ht, hid⟩ := hknown
        have hs' := List.find?_some hfind
        obtain rfl := List.mem_singleton.mp (List.mem_of_find?_eq_some hfind)
        exact absurd (hid.trans (of_decide_eq_true hs').symm) (hok.2.1 t ht)
    · simp at hs
  | removeSession id =>
    simp only [RtspServer.step, Option.map_eq_some_iff] at hs
    obtain ⟨r, hr, rfl⟩ := hs
    intro s hfind
    have hmem := List.mem_of_find?_eq_some hfind
    have hid : s.id = sid := by simpa using List.find?_some hfind
    refine hreg s ?_
    rw [← hfind, List.find?_filter]
    congr 1
    funext t
    have hne : s.id ≠ id := by simpa using (List.mem_filter.mp hmem).2
    by_cases ht : t.id = sid
    · simp [ht, ← hid, hne]
    · simp [ht]
  | accept fd request =>
    simp only [RtspServer.step] at hs
    split at hs
    · obtain rfl := Option.some.inj hs
      exact hreg
    · simp at hs
  | call j input =>
    obtain ⟨d, d', hd, hserve, rfl⟩ := call_cases hs
    refine hreg.foldl_apply ?_
    by_cases hij : j = i
    · subst hij
      obtain rfl := Option.some.inj (hc.symm.trans hd)
      have hd' : (srv.advance j c d').conns[j]? = some d' :=
        List.getElem?_set_self (List.getElem?_eq_some_iff.mp hc).1
      obtain rfl := Option.some.inj (hc'.symm.trans hd')
      exact Or.inr (RtspConnection.serve_stays hserve ho)
    · refine Or.inl fun heq => hij ?_
      exact hown.fds j i d c hd hc (serve_not_destroyed hserve) hlive heq
  | frame id chn pkt =>
    simp only [RtspServer.step, Option.map_eq_some_iff] at hs
    obtain ⟨s, hfind, rfl⟩ := hs
    refine hreg.map ?_ ?_
    · intro t
      split <;> rfl
    · intro t ht hmem
      split
      · rename_i hid
        -- It is the session that pushes, and the client has not expired.
        have hst : s = t := by
          have hs' : s.id = id := by simpa using List.find?_some hfind
          have ht' : t.id = sid := by simpa using List.find?_some ht
          have hsid : sid = id := by rw [← ht', hid, hs']
          subst hsid
          exact Option.some.inj (hfind.symm.trans ht)
        refine List.mem_filter.mpr ⟨hst ▸ hmem, ?_⟩
        simp [alive, hc, hlive]
      · exact hmem
  | offer k taken =>
    simp only [RtspServer.step, continuePush] at hs
    split at hs
    · simp at hs
    · split at hs
      · obtain rfl := Option.some.inj hs
        exact hreg
      · obtain ⟨d, hd, rfl⟩ := Option.map_eq_some_iff.mp hs
        exact hreg

end RtspServer
end Maixii.Xop
