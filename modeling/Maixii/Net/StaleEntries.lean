import Maixii.Net.ConnectionRuns

/-!
# `Net/StaleEntries.lean`: an entry that nobody removes

What becomes of a connection that is closed while its callback is not there. Its removal is not
pending, `Close` does nothing a second time, and its number does not come round while the entry
keeps the socket open. So no step of any thread erases the entry (`entry_stays`), and
`TcpServer::Stop`, which sleeps until the table is empty, does not return.
-/

set_option autoImplicit false

namespace Maixii.Net

open Maixii.Lib

namespace TcpServer

variable {s s' : TcpServer} {k c : Nat} {conn : Connection} {sockfd : Int}

/-- The connection is closed and in the table, and its removal is not pending. -/
structure Forgotten (s : TcpServer) (sockfd : Int) (c : Nat) : Prop where
  listed : s.connections sockfd = some c
  closed : ∃ conn, s.objects[c]? = some conn ∧ conn.isClosed = true
  silent : ∀ k, (s.schedulers k).thread.closes ≠ some c ∧ sockfd ∉ (s.schedulers k).pending

/-- Its object is closed. -/
theorem Forgotten.isClosed (h : Forgotten s sockfd c) (hobj : s.objects[c]? = some conn) :
    conn.isClosed = true := by
  obtain ⟨x, hx, hclosed⟩ := h.closed
  obtain rfl := Option.some.inj (hobj.symm.trans hx)
  exact hclosed

/-- A scheduler goes on, and neither closes the connection nor removes the number. -/
theorem Forgotten.on (h : Forgotten s sockfd c) {f : Scheduler → Scheduler}
    (hcloses : (f (s.schedulers k)).thread.closes ≠ some c)
    (hpending : sockfd ∉ (f (s.schedulers k)).pending) : Forgotten (s.on k f) sockfd c where
  listed := h.listed
  closed := h.closed
  silent := by
    intro j
    by_cases hj : j = k
    · subst hj
      rw [on_self]
      exact ⟨hcloses, hpending⟩
    · rw [on_other hj]
      exact h.silent j

theorem Forgotten.pushes (h : Forgotten s sockfd c) {e : TriggerEvent} (he : e.removes = none) :
    Forgotten (s.push k e) sockfd c := by
  unfold push
  split
  · refine h.on (h.silent k).1 ?_
    have hsame : Scheduler.pending { s.schedulers k with
        triggerEvents := (s.schedulers k).triggerEvents ++ [e] } = (s.schedulers k).pending := by
      simp [Scheduler.pending, he]
    exact hsame ▸ (h.silent k).2
  · exact h

/-- A change of one object does not open another. -/
theorem Forgotten.modifies (h : Forgotten s sockfd c) {f : Connection → Connection} {d : Nat}
    (hclosed : ∀ x, x.isClosed = true → (f x).isClosed = true) :
    Forgotten { s with objects := s.objects.modify d f } sockfd c where
  listed := h.listed
  closed := by
    obtain ⟨x, hx, hxc⟩ := h.closed
    refine ⟨_, getElem?_modify_of_object hx, ?_⟩
    split
    · exact hclosed x hxc
    · exact hxc
  silent := h.silent

/-- It is closed already, so who begins to close a connection closes another. -/
theorem Forgotten.closes (h : Forgotten s sockfd c) {d : Nat} (hobj : s.objects[d]? = some conn)
    (hwait : (s.schedulers k).thread = .waiting) : Forgotten (s.close k d conn) sockfd c := by
  unfold close
  split
  · exact h
  · rename_i hopen
    have hmod := h.modifies (d := d) (f := fun conn => { conn with isClosed := true })
      fun _ _ => rfl
    refine hmod.on ?_ ?_
    · intro hd
      obtain rfl : d = c := by simpa [Working.closes] using hd
      exact hopen (h.isClosed hobj)
    · have hnot := (h.silent k).2
      simpa [Scheduler.pending, hwait, Working.removes] using hnot

theorem Forgotten.workerStep (h : Forgotten s sockfd c) (hs : Sound s)
    (hstep : s.workerStep k = some s') : Forgotten s' sockfd c := by
  obtain ⟨hcloses, hpending⟩ := h.silent k
  unfold TcpServer.workerStep at hstep
  cases hthread : (s.schedulers k).thread with
  | waiting =>
    rw [hthread] at hstep
    simp at hstep
  | closing d =>
    rw [hthread] at hstep hcloses
    obtain ⟨conn, -, rfl⟩ := Option.map_eq_some_iff.mp hstep
    refine h.on hcloses ?_
    simpa [Scheduler.pending, hthread, Working.removes] using hpending
  | unregistered d =>
    rw [hthread] at hstep hcloses
    obtain ⟨conn, hobj, rfl⟩ := Option.map_eq_some_iff.mp hstep
    split
    · rename_i hcb
      refine h.on (by simp [Working.closes]) ?_
      -- The number that the callback reads is another connection's.
      obtain ⟨x, hx, -, -, hheld, -⟩ := hs.closing k d (by rw [hthread]; rfl)
      obtain rfl := Option.some.inj (hobj.symm.trans hx)
      have htable := hheld.resolve_left (hs.callback d conn hobj hcb)
      have hne : sockfd ≠ conn.sockfd := by
        rintro rfl
        rw [h.listed] at htable
        exact hcloses (congrArg some (Option.some.inj htable).symm)
      simp only [Scheduler.pending, hthread, Working.removes, List.nil_append] at hpending
      exact List.not_mem_cons_of_ne_of_not_mem hne hpending
    · refine h.on (by simp [Working.closes]) ?_
      simpa [Scheduler.pending, hthread, Working.removes] using hpending
  | disconnecting n =>
    rw [hthread] at hstep
    obtain rfl := Option.some.inj hstep
    refine h.on ?_ ?_
    · show (if s.Room k then Working.checked n else .refused n).closes ≠ some c
      split <;> simp [Working.closes]
    · rw [Scheduler.pending, hthread] at hpending
      rw [Scheduler.pending]
      split <;> exact hpending
  | checked n =>
    rw [hthread] at hstep
    obtain rfl := Option.some.inj hstep
    simp only [Scheduler.pending, hthread, Working.removes, List.mem_append, List.mem_cons,
      List.not_mem_nil, or_false, not_or] at hpending
    obtain ⟨hne, hqueue, htimers⟩ := hpending
    unfold push
    split
    · rw [goTo, on_on]
      refine h.on (by simp [Working.closes]) ?_
      simp only [Scheduler.pending, Working.removes, List.filterMap_append, List.nil_append,
        List.mem_append, not_or]
      refine ⟨⟨hqueue, ?_⟩, htimers⟩
      show sockfd ∉ [n]
      simpa using hne
    · refine h.on (by simp [Working.closes]) ?_
      simp only [Scheduler.pending, Working.removes, List.nil_append, List.mem_append, not_or]
      exact ⟨hqueue, htimers⟩
  | refused n =>
    rw [hthread] at hstep
    obtain rfl := Option.some.inj hstep
    refine h.on (by simp [Working.closes]) ?_
    simp only [Scheduler.pending, hthread, Working.removes, List.mem_append, List.mem_cons,
      List.not_mem_nil, or_false, false_or, not_or] at hpending ⊢
    exact ⟨hpending.2.1, hpending.2.2, hpending.1⟩
  | removing n =>
    rw [hthread] at hstep
    obtain rfl := Option.some.inj hstep
    simp only [Scheduler.pending, hthread, Working.removes, List.mem_append, List.mem_cons,
      List.not_mem_nil, or_false, not_or] at hpending
    obtain ⟨hne, hrest⟩ := hpending
    have herased : Forgotten { s with connections := setAt s.connections n none } sockfd c :=
      ⟨(setAt_ne hne).trans h.listed, h.closed, h.silent⟩
    refine herased.on (by simp [Working.closes]) ?_
    simp only [Scheduler.pending, Working.removes, List.nil_append, List.mem_append, not_or]
    exact hrest

/-- **One step.** -/
theorem Forgotten.step (h : Forgotten s sockfd c) (hs : Sound s) {e : Happening}
    (hstep : s.step e = some s') : Forgotten s' sockfd c := by
  cases e with
  | onAccept n =>
    obtain ⟨-, heq⟩ := Option.ite_none_right_eq_some.mp hstep
    obtain rfl := Option.some.inj heq
    split
    · exact ⟨h.listed, h.closed, h.silent⟩
    · exact h
  | acceptor =>
    replace hstep : s.acceptorStep = some s' := hstep
    unfold acceptorStep at hstep
    cases hhandler : s.handler with
    | idle =>
      rw [hhandler] at hstep
      simp at hstep
    | accepted n =>
      rw [hhandler] at hstep
      obtain rfl := Option.some.inj hstep
      obtain ⟨x, hx, hxc⟩ := h.closed
      have hmade : Forgotten { s with
          index := s.getTaskScheduler.2
          objects := s.objects ++ [⟨n, s.getTaskScheduler.1, false, false, false⟩]
          handler := .connected s.objects.length } sockfd c :=
        ⟨h.listed, ⟨x, getElem?_begin.mpr (.inl hx), hxc⟩, h.silent⟩
      have hsilent := hmade.silent s.getTaskScheduler.1
      exact hmade.on (f := fun scheduler =>
        { scheduler with channels := emplaceAt scheduler.channels n s.objects.length })
        hsilent.1 hsilent.2
    | connected d =>
      rw [hhandler] at hstep
      obtain ⟨conn, hobj, rfl⟩ := Option.map_eq_some_iff.mp hstep
      refine ⟨?_, h.closed, h.silent⟩
      have hfree := hs.unlisted hhandler hobj
      show emplaceAt s.connections conn.sockfd d sockfd = some c
      rw [emplaceAt_new hfree, setAt_ne]
      · exact h.listed
      · rintro rfl
        rw [h.listed] at hfree
        simp at hfree
    | added d =>
      rw [hhandler] at hstep
      obtain rfl := Option.some.inj hstep
      have hset := h.modifies (d := d) (f := fun conn => { conn with disconnectCb := true })
        fun _ hx => hx
      exact ⟨hset.listed, hset.closed, hset.silent⟩
  | fail d =>
    obtain ⟨conn, hobj, heq⟩ := Option.bind_eq_some_iff.mp hstep
    obtain ⟨⟨hfree, -⟩, heq⟩ := Option.ite_none_right_eq_some.mp heq
    obtain rfl := Option.some.inj heq
    exact h.closes hobj hfree.1
  | trigger k =>
    obtain ⟨hfree, heq⟩ := Option.ite_none_right_eq_some.mp hstep
    cases hqueue : (s.schedulers k).triggerEvents with
    | nil =>
      rw [hqueue] at heq
      simp at heq
    | cons e rest =>
      rw [hqueue] at heq
      have hpending := (h.silent k).2
      simp only [Scheduler.pending, hqueue, hfree.1, Working.removes, List.nil_append,
        List.mem_append, not_or] at hpending
      obtain ⟨hevents, htimers⟩ := hpending
      have hrest : sockfd ∉ rest.filterMap TriggerEvent.removes := by
        intro hmem
        exact hevents ((List.Sublist.filterMap _ (List.sublist_cons_self e rest)).subset hmem)
      have htaken : Forgotten (s.on k fun scheduler =>
          { scheduler with triggerEvents := rest }) sockfd c := by
        refine h.on (h.silent k).1 ?_
        simp only [Scheduler.pending, hfree.1, Working.removes, List.nil_append,
          List.mem_append, not_or]
        exact ⟨hrest, htimers⟩
      cases e with
      | removeConnection n =>
        obtain rfl := Option.some.inj heq
        rw [goTo, on_on]
        refine h.on (by simp [Working.closes]) ?_
        simp only [Scheduler.pending, Working.removes, List.mem_append, not_or]
        refine ⟨?_, hrest, htimers⟩
        intro hmem
        obtain rfl := List.mem_singleton.mp hmem
        exact hevents List.mem_cons_self
      | close d =>
        obtain ⟨conn, hobj, rfl⟩ := Option.map_eq_some_iff.mp heq
        exact htaken.closes hobj (by rw [on_self]; exact hfree.1)
      | other =>
        obtain rfl := Option.some.inj heq
        exact htaken
  | timer k i =>
    obtain ⟨hfree, heq⟩ := Option.ite_none_right_eq_some.mp hstep
    obtain ⟨n, htimer, rfl⟩ := Option.map_eq_some_iff.mp heq
    have hpending := (h.silent k).2
    simp only [Scheduler.pending, hfree.1, Working.removes, List.nil_append, List.mem_append,
      not_or] at hpending
    obtain ⟨hevents, htimers⟩ := hpending
    refine h.on (by simp [Working.closes]) ?_
    simp only [Scheduler.pending, Working.removes, List.mem_append, not_or]
    refine ⟨?_, hevents, fun hmem => htimers (List.mem_of_mem_eraseIdx hmem)⟩
    intro hmem
    obtain rfl := List.mem_singleton.mp hmem
    exact htimers (List.mem_of_getElem? htimer)
  | goOn k => exact h.workerStep hs hstep
  | disconnect d =>
    obtain ⟨conn, -, heq⟩ := Option.bind_eq_some_iff.mp hstep
    obtain ⟨-, heq⟩ := Option.ite_none_left_eq_some.mp heq
    obtain rfl := Option.some.inj heq
    exact h.pushes rfl
  | post k =>
    obtain ⟨-, heq⟩ := Option.ite_none_right_eq_some.mp hstep
    obtain rfl := Option.some.inj heq
    exact h.pushes rfl
  | destroy d =>
    obtain ⟨conn, -, heq⟩ := Option.bind_eq_some_iff.mp hstep
    obtain ⟨-, heq⟩ := Option.ite_none_left_eq_some.mp heq
    obtain rfl := Option.some.inj heq
    exact h.modifies fun _ hx => hx

/-- **A closed connection whose removal is not pending keeps its entry for ever**, and with it its
socket. -/
theorem entry_stays (hr : Reach system (anyStep _ _) s) (h : Forgotten s sockfd c)
    {es : List Happening} (hrun : Run system (anyStep _ _) s es s') :
    s'.connections sockfd = some c := by
  have hend := hrun.inv (P := fun s => Sound s ∧ Forgotten s sockfd c) ⟨sound_of_reach hr, h⟩ ?_
  · exact hend.2.listed
  · intro s e s' hs _ hstep
    exact ⟨(hs.1.step hstep).1, hs.2.step hs.1 hstep⟩

end TcpServer

end Maixii.Net
