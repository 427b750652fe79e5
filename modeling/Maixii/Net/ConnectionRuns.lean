import Mathlib.Data.List.Perm.Basic
import Mathlib.Data.List.Perm.Subperm
import Maixii.Net.ConnectionTable

/-!
# `Net/ConnectionRuns.lean`: what enters and leaves the table

A connection is **held** by the accept handler or by the table, and a number is **pending** on a
scheduler from the moment the disconnect callback has read it until `RemoveConnection` has erased
it. `Sound` holds in every run: an entry's connection is not destroyed, so no two connections that
are not share a number, and a pending removal is of a closed connection's entry, once. `Owed` is
what the condition adds: a closed connection that is held is being closed, or its removal is
pending.
-/

set_option autoImplicit false

namespace Maixii.Net

open Maixii.Lib

/-! ## What is pending -/

/-- The connection that is being closed and has not looked for its callback. -/
def Working.closes : Working → Option Nat
  | .closing c | .unregistered c => some c
  | _ => none

/-- The number that the thread is about to pass on, or to erase. -/
def Working.removes : Working → List Int
  | .disconnecting sockfd | .checked sockfd | .refused sockfd | .removing sockfd => [sockfd]
  | _ => []

def TriggerEvent.removes : TriggerEvent → Option Int
  | .removeConnection sockfd => some sockfd
  | _ => none

/-- The numbers whose entries will be erased. -/
def Scheduler.pending (x : Scheduler) : List Int :=
  x.thread.removes ++ (x.triggerEvents.filterMap TriggerEvent.removes ++ x.timers)

namespace TcpServer

variable {s s' : TcpServer} {k c : Nat} {conn : Connection} {sockfd : Int}

/-- The accept handler has the connection in hand, or the table has it. -/
def Held (s : TcpServer) (c : Nat) (conn : Connection) : Prop :=
  s.handler = .connected c ∨ s.connections conn.sockfd = some c

/-- **What holds in every run.** -/
structure Sound (s : TcpServer) : Prop where
  entry : ∀ sockfd c, s.connections sockfd = some c → ∃ conn, s.objects[c]? = some conn ∧
    conn.sockfd = sockfd ∧ conn.destroyed = false ∧ s.handler ≠ .connected c
  listed : ∀ c conn, s.objects[c]? = some conn → conn.isClosed = false → s.Held c conn
  apart : ∀ (c d : Nat) (x y : Connection), s.objects[c]? = some x → s.objects[d]? = some y →
    x.destroyed = false → y.destroyed = false → x.sockfd = y.sockfd → c = d
  fresh : ∀ sockfd, s.handler = .accepted sockfd → s.Unused sockfd
  handler : ∀ c, s.handler = .connected c ∨ s.handler = .added c →
    ∃ conn, s.objects[c]? = some conn ∧ conn.destroyed = false
  callback : ∀ c conn, s.objects[c]? = some conn → conn.disconnectCb = true →
    s.handler ≠ .connected c
  closing : ∀ k c, (s.schedulers k).thread.closes = some c → ∃ conn,
    s.objects[c]? = some conn ∧ conn.isClosed = true ∧ conn.scheduler = k ∧ s.Held c conn ∧
    conn.sockfd ∉ (s.schedulers k).pending
  pending : ∀ k sockfd, sockfd ∈ (s.schedulers k).pending → ∃ c conn,
    s.connections sockfd = some c ∧ s.objects[c]? = some conn ∧ conn.isClosed = true ∧
    conn.scheduler = k
  once : ∀ k, (s.schedulers k).pending.Nodup
  /-- What `Disconnect` queues is on the connection's own scheduler. -/
  homes : ∀ k c, TriggerEvent.close c ∈ (s.schedulers k).triggerEvents →
    ∃ conn, s.objects[c]? = some conn ∧ conn.scheduler = k
  index : 0 < s.numThreads ∧ (s.numThreads ≠ 1 → s.index < s.numThreads)
  placed : ∀ (c : Nat) (conn : Connection), s.objects[c]? = some conn →
    conn.scheduler < s.numThreads

/-- **What the condition adds.** -/
def Owed (s : TcpServer) : Prop :=
  ∀ c conn, s.objects[c]? = some conn → conn.isClosed = true → s.Held c conn →
    (s.schedulers conn.scheduler).thread.closes = some c ∨
      conn.sockfd ∈ (s.schedulers conn.scheduler).pending

theorem sound_new (numThreads : Nat) : Sound (new numThreads) where
  entry sockfd c h := by simp [new] at h
  listed c conn h := by simp [new] at h
  apart c d x y h := by simp [new] at h
  fresh sockfd h := by simp [new] at h
  handler c h := by simp [new] at h
  callback c conn h := by simp [new] at h
  closing k c h := by simp [new, Working.closes] at h
  pending k sockfd h := by simp [new, Scheduler.pending, Working.removes] at h
  once k := List.nodup_nil
  homes k c h := by simp [new] at h
  index := by
    dsimp only [new]
    split <;> omega
  placed c conn h := by simp [new] at h

theorem owed_new (numThreads : Nat) : Owed (new numThreads) := by
  intro c conn h
  simp [new] at h

/-! ### Steps of one scheduler -/

@[simp] theorem on_self (f : Scheduler → Scheduler) :
    (s.on k f).schedulers k = f (s.schedulers k) := if_pos rfl

theorem on_other {f : Scheduler → Scheduler} {j : Nat} (h : j ≠ k) :
    (s.on k f).schedulers j = s.schedulers j := if_neg h

@[simp] theorem triggerEvents_goTo (w : Working) (j : Nat) :
    ((s.goTo k w).schedulers j).triggerEvents = (s.schedulers j).triggerEvents := by
  by_cases hj : j = k
  · subst hj
    rw [goTo, on_self]
  · rw [goTo, on_other hj]

/-- **One scheduler goes on**, with the same removals pending or with fewer. -/
theorem Sound.less (h : Sound s) {f : Scheduler → Scheduler}
    (hcloses : ∀ c, (f (s.schedulers k)).thread.closes = some c →
      (s.schedulers k).thread.closes = some c)
    (hpending : (f (s.schedulers k)).pending.Subperm (s.schedulers k).pending)
    (hqueue : ∀ c, TriggerEvent.close c ∈ (f (s.schedulers k)).triggerEvents →
      ∃ conn, s.objects[c]? = some conn ∧ conn.scheduler = k) :
    Sound (s.on k f) where
  entry := h.entry
  listed := h.listed
  apart := h.apart
  fresh := h.fresh
  handler := h.handler
  callback := h.callback
  closing := by
    intro j c hc
    by_cases hj : j = k
    · subst hj
      rw [on_self] at hc ⊢
      obtain ⟨conn, hobj, hclosed, hk, hheld, hnot⟩ := h.closing j c (hcloses c hc)
      exact ⟨conn, hobj, hclosed, hk, hheld, fun hmem => hnot (hpending.subset hmem)⟩
    · rw [on_other hj] at hc ⊢
      exact h.closing j c hc
  pending := by
    intro j n hn
    by_cases hj : j = k
    · subst hj
      rw [on_self] at hn
      exact h.pending j n (hpending.subset hn)
    · rw [on_other hj] at hn
      exact h.pending j n hn
  once := by
    intro j
    by_cases hj : j = k
    · subst hj
      rw [on_self]
      obtain ⟨l, hperm, hsub⟩ := hpending
      exact hperm.nodup_iff.mp (hsub.nodup (h.once j))
    · rw [on_other hj]
      exact h.once j
  homes := by
    intro j c hc
    by_cases hj : j = k
    · subst hj
      rw [on_self] at hc
      exact hqueue c hc
    · rw [on_other hj] at hc
      exact h.homes j c hc
  index := h.index
  placed := h.placed

/-- What it owed it still owes. -/
theorem Owed.same (h : Owed s) {f : Scheduler → Scheduler}
    (hcloses : (f (s.schedulers k)).thread.closes = (s.schedulers k).thread.closes)
    (hpending : (s.schedulers k).pending ⊆ (f (s.schedulers k)).pending) :
    Owed (s.on k f) := by
  intro c conn hobj hclosed hheld
  have howed := h c conn hobj hclosed hheld
  by_cases hj : conn.scheduler = k
  · rw [hj] at howed ⊢
    rw [on_self, hcloses]
    exact howed.imp_right fun hmem => hpending hmem
  · rw [on_other hj]
    exact howed

theorem on_on (f g : Scheduler → Scheduler) :
    (s.on k f).on k g = s.on k fun scheduler => g (f scheduler) := by
  have hschedulers : ((s.on k f).on k g).schedulers =
      (s.on k fun scheduler => g (f scheduler)).schedulers := by
    funext j
    by_cases hj : j = k
    · subst hj
      simp only [on_self]
    · simp only [on_other hj]
  show { s with schedulers := _ } = { s with schedulers := _ }
  exact congrArg (fun schedulers => { s with schedulers := schedulers }) hschedulers

/-- **One scheduler goes on**, and closes and removes what it did. -/
theorem Sound.quiet (h : Sound s) {f : Scheduler → Scheduler}
    (hcloses : (f (s.schedulers k)).thread.closes = (s.schedulers k).thread.closes)
    (hpending : (f (s.schedulers k)).pending.Perm (s.schedulers k).pending)
    (hqueue : ∀ c, TriggerEvent.close c ∈ (f (s.schedulers k)).triggerEvents →
      ∃ conn, s.objects[c]? = some conn ∧ conn.scheduler = k) :
    Sound (s.on k f) ∧ (Owed s → Owed (s.on k f)) :=
  ⟨h.less (fun _ hc => hcloses ▸ hc) hpending.subperm hqueue,
    fun howed => howed.same hcloses hpending.symm.subset⟩

/-- Another callback is queued, that does not remove an entry. -/
theorem Sound.pushes (h : Sound s) {e : TriggerEvent} (he : e.removes = none)
    (hhome : ∀ c, e = .close c → ∃ conn, s.objects[c]? = some conn ∧ conn.scheduler = k) :
    Sound (s.push k e) ∧ (Owed s → Owed (s.push k e)) := by
  unfold push
  split
  · apply h.quiet rfl
    · simp [Scheduler.pending, he]
    · intro c hc
      rcases List.mem_append.mp hc with hc | hc
      · exact h.homes k c hc
      · exact hhome c (List.mem_singleton.mp hc).symm
  · exact ⟨h, id⟩

/-! ### The accept handler -/

/-- `OnAccept` has a socket. -/
theorem Sound.accepts (h : Sound s) (hidle : s.handler = .idle) (hunused : s.Unused sockfd) :
    Sound { s with handler := .accepted sockfd } where
  entry n c hn := by
    obtain ⟨conn, hobj, hsock, halive, -⟩ := h.entry n c hn
    exact ⟨conn, hobj, hsock, halive, by simp⟩
  listed c conn hobj hopen := by
    refine (h.listed c conn hobj hopen).imp_left ?_
    rw [hidle]
    simp
  apart := h.apart
  fresh n hn := by
    obtain rfl := Accepting.accepted.inj hn
    exact hunused
  handler c hc := by simp at hc
  callback c conn _ _ := by simp
  closing k c hc := by
    obtain ⟨conn, hobj, hclosed, hk, hheld, hnot⟩ := h.closing k c hc
    refine ⟨conn, hobj, hclosed, hk, hheld.imp_left ?_, hnot⟩
    rw [hidle]
    simp
  pending := h.pending
  once := h.once
  homes := h.homes
  index := h.index
  placed := h.placed

theorem Owed.accepts (h : Owed s) : Owed { s with handler := .accepted sockfd } := by
  intro c conn hobj hclosed hheld
  refine h c conn hobj hclosed (hheld.imp_left ?_)
  simp

/-- `GetTaskScheduler` gives a scheduler there is. -/
theorem Sound.getTaskScheduler_lt (h : Sound s) : s.getTaskScheduler.1 < s.numThreads ∧
    (s.numThreads ≠ 1 → s.getTaskScheduler.2 < s.numThreads) := by
  obtain ⟨hpos, hindex⟩ := h.index
  unfold getTaskScheduler
  split
  · rename_i hone
    exact ⟨hpos, fun hne => absurd hone hne⟩
  · rename_i hne
    refine ⟨hindex hne, fun _ => ?_⟩
    show (if s.numThreads ≤ s.index + 1 then 1 else s.index + 1) < s.numThreads
    split <;> omega

/-- `OnConnect` has made the connection. -/
theorem Sound.constructs (h : Sound s) (hacc : s.handler = .accepted sockfd) {k i : Nat}
    (hk : k < s.numThreads) (hi : s.numThreads ≠ 1 → i < s.numThreads) :
    Sound { s with
      index := i
      objects := s.objects ++ [⟨sockfd, k, false, false, false⟩]
      handler := .connected s.objects.length } := by
  have hnew : ∀ {c conn}, (s.objects ++ [⟨sockfd, k, false, false, false⟩])[c]? = some conn →
      s.objects[c]? = some conn ∨
        (c = s.objects.length ∧ conn = ⟨sockfd, k, false, false, false⟩) :=
    fun hobj => getElem?_begin.mp hobj
  have hold : ∀ {c conn}, s.objects[c]? = some conn →
      (s.objects ++ [⟨sockfd, k, false, false, false⟩])[c]? = some conn :=
    fun hobj => getElem?_begin.mpr (.inl hobj)
  have hlt : ∀ {c conn}, s.objects[c]? = some conn → c ≠ s.objects.length :=
    fun hobj => Nat.ne_of_lt (List.getElem?_eq_some_iff.mp hobj).1
  -- Until now the handler held nothing.
  have hheld : ∀ {c conn}, s.Held c conn → s.connections conn.sockfd = some c := by
    intro c conn hor
    refine hor.resolve_left ?_
    rw [hacc]
    simp
  refine ⟨?_, ?_, ?_, ?_, ?_, ?_, ?_, ?_, h.once, ?_, ⟨h.index.1, hi⟩, ?_⟩
  · intro n c hn
    obtain ⟨conn, hobj, hsock, halive, -⟩ := h.entry n c hn
    refine ⟨conn, hold hobj, hsock, halive, ?_⟩
    intro hc
    exact hlt hobj (Accepting.connected.inj hc).symm
  · intro c conn hobj hopen
    rcases hnew hobj with hobj | ⟨rfl, -⟩
    · exact .inr (hheld (h.listed c conn hobj hopen))
    · exact .inl rfl
  · intro c d x y hx hy hxa hya hsock
    rcases hnew hx with hx | ⟨rfl, rfl⟩
    · rcases hnew hy with hy | ⟨rfl, rfl⟩
      · exact h.apart c d x y hx hy hxa hya hsock
      · exact absurd hsock (h.fresh sockfd hacc x (List.mem_of_getElem? hx) hxa)
    · rcases hnew hy with hy | ⟨rfl, rfl⟩
      · exact absurd hsock.symm (h.fresh sockfd hacc y (List.mem_of_getElem? hy) hya)
      · rfl
  · intro n hn
    simp at hn
  · intro c hc
    obtain rfl : s.objects.length = c := by simpa using hc
    exact ⟨_, getElem?_begin.mpr (.inr ⟨rfl, rfl⟩), rfl⟩
  · intro c conn hobj hcb hc
    rcases hnew hobj with hobj | ⟨rfl, rfl⟩
    · exact hlt hobj (Accepting.connected.inj hc).symm
    · exact absurd hcb Bool.false_ne_true
  · intro j c hc
    obtain ⟨conn, hobj, hclosed, hj, hor, hnot⟩ := h.closing j c hc
    exact ⟨conn, hold hobj, hclosed, hj, .inr (hheld hor), hnot⟩
  · intro j n hn
    obtain ⟨c, conn, hconn, hobj, hrest⟩ := h.pending j n hn
    exact ⟨c, conn, hconn, hold hobj, hrest⟩
  · intro j c hc
    obtain ⟨conn, hobj, hj⟩ := h.homes j c hc
    exact ⟨conn, hold hobj, hj⟩
  · intro c conn hobj
    rcases hnew hobj with hobj | ⟨-, rfl⟩
    · exact h.placed c conn hobj
    · exact hk

theorem Owed.constructs (h : Owed s) (k i : Nat) :
    Owed { s with
      index := i
      objects := s.objects ++ [⟨sockfd, k, false, false, false⟩]
      handler := .connected s.objects.length } := by
  intro c conn hobj hclosed hheld
  rcases getElem?_begin.mp hobj with hobj | ⟨rfl, rfl⟩
  · refine h c conn hobj hclosed (.inr (hheld.resolve_left ?_))
    intro hc
    have hlt := (List.getElem?_eq_some_iff.mp hobj).1
    rw [← Accepting.connected.inj hc] at hlt
    exact Nat.lt_irrefl _ hlt
  · exact absurd hclosed Bool.false_ne_true

/-- While the handler has a connection in hand, its number has no entry. -/
theorem Sound.unlisted (h : Sound s) (hcon : s.handler = .connected c)
    (hobj : s.objects[c]? = some conn) : s.connections conn.sockfd = none := by
  cases hentry : s.connections conn.sockfd with
  | none => rfl
  | some d =>
    obtain ⟨y, hy, hsock, halive, hne⟩ := h.entry _ d hentry
    obtain ⟨x, hx, hxa⟩ := h.handler c (.inl hcon)
    obtain rfl := Option.some.inj (hobj.symm.trans hx)
    obtain rfl := h.apart c d conn y hobj hy hxa halive hsock.symm
    exact absurd hcon hne

/-- `AddConnection`: the number is free, so `emplace` enters it. -/
theorem Sound.adds (h : Sound s) (hcon : s.handler = .connected c)
    (hobj : s.objects[c]? = some conn) : Sound (s.addConnection c conn) := by
  have hfree := h.unlisted hcon hobj
  obtain ⟨x, hx, halive⟩ := h.handler c (.inl hcon)
  obtain rfl := Option.some.inj (hobj.symm.trans hx)
  have hset : (s.addConnection c conn).connections =
      setAt s.connections conn.sockfd (some c) := emplaceAt_new hfree
  have hkept : ∀ {n d}, s.connections n = some d →
      (s.addConnection c conn).connections n = some d := by
    intro n d hn
    rw [hset, setAt_ne]
    · exact hn
    · rintro rfl
      rw [hfree] at hn
      simp at hn
  have hheld : ∀ {d y}, s.objects[d]? = some y → s.Held d y →
      (s.addConnection c conn).Held d y := by
    intro d y hy hor
    rcases hor with hd | hd
    · rw [hcon] at hd
      obtain rfl := Accepting.connected.inj hd
      rw [hobj] at hy
      obtain rfl := Option.some.inj hy
      exact .inr (by rw [hset, setAt_self])
    · exact .inr (hkept hd)
  refine ⟨?_, ?_, h.apart, ?_, ?_, ?_, ?_, ?_, h.once, h.homes, h.index, h.placed⟩
  · intro n d hn
    rw [hset] at hn
    by_cases heq : n = conn.sockfd
    · subst heq
      rw [setAt_self] at hn
      obtain rfl := Option.some.inj hn
      exact ⟨conn, hobj, rfl, halive, by simp [addConnection]⟩
    · rw [setAt_ne heq] at hn
      obtain ⟨y, hy, hsock, hya, -⟩ := h.entry n d hn
      exact ⟨y, hy, hsock, hya, by simp [addConnection]⟩
  · intro d y hy hopen
    exact hheld hy (h.listed d y hy hopen)
  · intro n hn
    simp [addConnection] at hn
  · intro d hd
    obtain rfl : c = d := by simpa [addConnection] using hd
    exact ⟨conn, hobj, halive⟩
  · intro d y _ _
    simp [addConnection]
  · intro k d hd
    obtain ⟨y, hy, hclosed, hk, hor, hnot⟩ := h.closing k d hd
    exact ⟨y, hy, hclosed, hk, hheld hy hor, hnot⟩
  · intro k n hn
    obtain ⟨d, y, hd, hrest⟩ := h.pending k n hn
    exact ⟨d, y, hkept hd, hrest⟩

theorem Owed.adds (h : Owed s) (hs : Sound s) (hcon : s.handler = .connected c)
    (hobj : s.objects[c]? = some conn) : Owed (s.addConnection c conn) := by
  have hset : (s.addConnection c conn).connections =
      setAt s.connections conn.sockfd (some c) := emplaceAt_new (hs.unlisted hcon hobj)
  intro d y hy hclosed hheld
  refine h d y hy hclosed ?_
  have hd := hheld.resolve_left (by simp [addConnection])
  rw [hset] at hd
  by_cases heq : y.sockfd = conn.sockfd
  · rw [heq, setAt_self] at hd
    obtain rfl := Option.some.inj hd
    exact .inl hcon
  · rw [setAt_ne heq] at hd
    exact .inr hd

/-! ### One connection changes -/

/-- What the objects are once one has changed. -/
theorem getElem?_modify_object {f : Connection → Connection} {d : Nat} {y : Connection}
    (hy : (s.objects.modify c f)[d]? = some y) :
    ∃ x, s.objects[d]? = some x ∧ y = if c = d then f x else x := by
  rw [List.getElem?_modify] at hy
  obtain ⟨x, hx, hxy⟩ := Option.map_eq_some_iff.mp hy
  exact ⟨x, hx, hxy.symm⟩

theorem getElem?_modify_of_object {f : Connection → Connection} {d : Nat} {x : Connection}
    (hx : s.objects[d]? = some x) :
    (s.objects.modify c f)[d]? = some (if c = d then f x else x) := by
  rw [List.getElem?_modify, hx]
  rfl

/-- **One connection changes**: it keeps its number and its scheduler, is not opened again, and is
destroyed only if nobody holds it. -/
theorem Sound.modifies (h : Sound s) {f : Connection → Connection}
    (hsock : ∀ x, (f x).sockfd = x.sockfd) (hsched : ∀ x, (f x).scheduler = x.scheduler)
    (hclosed : ∀ x, x.isClosed = true → (f x).isClosed = true)
    (hcallback : ∀ x, (f x).disconnectCb = true →
      x.disconnectCb = true ∨ s.handler ≠ .connected c)
    (hdead : ∀ x, (f x).destroyed = false → x.destroyed = false)
    (halive : ∀ x, s.objects[c]? = some x → s.Held c x ∨ s.handler = .added c →
      (f x).destroyed = x.destroyed) :
    Sound { s with objects := s.objects.modify c f } := by
  have hheld : ∀ {d x}, s.Held d x →
      Held { s with objects := s.objects.modify c f } d (if c = d then f x else x) := by
    intro d x hor
    refine hor.imp_right ?_
    intro hd
    split
    · rw [hsock]
      exact hd
    · exact hd
  have hcase : ∀ {d : Nat} {P : Connection → Prop} {x : Connection}, (c = d → P (f x)) →
      (c ≠ d → P x) → P (if c = d then f x else x) := by
    intro d P x hpos hneg
    split
    · exact hpos ‹_›
    · exact hneg ‹_›
  have hkeeps : ∀ {d x}, s.objects[d]? = some x → s.Held d x ∨ s.handler = .added d →
      x.destroyed = false → (if c = d then f x else x).destroyed = false := by
    intro d x hobj hor hx
    refine hcase (P := fun y => y.destroyed = false) ?_ fun _ => hx
    rintro rfl
    rw [halive x hobj hor]
    exact hx
  refine ⟨?_, ?_, ?_, ?_, ?_, ?_, ?_, ?_, h.once, ?_, h.index, ?_⟩
  · intro n d hn
    obtain ⟨x, hobj, rfl, hx, hne⟩ := h.entry n d hn
    refine ⟨_, getElem?_modify_of_object hobj, ?_, hkeeps hobj (.inl (.inr hn)) hx, hne⟩
    exact hcase (P := fun y => y.sockfd = x.sockfd) (fun _ => hsock x) fun _ => rfl
  · intro d y hobj hopen
    obtain ⟨x, hx, rfl⟩ := getElem?_modify_object hobj
    refine hheld (h.listed d x hx ?_)
    cases hxc : x.isClosed with
    | false => rfl
    | true =>
      rw [hcase (P := fun y => y.isClosed = true) (fun _ => hclosed x hxc) fun _ => hxc] at hopen
      exact absurd hopen.symm Bool.false_ne_true
  · intro d e y z hy hz hya hza heq
    obtain ⟨x, hx, rfl⟩ := getElem?_modify_object hy
    obtain ⟨w, hw, rfl⟩ := getElem?_modify_object hz
    refine h.apart d e x w hx hw ?_ ?_ ?_
    · exact hcase (P := fun y => y.destroyed = false → x.destroyed = false) (fun _ => hdead x)
        (fun _ => id) hya
    · exact hcase (P := fun y => y.destroyed = false → w.destroyed = false) (fun _ => hdead w)
        (fun _ => id) hza
    · have hxs := hcase (d := d) (P := fun y => y.sockfd = x.sockfd) (fun _ => hsock x) fun _ => rfl
      have hws := hcase (d := e) (P := fun y => y.sockfd = w.sockfd) (fun _ => hsock w) fun _ => rfl
      exact hxs.symm.trans (heq.trans hws)
  · intro n hn y hy hya
    obtain ⟨d, hd⟩ := List.mem_iff_getElem?.mp hy
    obtain ⟨x, hx, rfl⟩ := getElem?_modify_object hd
    have hxa := hcase (P := fun y => y.destroyed = false → x.destroyed = false) (fun _ => hdead x)
      (fun _ => id) hya
    have hne := h.fresh n hn x (List.mem_of_getElem? hx) hxa
    refine hcase (P := fun y => y.sockfd ≠ n) (fun _ => ?_) fun _ => hne
    rw [hsock]
    exact hne
  · intro d hd
    obtain ⟨x, hx, hxa⟩ := h.handler d hd
    exact ⟨_, getElem?_modify_of_object hx, hkeeps hx (hd.imp_left .inl) hxa⟩
  · intro d y hobj hcb hcon
    obtain ⟨x, hx, rfl⟩ := getElem?_modify_object hobj
    refine h.callback d x hx ?_ hcon
    refine hcase (P := fun y => y.disconnectCb = true → x.disconnectCb = true) ?_ (fun _ => id) hcb
    rintro rfl hf
    exact (hcallback x hf).resolve_right fun hne => hne hcon
  · intro k d hd
    obtain ⟨x, hobj, hxc, hk, hor, hnot⟩ := h.closing k d hd
    refine ⟨_, getElem?_modify_of_object hobj, ?_, ?_, hheld hor, ?_⟩
    · exact hcase (P := fun y => y.isClosed = true) (fun _ => hclosed x hxc) fun _ => hxc
    · exact hcase (P := fun y => y.scheduler = k) (fun _ => (hsched x).trans hk) fun _ => hk
    · refine hcase (P := fun y => y.sockfd ∉ (s.schedulers k).pending) (fun _ => ?_) fun _ => hnot
      rw [hsock]
      exact hnot
  · intro k n hn
    obtain ⟨d, x, hd, hobj, hxc, hk⟩ := h.pending k n hn
    refine ⟨d, _, hd, getElem?_modify_of_object hobj, ?_, ?_⟩
    · exact hcase (P := fun y => y.isClosed = true) (fun _ => hclosed x hxc) fun _ => hxc
    · exact hcase (P := fun y => y.scheduler = k) (fun _ => (hsched x).trans hk) fun _ => hk
  · intro k d hd
    obtain ⟨x, hobj, hk⟩ := h.homes k d hd
    refine ⟨_, getElem?_modify_of_object hobj, ?_⟩
    exact hcase (P := fun y => y.scheduler = k) (fun _ => (hsched x).trans hk) fun _ => hk
  · intro d y hobj
    obtain ⟨x, hx, rfl⟩ := getElem?_modify_object hobj
    have hlt := h.placed d x hx
    refine hcase (P := fun y => y.scheduler < s.numThreads) (fun _ => ?_) fun _ => hlt
    rw [hsched]
    exact hlt

/-- What is owed stays owed, if the change closes nothing. -/
theorem Owed.modifies (h : Owed s) {f : Connection → Connection}
    (hsock : ∀ x, (f x).sockfd = x.sockfd) (hsched : ∀ x, (f x).scheduler = x.scheduler)
    (hclosed : ∀ x, (f x).isClosed = x.isClosed) :
    Owed { s with objects := s.objects.modify c f } := by
  intro d y hobj hyc hheld
  obtain ⟨x, hx, hy⟩ := getElem?_modify_object hobj
  have hsame : y.sockfd = x.sockfd ∧ y.scheduler = x.scheduler ∧ y.isClosed = x.isClosed := by
    rw [hy]
    split
    · exact ⟨hsock x, hsched x, hclosed x⟩
    · exact ⟨rfl, rfl, rfl⟩
  obtain ⟨hs, hk, hc⟩ := hsame
  rw [hs, hk]
  refine h d x hx (hc ▸ hyc) (hheld.imp_right ?_)
  intro hd
  rw [← hs]
  exact hd

/-- `SetDisconnectCallback`. -/
theorem Sound.sets (h : Sound s) (hadd : s.handler = .added c) :
    Sound (s.setDisconnectCallback c) := by
  have hmod : Sound { s with
      objects := s.objects.modify c fun conn => { conn with disconnectCb := true } } := by
    refine h.modifies (fun _ => rfl) (fun _ => rfl) (fun _ hx => hx) ?_ (fun _ hx => hx)
      (fun _ _ _ => rfl)
    intro x _
    rw [hadd]
    exact .inr (by simp)
  have hheld : ∀ {d x}, Held { s with
      objects := s.objects.modify c fun conn => { conn with disconnectCb := true } } d x →
      Held (s.setDisconnectCallback c) d x := by
    intro d x hor
    refine .inr (hor.resolve_left ?_)
    show ¬ s.handler = _
    rw [hadd]
    simp
  refine ⟨?_, ?_, hmod.apart, ?_, ?_, ?_, ?_, hmod.pending, hmod.once,
    hmod.homes, hmod.index, hmod.placed⟩
  · intro n d hn
    obtain ⟨x, hx, hsock, hxa, -⟩ := hmod.entry n d hn
    exact ⟨x, hx, hsock, hxa, by simp [setDisconnectCallback]⟩
  · intro d x hx hopen
    exact hheld (hmod.listed d x hx hopen)
  · intro n hn
    simp [setDisconnectCallback] at hn
  · intro d hd
    simp [setDisconnectCallback] at hd
  · intro d x _ _
    simp [setDisconnectCallback]
  · intro k d hd
    obtain ⟨x, hx, hxc, hk, hor, hnot⟩ := hmod.closing k d hd
    exact ⟨x, hx, hxc, hk, hheld hor, hnot⟩

theorem Owed.sets (h : Owed s) : Owed (s.setDisconnectCallback c) := by
  have hmod : Owed { s with
      objects := s.objects.modify c fun conn => { conn with disconnectCb := true } } :=
    h.modifies (fun _ => rfl) (fun _ => rfl) (fun _ => rfl)
  intro d x hx hxc hheld
  exact hmod d x hx hxc (.inr (hheld.resolve_left (by simp [setDisconnectCallback])))

/-- The last pointer goes. -/
theorem Sound.destroys (h : Sound s) (hobj : s.objects[c]? = some conn)
    (hfree : ¬ s.Referenced c conn) :
    Sound { s with objects := s.objects.modify c fun conn => { conn with destroyed := true } } := by
  refine h.modifies (fun _ => rfl) (fun _ => rfl) (fun _ hx => hx) (fun _ hx => .inl hx) ?_ ?_
  · intro x hx
    simp at hx
  · intro x hx hor
    obtain rfl := Option.some.inj (hobj.symm.trans hx)
    rcases hor with (hcon | htable) | hadd
    · exact absurd (.inl hcon) hfree
    · exact absurd (.inr (.inr (.inl htable))) hfree
    · exact absurd (.inr (.inl hadd)) hfree

/-! ### Closing -/

/-- An open connection's number is not pending. -/
theorem Sound.not_pending (h : Sound s) (hobj : s.objects[c]? = some conn)
    (hopen : conn.isClosed = false) (k : Nat) : conn.sockfd ∉ (s.schedulers k).pending := by
  intro hmem
  obtain ⟨d, x, hd, hx, hxc, -⟩ := h.pending k _ hmem
  rcases h.listed c conn hobj hopen with hcon | htable
  · rw [h.unlisted hcon hobj] at hd
    simp at hd
  · rw [htable] at hd
    obtain rfl := Option.some.inj hd
    obtain rfl := Option.some.inj (hobj.symm.trans hx)
    rw [hopen] at hxc
    exact Bool.false_ne_true hxc

/-- A thread begins to close a connection. -/
theorem Sound.begins (h : Sound s) (hobj : s.objects[c]? = some conn)
    (hwait : (s.schedulers k).thread = .waiting) (hk : conn.scheduler = k)
    (hclosed : conn.isClosed = true) (hheld : s.Held c conn)
    (hnot : conn.sockfd ∉ (s.schedulers k).pending) : Sound (s.goTo k (.closing c)) := by
  have hpending : Scheduler.pending { s.schedulers k with thread := .closing c } =
      (s.schedulers k).pending := by
    simp [Scheduler.pending, hwait, Working.removes]
  refine ⟨h.entry, h.listed, h.apart, h.fresh, h.handler, h.callback, ?_, ?_, ?_, ?_, h.index,
    h.placed⟩
  · intro j d hd
    by_cases hj : j = k
    · subst hj
      rw [goTo, on_self] at hd ⊢
      obtain rfl : c = d := by simpa [Working.closes] using hd
      exact ⟨conn, hobj, hclosed, hk, hheld, hpending ▸ hnot⟩
    · rw [goTo, on_other hj] at hd ⊢
      exact h.closing j d hd
  · intro j n hn
    by_cases hj : j = k
    · subst hj
      rw [goTo, on_self, hpending] at hn
      exact h.pending _ n hn
    · rw [goTo, on_other hj] at hn
      exact h.pending j n hn
  · intro j
    by_cases hj : j = k
    · subst hj
      rw [goTo, on_self, hpending]
      exact h.once _
    · rw [goTo, on_other hj]
      exact h.once j
  · intro j d hd
    rw [triggerEvents_goTo] at hd
    exact h.homes j d hd

/-- `Close`, as far as `is_closed_`. -/
theorem Sound.closes (h : Sound s) (hwait : (s.schedulers k).thread = .waiting)
    (hk : conn.scheduler = k) (hobj : s.objects[c]? = some conn) :
    Sound (s.close k c conn) ∧ (Owed s → Owed (s.close k c conn)) := by
  unfold close
  split
  · exact ⟨h, id⟩
  · rename_i hopen
    have hopen : conn.isClosed = false := by simpa using hopen
    have hmod : Sound { s with
        objects := s.objects.modify c fun conn => { conn with isClosed := true } } :=
      h.modifies (fun _ => rfl) (fun _ => rfl) (fun _ _ => rfl) (fun _ hx => .inl hx)
        (fun _ hx => hx) (fun _ _ _ => rfl)
    have hnow : (s.objects.modify c fun conn => { conn with isClosed := true })[c]? =
        some { conn with isClosed := true } := by
      rw [getElem?_modify_of_object hobj, if_pos rfl]
    refine ⟨hmod.begins hnow hwait hk rfl (h.listed c conn hobj hopen)
      (h.not_pending hobj hopen _), ?_⟩
    intro howed d y hy hyc hheld
    obtain ⟨x, hx, rfl⟩ := getElem?_modify_object hy
    by_cases hd : c = d
    · subst hd
      obtain rfl := Option.some.inj (hobj.symm.trans hx)
      rw [if_pos rfl]
      refine .inl ?_
      show ((goTo _ k _).schedulers conn.scheduler).thread.closes = _
      rw [hk, goTo, on_self]
      rfl
    · rw [if_neg hd] at hyc hheld ⊢
      have hor := howed d x hx hyc hheld
      by_cases hj : x.scheduler = k
      · rw [hj, hwait] at hor
        rw [hj, goTo, on_self]
        refine .inr ?_
        simpa [Scheduler.pending, hwait, Working.removes, Working.closes] using hor
      · rw [goTo, on_other hj]
        exact hor

/-- `Close` calls the callback, which reads the number. -/
theorem Sound.calls (h : Sound s) (hthread : (s.schedulers k).thread = .unregistered c)
    (hobj : s.objects[c]? = some conn) (hcb : conn.disconnectCb = true) :
    Sound (s.goTo k (.disconnecting conn.sockfd)) ∧
      (Owed s → Owed (s.goTo k (.disconnecting conn.sockfd))) := by
  have hpending : Scheduler.pending
      { s.schedulers k with thread := .disconnecting conn.sockfd } =
        conn.sockfd :: (s.schedulers k).pending := by
    simp [Scheduler.pending, hthread, Working.removes]
  obtain ⟨x, hx, hclosed, hk, hheld, hnot⟩ := h.closing k c (by rw [hthread]; rfl)
  obtain rfl := Option.some.inj (hobj.symm.trans hx)
  -- The callback is there, so the handler has entered the connection.
  have htable := hheld.resolve_left (h.callback c conn hobj hcb)
  refine ⟨⟨h.entry, h.listed, h.apart, h.fresh, h.handler, h.callback, ?_, ?_, ?_, ?_, h.index,
    h.placed⟩, ?_⟩
  · intro j d hd
    by_cases hj : j = k
    · subst hj
      rw [goTo, on_self] at hd
      simp [Working.closes] at hd
    · rw [goTo, on_other hj] at hd ⊢
      exact h.closing j d hd
  · intro j n hn
    by_cases hj : j = k
    · subst hj
      rw [goTo, on_self, hpending] at hn
      rcases List.mem_cons.mp hn with rfl | hn
      · exact ⟨c, conn, htable, hobj, hclosed, hk⟩
      · exact h.pending j n hn
    · rw [goTo, on_other hj] at hn
      exact h.pending j n hn
  · intro j
    by_cases hj : j = k
    · subst hj
      rw [goTo, on_self, hpending]
      exact List.nodup_cons.mpr ⟨hnot, h.once j⟩
    · rw [goTo, on_other hj]
      exact h.once j
  · intro j d hd
    rw [triggerEvents_goTo] at hd
    exact h.homes j d hd
  · intro howed d x hx hxc hor
    have hsome := howed d x hx hxc hor
    by_cases hj : x.scheduler = k
    · rw [hj, hthread] at hsome
      rw [hj, goTo, on_self]
      refine .inr ?_
      rw [hpending]
      rcases hsome with hd | hmem
      · obtain rfl : c = d := by simpa [Working.closes] using hd
        obtain rfl := Option.some.inj (hobj.symm.trans hx)
        exact List.mem_cons_self
      · exact List.mem_cons_of_mem _ hmem
    · rw [goTo, on_other hj]
      exact hsome

/-- `RemoveConnection`. -/
theorem Sound.erases (h : Sound s) (hthread : (s.schedulers k).thread = .removing sockfd) :
    Sound (goTo { s with connections := setAt s.connections sockfd none } k .waiting) ∧
      (Owed s →
        Owed (goTo { s with connections := setAt s.connections sockfd none } k .waiting)) := by
  have hpending : (s.schedulers k).pending =
      sockfd :: Scheduler.pending { s.schedulers k with thread := .waiting } := by
    simp [Scheduler.pending, hthread, Working.removes]
  have honce := h.once k
  rw [hpending] at honce
  have hnot := (List.nodup_cons.mp honce).1
  obtain ⟨c, conn, htable, hobj, hclosed, hk⟩ := h.pending k sockfd (hpending ▸ List.mem_cons_self)
  have hown : conn.sockfd = sockfd := by
    obtain ⟨x, hx, hsock, -⟩ := h.entry _ _ htable
    obtain rfl := Option.some.inj (hobj.symm.trans hx)
    exact hsock
  -- Whatever else is held keeps its entry.
  have hheld : ∀ {d x}, s.Held d x → d ≠ c →
      Held (goTo { s with connections := setAt s.connections sockfd none } k .waiting) d x := by
    intro d x hor hne
    refine hor.imp_right ?_
    intro hd
    refine (setAt_ne ?_).trans hd
    rintro hsock
    rw [hsock, htable] at hd
    exact hne (Option.some.inj hd).symm
  have hother : ∀ {n d}, setAt s.connections sockfd none n = some d →
      n ≠ sockfd ∧ s.connections n = some d := by
    intro n d hn
    have hne : n ≠ sockfd := by
      rintro rfl
      simp at hn
    rw [setAt_ne hne] at hn
    exact ⟨hne, hn⟩
  refine ⟨⟨?_, ?_, h.apart, h.fresh, h.handler, h.callback, ?_, ?_, ?_, ?_, h.index, h.placed⟩, ?_⟩
  · intro n d hn
    exact h.entry n d (hother hn).2
  · intro d x hx hopen
    refine hheld (h.listed d x hx hopen) ?_
    rintro rfl
    obtain rfl := Option.some.inj (hobj.symm.trans hx)
    rw [hclosed] at hopen
    simp at hopen
  · intro j d hd
    by_cases hj : j = k
    · subst hj
      rw [goTo, on_self] at hd
      simp [Working.closes] at hd
    · rw [goTo, on_other hj] at hd ⊢
      obtain ⟨x, hx, hxc, hxk, hor, hfree⟩ := h.closing j d hd
      refine ⟨x, hx, hxc, hxk, hheld hor ?_, hfree⟩
      rintro rfl
      obtain rfl := Option.some.inj (hobj.symm.trans hx)
      exact hj (hxk.symm.trans hk)
  · intro j n hn
    have hmem : n ∈ (s.schedulers j).pending ∧ (j = k → n ≠ sockfd) := by
      by_cases hj : j = k
      · subst hj
        rw [goTo, on_self] at hn
        refine ⟨hpending ▸ List.mem_cons_of_mem _ hn, ?_⟩
        rintro - rfl
        exact hnot hn
      · rw [goTo, on_other hj] at hn
        exact ⟨hn, fun hjk => absurd hjk hj⟩
    obtain ⟨d, x, hd, hx, hxc, hxk⟩ := h.pending j n hmem.1
    refine ⟨d, x, (setAt_ne ?_).trans hd, hx, hxc, hxk⟩
    rintro rfl
    rw [htable] at hd
    obtain rfl := Option.some.inj hd
    obtain rfl := Option.some.inj (hobj.symm.trans hx)
    exact hmem.2 (hxk.symm.trans hk) rfl
  · intro j
    by_cases hj : j = k
    · subst hj
      rw [goTo, on_self]
      exact (List.nodup_cons.mp honce).2
    · rw [goTo, on_other hj]
      exact h.once j
  · intro j d hd
    rw [triggerEvents_goTo] at hd
    exact h.homes j d hd
  · intro howed d x hx hxc hor
    have hwas : s.Held d x := hor.imp_right fun hd => (hother hd).2
    have hne : x.sockfd ≠ sockfd := by
      intro heq
      rcases hor with hcon | hd
      · have hnone := h.unlisted hcon hx
        rw [heq, htable] at hnone
        simp at hnone
      · exact (hother hd).1 heq
    have hsome := howed d x hx hxc hwas
    by_cases hj : x.scheduler = k
    · rw [hj, hthread, hpending] at hsome
      rw [hj, goTo, on_self]
      refine .inr ((List.mem_cons.mp (hsome.resolve_left ?_)).resolve_left hne)
      simp [Working.closes]
    · rw [goTo, on_other hj]
      exact hsome

/-! ### The steps -/

/-- **One step of a scheduler's thread.** -/
theorem Sound.workerStep (h : Sound s) (hstep : s.workerStep k = some s') :
    Sound s' ∧ (HeardAt s k (s.schedulers k).thread → Owed s → Owed s') := by
  unfold TcpServer.workerStep at hstep
  cases hthread : (s.schedulers k).thread with
  | waiting =>
    rw [hthread] at hstep
    simp at hstep
  | closing c =>
    rw [hthread] at hstep
    obtain ⟨conn, -, rfl⟩ := Option.map_eq_some_iff.mp hstep
    have hquiet := h.quiet (k := k) (f := fun scheduler =>
      { scheduler with
        channels := setAt scheduler.channels conn.sockfd none
        thread := .unregistered c }) (by rw [hthread]; rfl)
      (by simp [Scheduler.pending, hthread, Working.removes]) (h.homes k)
    exact ⟨hquiet.1, fun _ => hquiet.2⟩
  | unregistered c =>
    rw [hthread] at hstep
    obtain ⟨conn, hobj, rfl⟩ := Option.map_eq_some_iff.mp hstep
    split
    · rename_i hcb
      have hcalls := h.calls hthread hobj hcb
      exact ⟨hcalls.1, fun _ => hcalls.2⟩
    · rename_i hcb
      refine ⟨h.less ?_ (List.Perm.subperm ?_) (h.homes k), ?_⟩
      · intro d hd
        simp [Working.closes] at hd
      · simp [Scheduler.pending, hthread, Working.removes]
      · intro hheard
        simp only [HeardAt, hobj, Option.all_some] at hheard
        exact absurd hheard hcb
  | disconnecting sockfd =>
    rw [hthread] at hstep
    obtain rfl := Option.some.inj hstep
    have hquiet := h.quiet (k := k) (f := fun scheduler =>
      { scheduler with thread := if s.Room k then .checked sockfd else .refused sockfd })
      (by rw [hthread]; split <;> rfl)
      (by
        rw [Scheduler.pending, Scheduler.pending, hthread]
        split <;> exact List.Perm.refl _) (h.homes k)
    exact ⟨hquiet.1, fun _ => hquiet.2⟩
  | checked sockfd =>
    rw [hthread] at hstep
    obtain rfl := Option.some.inj hstep
    unfold push
    split
    · rw [goTo, on_on]
      have hquiet := h.quiet (k := k) (f := fun scheduler =>
        { scheduler with
          triggerEvents := scheduler.triggerEvents ++ [.removeConnection sockfd]
          thread := .waiting }) (by rw [hthread]; rfl)
        (by
          simp only [Scheduler.pending, hthread, List.filterMap_append, List.append_assoc]
          exact List.perm_middle)
        (by
          intro c hc
          simp only [List.mem_append, List.mem_singleton, reduceCtorEq, or_false] at hc
          exact h.homes k c hc)
      exact ⟨hquiet.1, fun _ => hquiet.2⟩
    · rename_i hfull
      refine ⟨h.less ?_ ?_ (h.homes k), fun hroom => absurd hroom hfull⟩
      · intro d hd
        simp [Working.closes] at hd
      · -- The callback is lost.
        rw [Scheduler.pending, Scheduler.pending, hthread]
        exact (List.sublist_cons_self _ _).subperm
  | refused sockfd =>
    rw [hthread] at hstep
    obtain rfl := Option.some.inj hstep
    have hquiet := h.quiet (k := k) (f := fun scheduler =>
      { scheduler with timers := scheduler.timers ++ [sockfd], thread := .waiting })
      (by rw [hthread]; rfl)
      (by
        simp only [Scheduler.pending, hthread, ← List.append_assoc]
        exact List.perm_append_singleton _ _) (h.homes k)
    exact ⟨hquiet.1, fun _ => hquiet.2⟩
  | removing sockfd =>
    rw [hthread] at hstep
    obtain rfl := Option.some.inj hstep
    have herases := h.erases hthread
    exact ⟨herases.1, fun _ => herases.2⟩

/-- **One step of the accept handler.** -/
theorem Sound.acceptorStep (h : Sound s) (hstep : s.acceptorStep = some s') :
    Sound s' ∧ (Owed s → Owed s') := by
  unfold TcpServer.acceptorStep at hstep
  cases hhandler : s.handler with
  | idle =>
    rw [hhandler] at hstep
    simp at hstep
  | accepted sockfd =>
    rw [hhandler] at hstep
    obtain rfl := Option.some.inj hstep
    obtain ⟨hk, hi⟩ := h.getTaskScheduler_lt
    have hmade := h.constructs hhandler hk hi
    have hregisters := hmade.quiet (k := s.getTaskScheduler.1) (f := fun scheduler =>
        { scheduler with channels := emplaceAt scheduler.channels sockfd s.objects.length })
      rfl (List.Perm.refl _) (hmade.homes _)
    exact ⟨hregisters.1, fun howed => hregisters.2 (howed.constructs _ _)⟩
  | connected c =>
    rw [hhandler] at hstep
    obtain ⟨conn, hobj, rfl⟩ := Option.map_eq_some_iff.mp hstep
    exact ⟨h.adds hhandler hobj, fun howed => howed.adds h hhandler hobj⟩
  | added c =>
    rw [hhandler] at hstep
    obtain rfl := Option.some.inj hstep
    exact ⟨h.sets hhandler, Owed.sets⟩

/-- **A callback that has been taken from the queue.** -/
theorem Sound.trigger (h : Sound s) (hfree : s.Free k) {e : TriggerEvent}
    {rest : List TriggerEvent} (hqueue : (s.schedulers k).triggerEvents = e :: rest)
    (hstep : (s.on k fun scheduler => { scheduler with triggerEvents := rest }).run k e = some s') :
    Sound s' ∧ (Owed s → Owed s') := by
  have hwait := hfree.1
  have hrest : ∀ c, TriggerEvent.close c ∈ rest →
      ∃ conn, s.objects[c]? = some conn ∧ conn.scheduler = k := by
    intro c hc
    exact h.homes k c (hqueue ▸ List.mem_cons_of_mem _ hc)
  have htakes : e.removes = none → Sound (s.on k fun scheduler =>
      { scheduler with triggerEvents := rest }) ∧ (Owed s → Owed (s.on k fun scheduler =>
        { scheduler with triggerEvents := rest })) := by
    intro he
    refine h.quiet rfl ?_ hrest
    simp [Scheduler.pending, hqueue, he]
  cases e with
  | removeConnection sockfd =>
    obtain rfl := Option.some.inj hstep
    rw [goTo, on_on]
    refine h.quiet ?_ ?_ hrest
    · rw [hwait]
      rfl
    · simp [Scheduler.pending, hqueue, hwait, Working.removes, TriggerEvent.removes]
  | close c =>
    obtain ⟨conn, hobj, rfl⟩ := Option.map_eq_some_iff.mp hstep
    obtain ⟨x, hx, hk⟩ := h.homes k c (hqueue ▸ List.mem_cons_self)
    obtain rfl := Option.some.inj (hobj.symm.trans hx)
    have htaken := htakes rfl
    have hcloses := htaken.1.closes (k := k) (by rw [on_self]; exact hwait) hk hobj
    exact ⟨hcloses.1, fun howed => hcloses.2 (htaken.2 howed)⟩
  | other =>
    obtain rfl := Option.some.inj hstep
    exact htakes rfl

/-- **One step**: what holds in every run, and what the condition adds. -/
theorem Sound.step (h : Sound s) {e : Happening} (hstep : s.step e = some s') :
    Sound s' ∧ (Heard s e → Owed s → Owed s') := by
  cases e with
  | onAccept sockfd =>
    obtain ⟨⟨hfree, hunused⟩, heq⟩ := Option.ite_none_right_eq_some.mp hstep
    obtain rfl := Option.some.inj heq
    split
    · exact ⟨h.accepts (hfree.2 rfl) hunused, fun _ => Owed.accepts⟩
    · exact ⟨h, fun _ => id⟩
  | acceptor =>
    have hnext := h.acceptorStep hstep
    exact ⟨hnext.1, fun _ => hnext.2⟩
  | fail c =>
    obtain ⟨conn, hobj, heq⟩ := Option.bind_eq_some_iff.mp hstep
    obtain ⟨⟨hfree, -⟩, heq⟩ := Option.ite_none_right_eq_some.mp heq
    obtain rfl := Option.some.inj heq
    have hcloses := h.closes hfree.1 rfl hobj
    exact ⟨hcloses.1, fun _ => hcloses.2⟩
  | trigger k =>
    obtain ⟨hfree, heq⟩ := Option.ite_none_right_eq_some.mp hstep
    cases hqueue : (s.schedulers k).triggerEvents with
    | nil =>
      rw [hqueue] at heq
      simp at heq
    | cons e rest =>
      rw [hqueue] at heq
      have hnext := h.trigger hfree hqueue heq
      exact ⟨hnext.1, fun _ => hnext.2⟩
  | timer k i =>
    obtain ⟨hfree, heq⟩ := Option.ite_none_right_eq_some.mp hstep
    obtain ⟨sockfd, htimer, rfl⟩ := Option.map_eq_some_iff.mp heq
    have hquiet := h.quiet (k := k) (f := fun scheduler =>
      { scheduler with
        timers := scheduler.timers.eraseIdx i
        thread := .removing sockfd }) (by rw [hfree.1]; rfl) ?_ (h.homes k)
    · exact ⟨hquiet.1, fun _ => hquiet.2⟩
    · obtain ⟨hi, rfl⟩ := List.getElem?_eq_some_iff.mp htimer
      simp only [Scheduler.pending, hfree.1, Working.removes, List.cons_append, List.nil_append]
      have hback := List.Perm.append_left
        ((s.schedulers k).triggerEvents.filterMap TriggerEvent.removes)
        (List.getElem_cons_eraseIdx_perm hi)
      exact List.perm_middle.symm.trans hback
  | goOn k => exact h.workerStep hstep
  | disconnect c =>
    obtain ⟨conn, hobj, heq⟩ := Option.bind_eq_some_iff.mp hstep
    obtain ⟨-, heq⟩ := Option.ite_none_left_eq_some.mp heq
    obtain rfl := Option.some.inj heq
    have hpushes := h.pushes (k := conn.scheduler) (e := .close c) rfl ?_
    · exact ⟨hpushes.1, fun _ => hpushes.2⟩
    · intro d hd
      obtain rfl := TriggerEvent.close.inj hd
      exact ⟨conn, hobj, rfl⟩
  | post k =>
    obtain ⟨-, heq⟩ := Option.ite_none_right_eq_some.mp hstep
    obtain rfl := Option.some.inj heq
    have hpushes := h.pushes (k := k) (e := .other) rfl (by simp)
    exact ⟨hpushes.1, fun _ => hpushes.2⟩
  | destroy c =>
    obtain ⟨conn, hobj, heq⟩ := Option.bind_eq_some_iff.mp hstep
    obtain ⟨hfree, heq⟩ := Option.ite_none_left_eq_some.mp heq
    obtain rfl := Option.some.inj heq
    exact ⟨h.destroys hobj (fun href => hfree (.inr href)),
      fun _ howed => howed.modifies (fun _ => rfl) (fun _ => rfl) (fun _ => rfl)⟩

/-! ## What holds of every run -/

/-- Of every run, whatever its steps. -/
theorem sound_of_reach {G : TcpServer → Happening → Prop} (hr : Reach system G s) : Sound s := by
  refine hr.inv (P := fun s => Sound s) ?_ ?_
  · rintro s ⟨numThreads, rfl⟩
    exact sound_new numThreads
  · intro s e s' h _ hstep
    exact (h.step hstep).1

theorem owed_of_reach (hr : Reach system Heard s) : Owed s := by
  refine (hr.inv (P := fun s => Sound s ∧ Owed s) ?_ ?_).2
  · rintro s ⟨numThreads, rfl⟩
    exact ⟨sound_new numThreads, owed_new numThreads⟩
  · intro s e s' h hheard hstep
    have hnext := h.1.step hstep
    exact ⟨hnext.1, hnext.2 hheard h.2⟩

/-- **An open connection is in the table** in every state of every run, once `AddConnection` has
been called, and under its own number. -/
theorem open_listed (hr : Reach system (anyStep _ _) s) (hobj : s.objects[c]? = some conn)
    (hopen : conn.isClosed = false) (hadded : s.handler ≠ .connected c) :
    s.connections conn.sockfd = some c :=
  ((sound_of_reach hr).listed c conn hobj hopen).resolve_left hadded

/-- **The table is cleaned up** in every run in which `Close` finds the callback and the ring takes
what is pushed. Whoever accepts and the schedulers take turns at every statement, and a descriptor
that was closed may be accepted again before its entry is erased. The promise is made for states at
rest, where nothing is left in a ring that would still change the table. -/
theorem connections_cleaned (s : TcpServer) (hr : Reach system Heard s) : CleanedUp s := by
  intro hrest sockfd c
  have hsound := sound_of_reach hr
  obtain ⟨hidle, hquiet⟩ := hrest
  constructor
  · intro htable
    obtain ⟨conn, hobj, hsock, -⟩ := hsound.entry sockfd c htable
    refine ⟨conn, hobj, hsock, ?_⟩
    cases hclosed : conn.isClosed with
    | false => rfl
    | true =>
      -- A closed connection would be owed something, and nothing is under way.
      obtain ⟨hwait, hqueue, htimers⟩ :=
        hquiet conn.scheduler (hsound.placed c conn hobj)
      have howed := owed_of_reach hr c conn hobj hclosed (.inr (hsock ▸ htable))
      simp [hwait, Scheduler.pending, hqueue, htimers, Working.closes, Working.removes] at howed
  · rintro ⟨conn, hobj, rfl, hopen⟩
    refine (hsound.listed c conn hobj hopen).resolve_left ?_
    rw [hidle]
    simp

theorem start_new (numThreads : Nat) : system.start (new numThreads) := ⟨numThreads, rfl⟩

/-- The connection is closed while the handler enters it, its entry is erased, and the number comes
round. -/
theorem connections_cleaned_reused : ∃ s, (s.AtRest ∧ s.connections 5 = some 1) ∧ CleanedUp s := by
  obtain ⟨s, hr, hs⟩ := reach_of_runFrom step Heard (new 2)
    [.onAccept 5, .acceptor, .fail 0, .goOn 1, .acceptor, .acceptor, .goOn 1, .goOn 1, .goOn 1,
      .trigger 1, .goOn 1, .destroy 0, .onAccept 5, .acceptor, .acceptor, .acceptor]
    (fun s => (decide s.AtRest, s.connections 5)) (true, some 1) (start_new 2) (by decide +kernel)
  simp only [Prod.mk.injEq, decide_eq_true_eq] at hs
  exact ⟨s, hs, connections_cleaned s hr⟩

/-- `Close` comes between `OnConnect` and `SetDisconnectCallback`: nobody erases the entry. -/
theorem connections_stale : ¬ ∀ s, Reach system (anyStep _ _) s → CleanedUp s := by
  intro hall
  obtain ⟨s, hr, hs⟩ := reach_of_runFrom step (anyStep _ _) (new 2)
    [.onAccept 5, .acceptor, .fail 0, .goOn 1, .goOn 1, .acceptor, .acceptor]
    (fun s => (decide s.AtRest, s.connections 5, s.objects))
    (true, some 0, [⟨5, 1, true, true, false⟩]) (start_new 2) (by decide +kernel)
  simp only [Prod.mk.injEq, decide_eq_true_eq] at hs
  obtain ⟨hrest, htable, hobjects⟩ := hs
  obtain ⟨conn, hobj, -, hopen⟩ := (hall s hr hrest 5 0).mp htable
  rw [hobjects] at hobj
  obtain rfl := Option.some.inj hobj
  exact absurd hopen (by decide)

end TcpServer

end Maixii.Net
