import Maixii.Lib.Mutex
import Maixii.Lib.Run
import Maixii.Net.BufferWriter

/-!
# `Net/TcpConnection.lean`: who looks at the send queue

`net/TcpConnection.cpp`, as far as the mutex and the send queue go. Any thread calls `Send`: it
appends under the mutex and then runs `HandleWrite`, which gives up when the mutex is held. The
scheduler's thread runs one handler at a time (`HandleRead`, whose callback may `Send` in turn,
`HandleWrite`, `HandleClose`), and the `Close` that a `Disconnect` has asked for.

Giving up is right when the holder is itself going to look at the queue. `HandleRead` and
`Disconnect` hold the mutex and never look: who gives up against them leaves his bytes to nobody.
`sends_flushed` is about the runs where that does not happen (`Heeded`).
-/

set_option autoImplicit false

namespace Maixii.Net

open Maixii.Lib

/-- How far a call is, named by what it does next. -/
inductive Doing
  /-- `Send`, before it looks at `is_closed_`. -/
  | send (data : Bytes)
  | locking (data : Bytes)
  | appending (data : Bytes)
  | appended
  /-- `HandleWrite`, before it looks at `is_closed_`: the rest of a `Send`, or a handler. -/
  | write
  | trying
  | sending
  /-- `write_buffer_->Send` was not refused. -/
  | arming
  /-- It was: `Close` is next. -/
  | failed
  /-- What is to be done under the mutex is done. -/
  | leaving
  /-- `HandleRead`, before it takes the mutex. -/
  | read
  | receiving
  | received
  /-- The read callback, which runs without the mutex. -/
  | callback
  /-- `HandleClose`, `HandleError`, or `HandleRead` after a callback that returned `false`. -/
  | close
  | closing
  | disconnect
  | disconnecting
  | disconnected
  /-- The `Close` that a `Disconnect` has left to the scheduler. -/
  | closeEvent
  | returned
  deriving DecidableEq, Repr

/-- Whether the call holds the mutex. -/
def Doing.critical : Doing → Bool
  | .appending _ | .appended | .sending | .arming | .failed | .leaving | .receiving | .received
  | .closing | .disconnecting | .disconnected => true
  | _ => false

/-- Whether the call has the mutex for something other than the queue. -/
def Doing.ignores : Doing → Bool
  | .receiving | .received | .disconnecting | .disconnected => true
  | _ => false

/-- Whether the call is still to look at the queue, or to close the connection. -/
def Doing.looks : Doing → Bool
  | .send _ | .locking _ | .appending _ | .appended | .write | .trying | .sending | .arming
  | .failed | .close | .closing | .closeEvent => true
  | _ => false

/-- A connection, with every call so far. `isWriting` is whether the channel is registered for
writing: both change together, under the mutex. -/
structure TcpConnection where
  isClosed : Bool
  isWriting : Bool
  writeBuffer : BufferWriter
  /-- Who holds `mutex_`. -/
  mutex : Option Nat
  calls : List Doing
  /-- The calls the scheduler's thread is in, the innermost first. -/
  scheduler : List Nat
  /-- How many `Close` events wait in the scheduler. -/
  closeEvents : Nat

namespace TcpConnection

/-- What happens next. What the outside decides is part of it: how `::send` answers, and whether
`Read` got something or the callback was content. -/
inductive Move
  /-- A thread calls `Send`. -/
  | send (data : Bytes)
  /-- A thread calls `Disconnect`. -/
  | disconnect
  /-- The read callback calls `Send`. -/
  | reply (data : Bytes)
  /-- The scheduler begins a handler. -/
  | handleRead
  | handleWrite
  | handleClose
  | closeEvent
  | goOn (i : Nat) (results : List SendResult) (ok : Bool)
  deriving DecidableEq, Repr

def new : TcpConnection where
  isClosed := false
  isWriting := false
  writeBuffer := BufferWriter.new 500
  mutex := none
  calls := []
  scheduler := []
  closeEvents := 0

/-- A call begins. -/
def begin (s : TcpConnection) (a : Doing) : TcpConnection := { s with calls := s.calls ++ [a] }

/-- The call goes on to this. -/
def goOn (s : TcpConnection) (i : Nat) (a : Doing) : TcpConnection :=
  { s with calls := s.calls.set i a }

/-- `mutex_.lock()`, which waits. -/
def lock (s : TcpConnection) (i : Nat) (a : Doing) : Option TcpConnection :=
  if s.mutex = none then some { s.goOn i a with mutex := some i } else none

/-- `mutex_.unlock()`. -/
def unlock (s : TcpConnection) (i : Nat) (a : Doing) : TcpConnection :=
  { s.goOn i a with mutex := none }

/-- `Close`. -/
def setClosed (s : TcpConnection) : TcpConnection := { s with isClosed := true }

/-- The end of `HandleWrite`: writing is disabled when the queue is empty, else enabled. -/
def arm (s : TcpConnection) : TcpConnection :=
  if s.writeBuffer.isEmpty then
    if s.isWriting then { s with isWriting := false } else s
  else if !s.isWriting then { s with isWriting := true }
  else s

/-- The next step of a call. -/
def advance (s : TcpConnection) (i : Nat) (results : List SendResult) (ok : Bool) :
    Doing → Option TcpConnection
  | .send data => some (s.goOn i (if s.isClosed then .returned else .locking data))
  | .locking data => s.lock i (.appending data)
  | .appending data =>
      some { s.goOn i .appended with writeBuffer := (s.writeBuffer.append data 0).2 }
  | .appended => some (s.unlock i .write)
  | .write => some (s.goOn i (if s.isClosed then .returned else .trying))
  | .trying =>
      if s.mutex = none then some { s.goOn i .sending with mutex := some i }
      else some (s.goOn i .returned)
  | .sending =>
      some { s.goOn i (if (s.writeBuffer.send results).1 < 0 then .failed else .arming) with
        writeBuffer := (s.writeBuffer.send results).2.1 }
  | .arming => some (s.arm.goOn i .leaving)
  | .failed => some (s.setClosed.goOn i .leaving)
  | .leaving => some (s.unlock i .returned)
  | .read => s.lock i .receiving
  | .receiving =>
      some (if s.isClosed then s.goOn i .leaving
        else if ok then s.goOn i .received
        else s.setClosed.goOn i .leaving)
  | .received => some (s.unlock i .callback)
  | .callback => some (s.goOn i (if ok then .returned else .close))
  | .close => s.lock i .closing
  | .closing => some (s.setClosed.goOn i .leaving)
  | .disconnect => s.lock i .disconnecting
  | .disconnecting => some { s.goOn i .disconnected with closeEvents := s.closeEvents + 1 }
  | .disconnected => some (s.unlock i .returned)
  | .closeEvent => some (s.setClosed.goOn i .returned)
  | .returned => none

/-- The scheduler begins a handler, one at a time. -/
def handle (s : TcpConnection) (a : Doing) : Option TcpConnection :=
  if s.scheduler = [] then some { s.begin a with scheduler := [s.calls.length] } else none

/-- The call is not one the scheduler's thread is in, or it is the innermost of these. -/
def mayGoOn (s : TcpConnection) (i : Nat) : Bool :=
  !s.scheduler.contains i || s.scheduler.head? == some i

/-- The scheduler's thread is through with the calls that have returned. -/
def popReturned (s : TcpConnection) : TcpConnection :=
  { s with scheduler := s.scheduler.filter fun i => s.calls[i]? ≠ some .returned }

def step (s : TcpConnection) : Move → Option TcpConnection
  | .send data => some (s.begin (.send data))
  | .disconnect => some (s.begin .disconnect)
  | .reply data =>
      if (s.scheduler.head?.bind fun i => s.calls[i]?) = some .callback then
        some { s.begin (.send data) with scheduler := s.calls.length :: s.scheduler }
      else none
  | .handleRead => s.handle .read
  | .handleWrite => s.handle .write
  | .handleClose => s.handle .close
  | .closeEvent =>
      if 0 < s.closeEvents then
        (s.handle .closeEvent).map fun t => { t with closeEvents := s.closeEvents - 1 }
      else none
  | .goOn i results ok =>
      if s.mayGoOn i then
        (s.calls[i]?.bind fun a => s.advance i results ok a).map popReturned
      else none

def system : System TcpConnection Move := System.ofStep (fun s => s = new) step

/-- The channel is registered for writing as long as there is something to write. -/
def Settled (s : TcpConnection) : Prop := s.isWriting = !s.writeBuffer.isEmpty

instance (s : TcpConnection) : Decidable s.Settled := inferInstanceAs (Decidable (_ = _))

/-- **No send is left stranded**: with no call in progress, the channel is registered for writing
if and only if the queue is not empty. -/
def NotStranded (s : TcpConnection) : Prop :=
  s.isClosed = false → (∀ a ∈ s.calls, a = .returned) → s.Settled

/-- The holder of the mutex is not going to look at the queue. -/
def ignored (s : TcpConnection) : Bool :=
  (s.mutex.bind fun h => s.calls[h]?).any Doing.ignores

/-- The condition: who gives up against such a holder was not needed, since the connection is
closed, the channel is as it has to be, or another call is still to look. -/
def Heeded (s : TcpConnection) : Move → Prop
  | .goOn i _ _ => s.calls[i]? = some .trying → s.ignored = true →
      s.isClosed = true ∨ s.Settled ∨ (s.calls.eraseIdx i).any Doing.looks = true
  | _ => True

instance (s : TcpConnection) (m : Move) : Decidable (Heeded s m) := by
  cases m <;> unfold Heeded <;> infer_instance

/-! ## The invariant -/

/-- Somebody is still to look at the queue. -/
def Awaited (calls : List Doing) : Prop := ∃ (j : Nat) (a : Doing), calls[j]? = some a ∧ a.looks

/-- **What holds between any two steps**: the channel is as it has to be, or somebody will see to
it; and a call that is about to leave has seen to it. -/
structure Sound (s : TcpConnection) : Prop where
  locked : Locked Doing.critical s.calls s.mutex
  settled : s.isClosed = true ∨ s.Settled ∨ Awaited s.calls
  left : ∀ i : Nat, s.calls[i]? = some Doing.leaving → s.isClosed = true ∨ s.Settled

theorem sound_new : Sound new where
  locked := locked_nil
  settled := .inr (.inl rfl)
  left i h := by simp [new] at h

variable {s s' : TcpConnection} {i : Nat} {a b : Doing}

theorem Awaited.begin {calls : List Doing} (h : Awaited calls) : Awaited (calls ++ [b]) := by
  obtain ⟨j, x, hx, hl⟩ := h
  exact ⟨j, x, getElem?_begin.mpr (.inl hx), hl⟩

/-- Who looked before still does, unless it was the one that went on. -/
theorem Awaited.goOn {calls : List Doing} (h : Awaited calls) (ha : calls[i]? = some a)
    (hab : a.looks = true → b.looks = true) : Awaited (calls.set i b) := by
  obtain ⟨j, x, hx, hl⟩ := h
  by_cases hj : j = i
  · subst hj
    rw [ha] at hx
    obtain rfl := Option.some.inj hx
    exact ⟨j, b, getElem?_set_self_call ha, hab hl⟩
  · exact ⟨j, x, by rw [getElem?_set_call ha, if_neg hj]; exact hx, hl⟩

/-- The call itself is to look. -/
theorem awaited_self {calls : List Doing} (ha : calls[i]? = some a) (hb : b.looks = true) :
    Awaited (calls.set i b) :=
  ⟨i, b, getElem?_set_self_call ha, hb⟩

/-- A call begins, of which nothing is held yet. -/
theorem Sound.begins (h : Sound s) (hb : b.critical = false) : Sound (s.begin b) where
  locked := h.locked.begin hb
  settled := h.settled.imp_right (Or.imp_right Awaited.begin)
  left := by
    intro j hj
    rcases getElem?_begin.mp hj with hj | ⟨-, rfl⟩
    · exact h.left j hj
    · exact absurd hb (by decide)

/-- **A call goes on, and neither the queue nor the channel changes.** -/
theorem Sound.quiet (h : Sound s) (ha : s.calls[i]? = some a) {m : Option Nat}
    (hlocked : Locked Doing.critical (s.calls.set i b) m)
    (hlooks : s.isClosed = true ∨ s.Settled ∨ Awaited (s.calls.set i b))
    (hleft : b = .leaving → s.isClosed = true ∨ s.Settled) :
    Sound { s.goOn i b with mutex := m } where
  locked := hlocked
  settled := hlooks
  left := by
    intro j hj
    change (s.calls.set i b)[j]? = _ at hj
    rw [getElem?_set_call ha] at hj
    split at hj
    · exact hleft (Option.some.inj hj)
    · exact h.left j hj

/-- The same, when the call goes on looking, or never did. -/
theorem Sound.still (h : Sound s) (ha : s.calls[i]? = some a) {m : Option Nat}
    (hlocked : Locked Doing.critical (s.calls.set i b) m)
    (hlooks : a.looks = true → b.looks = true) (hleft : b ≠ .leaving) :
    Sound { s.goOn i b with mutex := m } :=
  h.quiet ha hlocked (h.settled.imp_right (Or.imp_right fun hw => hw.goOn ha hlooks))
    fun hb => absurd hb hleft

/-- A call takes the mutex. -/
theorem Sound.locks (h : Sound s) (ha : s.calls[i]? = some a) (hb : b.critical = true)
    (hlooks : a.looks = true → b.looks = true) (hleft : b ≠ .leaving)
    (hs : s.lock i b = some s') : Sound s' := by
  unfold lock at hs
  split at hs
  · rename_i hfree
    obtain rfl := Option.some.inj hs
    have hlocked := h.locked
    rw [hfree] at hlocked
    exact h.still ha (hlocked.acquire ha hb) hlooks hleft
  · simp at hs

/-- Once the connection is closed, nothing is left to be seen to. -/
theorem Sound.closes (hlocked : Locked Doing.critical (s.calls.set i b) s.mutex) :
    Sound (s.setClosed.goOn i b) where
  locked := hlocked
  settled := .inl rfl
  left := fun _ _ => .inl rfl

/-- **The holder changes the queue**, and is still to look at it. -/
theorem Sound.queues (h : Sound s) (ha : s.calls[i]? = some a) (hcrit : a.critical = true)
    (hbcrit : b.critical = true) (hlooks : b.looks = true) (hleft : b ≠ .leaving)
    (w : BufferWriter) : Sound { s.goOn i b with writeBuffer := w } where
  locked := h.locked.goOn ha (hbcrit.trans hcrit.symm)
  settled := .inr (.inr (awaited_self ha hlooks))
  left := by
    intro j hj
    change (s.calls.set i b)[j]? = _ at hj
    rw [getElem?_set_call ha] at hj
    split at hj
    · exact absurd (Option.some.inj hj) hleft
    · -- Another call about to leave would hold the mutex too.
      rename_i hji
      have hm := (h.locked.lock i a ha).mp hcrit
      have hm' := (h.locked.lock j _ hj).mp rfl
      exact absurd (Option.some.inj (hm'.symm.trans hm)) hji

/-- What `HandleWrite` is for. -/
theorem settled_arm (s : TcpConnection) : s.arm.Settled := by
  unfold arm Settled
  cases he : s.writeBuffer.isEmpty <;> cases hw : s.isWriting <;> simp [he, hw]

theorem arm_calls (s : TcpConnection) : s.arm.calls = s.calls := by
  unfold arm
  split
  · split <;> rfl
  · split <;> rfl

theorem arm_mutex (s : TcpConnection) : s.arm.mutex = s.mutex := by
  unfold arm
  split
  · split <;> rfl
  · split <;> rfl

theorem Sound.arms (h : Sound s) (ha : s.calls[i]? = some .arming) :
    Sound (s.arm.goOn i .leaving) where
  locked := by
    show Locked Doing.critical (s.arm.calls.set i .leaving) s.arm.mutex
    rw [arm_calls, arm_mutex]
    exact h.locked.goOn ha rfl
  settled := .inr (.inl (settled_arm s))
  left := fun _ _ => .inr (settled_arm s)

/-- **`try_lock`**: who gives up leaves the queue to the holder, or was not needed. -/
theorem Sound.tries (h : Sound s) (ha : s.calls[i]? = some .trying) {results : List SendResult}
    {ok : Bool} (hheed : Heeded s (.goOn i results ok))
    (hs : s.advance i results ok .trying = some s') : Sound s' := by
  simp only [advance] at hs
  obtain hfree | ⟨j, hj⟩ := Option.eq_none_or_eq_some s.mutex
  · rw [if_pos hfree] at hs
    obtain rfl := Option.some.inj hs
    have hlocked := h.locked
    rw [hfree] at hlocked
    exact h.still ha (hlocked.acquire ha rfl) (fun _ => rfl) (by decide)
  · rw [if_neg (by rw [hj]; simp)] at hs
    obtain rfl := Option.some.inj hs
    obtain ⟨x, hx⟩ := h.locked.holder j hj
    have hcrit := (h.locked.lock j x hx).mpr hj
    have hji : j ≠ i := by
      rintro rfl
      rw [ha] at hx
      rw [← Option.some.inj hx] at hcrit
      exact absurd hcrit Bool.false_ne_true
    have hother : (s.calls.set i Doing.returned)[j]? = some x := by
      rw [getElem?_set_call ha, if_neg hji]
      exact hx
    refine h.quiet ha (h.locked.goOn ha rfl) ?_ (fun hb => by simp at hb)
    by_cases hl : x.looks = true
    · exact .inr (.inr ⟨j, x, hother, hl⟩)
    · by_cases hig : x.ignores = true
      · have hign : s.ignored = true := by simp [ignored, hj, hx, hig]
        refine (hheed ha hign).imp_right (Or.imp_right ?_)
        intro hany
        obtain ⟨y, hy, hyl⟩ := List.any_eq_true.mp hany
        obtain ⟨k, hk, hky⟩ := List.mem_eraseIdx_iff_getElem?.mp hy
        exact ⟨k, y, by rw [getElem?_set_call ha, if_neg hk]; exact hky, hyl⟩
      · -- The only holder left is one that has seen to the queue.
        have hleaving : x = .leaving := by
          cases x <;> simp_all [Doing.critical, Doing.looks, Doing.ignores]
        rw [hleaving] at hx
        exact (h.left j hx).imp_right .inl

/-- **One step of a call.** -/
theorem Sound.advance (h : Sound s) (ha : s.calls[i]? = some a) {results : List SendResult}
    {ok : Bool} (hheed : Heeded s (.goOn i results ok))
    (hs : s.advance i results ok a = some s') : Sound s' := by
  cases a with
  | send data =>
    obtain rfl := Option.some.inj hs
    cases hc : s.isClosed with
    | true => exact h.quiet ha (h.locked.goOn ha rfl) (.inl hc) fun hb => by simp at hb
    | false => exact h.still ha (h.locked.goOn ha rfl) (fun _ => rfl) (by simp)
  | locking data => exact h.locks ha rfl (fun _ => rfl) (by simp) hs
  | appending data =>
    obtain rfl := Option.some.inj hs
    exact h.queues ha rfl rfl rfl (by simp) _
  | appended =>
    obtain rfl := Option.some.inj hs
    exact h.still ha (h.locked.release ha rfl rfl) (fun _ => rfl) (by simp)
  | write =>
    obtain rfl := Option.some.inj hs
    cases hc : s.isClosed with
    | true => exact h.quiet ha (h.locked.goOn ha rfl) (.inl hc) fun hb => by simp at hb
    | false => exact h.still ha (h.locked.goOn ha rfl) (fun _ => rfl) (by simp)
  | trying => exact h.tries ha hheed hs
  | sending =>
    obtain rfl := Option.some.inj hs
    refine h.queues ha rfl ?_ ?_ ?_ _
    · split <;> rfl
    · split <;> rfl
    · split <;> simp
  | arming =>
    obtain rfl := Option.some.inj hs
    exact h.arms ha
  | failed =>
    obtain rfl := Option.some.inj hs
    exact Sound.closes (h.locked.goOn ha rfl)
  | leaving =>
    obtain rfl := Option.some.inj hs
    exact h.still ha (h.locked.release ha rfl rfl) (fun hl => hl) (by simp)
  | read => exact h.locks (b := .receiving) ha rfl (fun hl => hl) (by simp) hs
  | receiving =>
    obtain rfl := Option.some.inj hs
    split
    · rename_i hc
      exact h.quiet ha (h.locked.goOn ha rfl) (.inl hc) fun _ => .inl hc
    · split
      · exact h.still ha (h.locked.goOn ha rfl) (fun hl => hl) (by simp)
      · exact Sound.closes (h.locked.goOn ha rfl)
  | received =>
    obtain rfl := Option.some.inj hs
    exact h.still ha (h.locked.release ha rfl rfl) (fun hl => hl) (by simp)
  | callback =>
    obtain rfl := Option.some.inj hs
    cases ok with
    | true => exact h.still ha (h.locked.goOn ha rfl) (fun hl => hl) (by simp)
    | false => exact h.still ha (h.locked.goOn ha rfl) (fun _ => rfl) (by simp)
  | close => exact h.locks ha rfl (fun _ => rfl) (by simp) hs
  | closing =>
    obtain rfl := Option.some.inj hs
    exact Sound.closes (h.locked.goOn ha rfl)
  | disconnect => exact h.locks (b := .disconnecting) ha rfl (fun hl => hl) (by simp) hs
  | disconnecting =>
    obtain rfl := Option.some.inj hs
    have hq := h.still ha (b := .disconnected) (h.locked.goOn ha rfl) (fun hl => hl) (by simp)
    exact ⟨hq.locked, hq.settled, hq.left⟩
  | disconnected =>
    obtain rfl := Option.some.inj hs
    exact h.still ha (h.locked.release ha rfl rfl) (fun hl => hl) (by simp)
  | closeEvent =>
    obtain rfl := Option.some.inj hs
    exact Sound.closes (h.locked.goOn ha rfl)
  | returned => simp [TcpConnection.advance] at hs

theorem Sound.handle (h : Sound s) (ha : a.critical = false) (hs : s.handle a = some s') :
    Sound s' := by
  unfold TcpConnection.handle at hs
  split at hs
  · obtain rfl := Option.some.inj hs
    have hb := h.begins ha
    exact ⟨hb.locked, hb.settled, hb.left⟩
  · simp at hs

/-- **One step.** -/
theorem Sound.step (h : Sound s) {m : Move} (hheed : Heeded s m) (hs : s.step m = some s') :
    Sound s' := by
  cases m with
  | send data =>
    obtain rfl := Option.some.inj hs
    exact h.begins rfl
  | disconnect =>
    obtain rfl := Option.some.inj hs
    exact h.begins rfl
  | reply data =>
    simp only [TcpConnection.step] at hs
    split at hs
    · obtain rfl := Option.some.inj hs
      have hb := h.begins (b := .send data) rfl
      exact ⟨hb.locked, hb.settled, hb.left⟩
    · simp at hs
  | handleRead => exact h.handle rfl hs
  | handleWrite => exact h.handle rfl hs
  | handleClose => exact h.handle rfl hs
  | closeEvent =>
    simp only [TcpConnection.step] at hs
    split at hs
    · obtain ⟨t, ht, rfl⟩ := Option.map_eq_some_iff.mp hs
      have hb := h.handle rfl ht
      exact ⟨hb.locked, hb.settled, hb.left⟩
    · simp at hs
  | goOn i results ok =>
    simp only [TcpConnection.step] at hs
    split at hs
    · obtain ⟨t, ht, rfl⟩ := Option.map_eq_some_iff.mp hs
      obtain ⟨a, ha, hadv⟩ := Option.bind_eq_some_iff.mp ht
      have hb := h.advance ha hheed hadv
      exact ⟨hb.locked, hb.settled, hb.left⟩
    · simp at hs

/-! ## What holds of every run -/

theorem sound_of_reach (hr : Reach system Heeded s) : Sound s := by
  refine hr.inv (P := fun s => Sound s) ?_ ?_
  · rintro s rfl
    exact sound_new
  · intro s m s' h hheed hs
    exact h.step hheed hs

/-- **No send is left stranded**, where whoever gives up against a reader was not needed.
`HandleWrite` only tries the mutex, so the condition is on the step at which that fails, and on who
holds the mutex then. The promise is about states with no call in progress: while one is under way
the channel may well lag behind the queue. -/
theorem sends_flushed (s : TcpConnection) (hr : Reach system Heeded s) : NotStranded s := by
  intro hopen hdone
  rcases (sound_of_reach hr).settled with hc | hs | ⟨j, a, ha, hl⟩
  · rw [hopen] at hc
    exact absurd hc Bool.false_ne_true
  · exact hs
  · rw [hdone a (List.mem_of_getElem? ha)] at hl
    exact absurd hl Bool.false_ne_true

theorem system_start : system.start new := rfl

/-- A `Send` of which the socket takes nothing: the scheduler will flush it. -/
theorem sends_flushed_later : ∃ s, (s.calls = [.returned] ∧ s.isWriting = true) ∧
    NotStranded s := by
  obtain ⟨s, hr, hs⟩ := reach_of_runFrom step Heeded new
    (Move.send [1] :: List.replicate 9 (.goOn 0 [.wouldBlock] true))
    (fun s => (s.calls, s.isWriting)) ([.returned], true) system_start (by decide +kernel)
  exact ⟨s, ⟨congrArg Prod.fst hs, congrArg Prod.snd hs⟩, sends_flushed s hr⟩

/-- `HandleRead` holds the mutex when the `HandleWrite` of a `Send` tries it: the bytes stay in the
queue, and the channel is not registered for writing. -/
theorem sends_flushed_ignored : ¬ ∀ s, Reach system (anyStep _ _) s → NotStranded s := by
  intro hall
  obtain ⟨s, hr, hs⟩ := reach_of_runFrom step (anyStep _ _) new
    ([Move.send [1], .handleRead] ++ List.replicate 5 (.goOn 0 [] true) ++ [.goOn 1 [] true] ++
      [.goOn 0 [] true] ++ List.replicate 3 (.goOn 1 [] true))
    (fun s => (s.calls, s.isClosed, s.isWriting, s.writeBuffer.isEmpty))
    ([.returned, .returned], false, false, false) system_start (by decide +kernel)
  simp only [Prod.mk.injEq] at hs
  obtain ⟨hcalls, hopen, hwriting, hqueue⟩ := hs
  have hsettled := hall s hr hopen (by simp [hcalls])
  rw [Settled, hwriting, hqueue] at hsettled
  exact absurd hsettled (by decide)

end TcpConnection

end Maixii.Net
