import Mathlib.Data.List.Forall2
import Maixii.Lib.Run
import Maixii.Net.BufferWriter

/-!
# `Net/SendQueue.lean`: the send queue delivers what it accepted, in order

A `BufferWriter` together with its past: the packets `Append` accepted and the bytes the socket
has taken. `History.Ok` relates the three and is kept by every operation whatever the socket
answers (`History.step_ok`), so it holds after every sequence of calls (`History.run_ok`).

The equation it rests on is `sent ++ pending = everything accepted`: `Append` adds the same
bytes to both sides, `Send` moves bytes from `pending` to `sent`.
-/

set_option autoImplicit false

namespace Maixii.Net

open Maixii.Lib

/-- One call on the queue, with what the socket answers to the writes it makes. -/
inductive WriterOp
  | append (data : Bytes) (index : Nat)
  | appendCopy (data : Bytes) (index : Nat)
  | send (results : List SendResult)

/-- A queue and its past. -/
structure History where
  writer : BufferWriter
  appended : List (Bytes × Nat)
  sent : Bytes

namespace History

/-- `data[index..size)`: what an accepted packet promises to the peer. -/
def body (a : Bytes × Nat) : Bytes := a.1.drop a.2

def new (capacity : Int) : History := ⟨BufferWriter.new capacity, [], []⟩

/-- Remember an `Append` that returned true. -/
def accept (h : History) (a : Bytes × Nat) (r : Bool × BufferWriter) : History :=
  { h with writer := r.2, appended := if r.1 then h.appended ++ [a] else h.appended }

def step (h : History) : WriterOp → History
  | .append data index => h.accept (data, index) (h.writer.append data index)
  | .appendCopy data index => h.accept (data, index) (h.writer.appendCopy data index)
  | .send rs =>
      let (_, w, out) := h.writer.send rs
      { h with writer := w, sent := h.sent ++ out }

def run (h : History) (ops : List WriterOp) : History := ops.foldl step h

/-- A queued packet and the accepted one it came from. -/
def Queued (a : Bytes × Nat) (p : Packet) : Prop := p.data = a.1 ∧ a.2 ≤ p.writeIndex

theorem Queued.rest_length_le {a : Bytes × Nat} {p : Packet} (h : Queued a p) :
    p.rest.length ≤ (body a).length := by
  rw [Packet.rest, body, List.length_drop, List.length_drop, h.1]
  have := h.2
  omega

/-- What waits in the queue is no longer than what was accepted into it. -/
theorem Queued.flatMap_length_le {as : List (Bytes × Nat)} {ps : List Packet}
    (h : List.Forall₂ Queued as ps) :
    (ps.flatMap Packet.rest).length ≤ (as.flatMap body).length := by
  induction h with
  | nil => exact Nat.le_refl _
  | cons hq _ ih =>
    simp only [List.flatMap_cons, List.length_append]
    exact Nat.add_le_add hq.rest_length_le ih

/-- **The queue invariant.** `gone` packets have left the queue and `here` are still in it. -/
structure Ok (h : History) : Prop where
  split : ∃ gone here : List (Bytes × Nat), h.appended = gone ++ here ∧
    List.Forall₂ Queued here h.writer.buffer
  balance : h.sent ++ h.writer.pendingBytes = h.appended.flatMap body
  bounded : (h.writer.buffer.length : Int) ≤ max h.writer.maxQueueLength 0

theorem ok_new (capacity : Int) : (new capacity).Ok where
  split := ⟨[], [], rfl, List.Forall₂.nil⟩
  balance := rfl
  bounded := Int.le_max_right _ _

theorem accept_ok {h : History} (hok : h.Ok) (data : Bytes) (index : Nat) :
    (h.accept (data, index) (h.writer.append data index)).Ok := by
  rcases h.writer.append_cases data index with ⟨he, -⟩ | ⟨hlt, hfull, he⟩
  · rw [he]
    exact ⟨hok.split, hok.balance, hok.bounded⟩
  · rw [he]
    obtain ⟨gone, here, h1, h2⟩ := hok.split
    refine ⟨⟨gone, here ++ [(data, index)], ?_, ?_⟩, ?_, ?_⟩
    · simp [accept, h1]
    · exact List.rel_append h2 (List.Forall₂.cons ⟨rfl, Nat.le_refl _⟩ List.Forall₂.nil)
    · have := hok.balance
      simp only [accept, BufferWriter.pendingBytes, if_true, List.flatMap_append] at this ⊢
      rw [← List.append_assoc, this]
      simp [Packet.rest, body]
    · have hle : (h.writer.buffer.length : Int) < h.writer.maxQueueLength := by
        simpa [BufferWriter.isFull] using hfull
      simp only [accept, List.length_append, List.length_singleton]
      omega

theorem send_ok {h : History} (hok : h.Ok) (rs : List SendResult) : (h.step (.send rs)).Ok := by
  obtain ⟨gone, here, h1, h2⟩ := hok.split
  obtain ⟨done, tail, part, hq, -, hcase⟩ := BufferWriter.sendLoop_spec h.writer.buffer rs
  have hlen := BufferWriter.sendLoop_length h.writer.buffer rs
  have hsent : (h.step (.send rs)).sent =
      h.sent ++ (BufferWriter.sendLoop h.writer.buffer rs).2.2 := rfl
  have hbuf : (h.step (.send rs)).writer.buffer =
      (BufferWriter.sendLoop h.writer.buffer rs).2.1 := rfl
  refine ⟨⟨gone ++ here.take done.length, here.drop done.length, ?_, ?_⟩, ?_, ?_⟩
  · rw [List.append_assoc, List.take_append_drop]
    exact h1
  · -- The accepted packets split where the queue splits; at most the head has moved on.
    rw [hq] at h2
    have h2' := List.forall₂_drop done.length h2
    rw [List.drop_left] at h2'
    rw [hbuf]
    rcases hcase with ⟨ht, -⟩ | ⟨p, p', tl, ht, hb, hdata, hidx, -⟩
    · rw [ht]
      exact h2'
    · rw [ht] at h2'
      rw [hb]
      obtain ⟨a, as, ha, has, heq⟩ := List.forall₂_cons_right_iff.mp h2'
      rw [heq]
      exact List.Forall₂.cons ⟨hdata.trans ha.1, Nat.le_trans ha.2 hidx⟩ has
  · have hbal := BufferWriter.sendLoop_balance h.writer.buffer rs
    rw [hsent, BufferWriter.pendingBytes, hbuf, List.append_assoc, hbal]
    exact hok.balance
  · have := hok.bounded
    show ((BufferWriter.sendLoop h.writer.buffer rs).2.1.length : Int) ≤
      max h.writer.maxQueueLength 0
    omega

/-- Every operation keeps the invariant, whatever the socket answers. -/
theorem step_ok {h : History} (hok : h.Ok) (op : WriterOp) : (h.step op).Ok := by
  cases op with
  | append data index => exact accept_ok hok data index
  | appendCopy data index => exact accept_ok hok data index
  | send rs => exact send_ok hok rs

theorem run_ok {h : History} (hok : h.Ok) (ops : List WriterOp) : (h.run ops).Ok := by
  induction ops generalizing h with
  | nil => exact hok
  | cons op ops ih => exact ih (step_ok hok op)

@[simp] theorem step_maxQueueLength (h : History) (op : WriterOp) :
    (h.step op).writer.maxQueueLength = h.writer.maxQueueLength := by
  cases op with
  | append data index | appendCopy data index =>
    rcases h.writer.append_cases data index with ⟨he, -⟩ | ⟨_, -, he⟩ <;>
      simp [step, accept, BufferWriter.appendCopy, he]
  | send rs => rfl

theorem run_maxQueueLength (h : History) (ops : List WriterOp) :
    (h.run ops).writer.maxQueueLength = h.writer.maxQueueLength := by
  induction ops generalizing h with
  | nil => rfl
  | cons op ops ih => exact (ih (h.step op)).trans (step_maxQueueLength h op)

/-- What the socket took is a prefix of what was accepted. -/
theorem Ok.sent_prefix {h : History} (hok : h.Ok) : h.sent <+: h.appended.flatMap body :=
  hok.balance ▸ List.prefix_append _ _

/-- A packet that is no longer queued has been sent to its last byte. -/
theorem Ok.gone_sent {h : History} (hok : h.Ok) :
    (h.appended.take (h.appended.length - h.writer.buffer.length)).flatMap body <+: h.sent := by
  obtain ⟨gone, here, h1, h2⟩ := hok.split
  have hgone : h.appended.take (h.appended.length - h.writer.buffer.length) = gone := by
    rw [h1, List.length_append, h2.length_eq, Nat.add_sub_cancel, List.take_left]
  have hbal := hok.balance
  have hle := congrArg List.length hbal
  have hq : h.writer.pendingBytes.length ≤ (here.flatMap body).length :=
    Queued.flatMap_length_le h2
  rw [h1, List.flatMap_append] at hbal hle
  simp only [List.length_append] at hle
  rw [hgone]
  exact List.prefix_of_prefix_length_le (List.prefix_append _ _)
    (hbal ▸ List.prefix_append h.sent _) (by omega)

end History

/-- **The TCP send queue never corrupts the stream.** After any sequence of `Append` and `Send`
calls, whatever every socket write answers: the bytes the socket has taken are a prefix of the
accepted packets' bytes in the order they were accepted; the packets that left the queue are
among these bytes in full; and the queue is within its bound. -/
theorem sendQueue_in_order (capacity : Int) (ops : List WriterOp) :
    let h := (History.new capacity).run ops
    h.sent <+: h.appended.flatMap History.body ∧
    (h.appended.take (h.appended.length - h.writer.buffer.length)).flatMap History.body <+:
      h.sent ∧
    (h.writer.buffer.length : Int) ≤ max capacity 0 := by
  have hok := History.run_ok (History.ok_new capacity) ops
  refine ⟨hok.sent_prefix, hok.gone_sent, ?_⟩
  have := hok.bounded
  rwa [History.run_maxQueueLength] at this

end Maixii.Net
