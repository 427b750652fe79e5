import Mathlib.Data.Nat.Prime.Basic
import Maixii.Stabilization.RingRuns

/-!
# `Stabilization/RingWrap.lean`: when the counters go round

A ring whose capacity divides 2³⁰ is a queue in every run (`isFifo_of_dvd`). Any other is not: one of
2³¹ elements takes them all at once and returns a negative number (`not_isFifo_half`), and one whose
capacity does not divide 2³² puts, after 2³² elements, a new one over the oldest
(`not_isFifo_of_not_dvd`).
-/

set_option autoImplicit false

namespace Maixii.Stabilization

open Maixii.Lib

variable {elem_size elem_cnt : UInt32}

/-! ## A power of two -/

/-- A small ring counts nothing that does not fit where it is counted. -/
theorem RingBuffer.Holds.safe {rb : RingBuffer} {q : Fifo} (h : rb.Holds q)
    (hdvd : rb.cap ∣ 2 ^ 30) (c : RbCall) : rb.Safe c := by
  have hcap : rb.cap ≤ 2 ^ 30 := Nat.le_of_dvd (by decide) hdvd
  have hround : rb.cap ∣ 2 ^ 32 := Nat.dvd_trans hdvd (by decide)
  have hle := h.length_le
  have hvalid : rb.rbGValidnum.toNat = q.length := h.validnum
  have hempty : rb.rbGEmptynum.toNat = rb.cap - q.length := h.emptynum
  cases c with
  | rbIn buf n => exact Or.inr ⟨by omega, Or.inl hround⟩
  | rbInF buf n =>
    by_cases hrefused : rb.Refused n
    · exact Or.inl hrefused
    · unfold RingBuffer.Refused at hrefused
      exact Or.inr ⟨by omega, by omega, Or.inl hround⟩
  | rbOut null n => exact Or.inr (by omega)
  | rbOutFake => trivial
  | rbReset => trivial

theorem isFifo_of_dvd (hlt : elem_size.toNat * elem_cnt.toNat < 2 ^ 32)
    (hdvd : elem_cnt.toNat ∣ 2 ^ 30) : IsFifo elem_size elem_cnt := by
  intro rb hrb calls hwhole
  obtain ⟨hholds, hcap, hsize⟩ := ringBufferCreate_holds hlt hrb
  have hguard : Guarded RingBuffer.call (fun rb c => rb.Safe c ∧ c.Whole rb.size) rb calls := by
    refine guarded_of_inv (p := fun c => c.Whole elem_size.toNat)
      (P := fun rb => (∃ q, RingBuffer.Holds rb q) ∧ rb.cap = elem_cnt.toNat ∧
        rb.size = elem_size.toNat) ⟨⟨[], hholds⟩, hcap, hsize⟩ ?_ hwhole
    intro rb c hP hc
    obtain ⟨⟨q, hq⟩, hcap, hsize⟩ := hP
    have hsafe := hq.safe (by rw [hcap]; exact hdvd) c
    rw [← hsize] at hc
    obtain ⟨hcap', hsize'⟩ := RingBuffer.shape_call rb c
    exact ⟨⟨hsafe, hc⟩, ⟨_, (hq.call hsafe hc).2⟩, hcap'.trans hcap, hsize'.trans hsize⟩
  exact fifo_of_safe hlt hrb hguard

theorem ringBufferCreate_some (hsize : 0 < elem_size.toNat) (hcap : 0 < elem_cnt.toNat) :
    ∃ rb, ringBufferCreate elem_size elem_cnt = some rb := by
  refine ⟨_, if_neg ?_⟩
  rintro (rfl | rfl)
  · exact absurd hsize (Nat.lt_irrefl 0)
  · exact absurd hcap (Nat.lt_irrefl 0)

/-! ## Half of the numbers -/

/-- A ring of 2³¹ elements returns a negative number when it is filled at once. -/
theorem not_isFifo_half (hlt : elem_size.toNat * elem_cnt.toNat < 2 ^ 32)
    (hsize : 0 < elem_size.toNat) (hcap : elem_cnt.toNat = 2 ^ 31) :
    ¬ IsFifo elem_size elem_cnt := by
  intro hfifo
  obtain ⟨rb, hrb⟩ := ringBufferCreate_some hsize (show 0 < elem_cnt.toNat by omega)
  obtain ⟨hholds, hcap', hsize'⟩ := ringBufferCreate_holds hlt hrb
  have hsame := hfifo rb hrb [.rbIn (List.replicate (elem_cnt.toNat * elem_size.toNat) 0) elem_cnt]
    (by
      intro c hc
      rw [List.mem_singleton.mp hc]
      exact Nat.le_of_eq List.length_replicate.symm)
  have hret := congrArg Seen.ret (List.cons.inj hsame.1).1
  have hmoved : (minOf elem_cnt (rb.elem_cnt - (rb.rb_in - rb.rb_out))).toNat = 2 ^ 31 := by
    rw [toNat_minOf, hholds.emptynum, hcap', hcap]
    rfl
  have hreal : (rb.rbIn (List.replicate (elem_cnt.toNat * elem_size.toNat) 0) elem_cnt).1 =
      -2 ^ 31 := by
    unfold RingBuffer.rbIn
    rw [if_neg (fun hc => ?_)]
    · dsimp only
      unfold asInt
      rw [if_neg (by omega), hmoved]
      rfl
    · have := RingBuffer.refused_iff.mp hc
      omega
  have hqueue : (Fifo.call elem_size.toNat elem_cnt.toNat []
      (.rbIn (List.replicate (elem_cnt.toNat * elem_size.toNat) 0) elem_cnt)).1.ret = 2 ^ 31 := by
    unfold Fifo.call
    dsimp only
    rw [if_neg (by omega), hcap]
    rfl
  rw [hqueue] at hret
  exact absurd (hreal.symm.trans hret) (by decide)

/-! ## Going round -/

/-- The ring after some calls, and the queue: so many elements have gone through both. -/
structure Through (elem_size elem_cnt : UInt32) (rb : RingBuffer) (q : Fifo) (k : Nat) : Prop where
  holds : rb.Holds q
  cap : rb.cap = elem_cnt.toNat
  size : rb.size = elem_size.toNat
  out : rb.rb_out.toNat = k

section

variable {rb : RingBuffer} {q : Fifo} {e : Bytes} {k : Nat}

theorem through_create (hlt : elem_size.toNat * elem_cnt.toNat < 2 ^ 32)
    (h : ringBufferCreate elem_size elem_cnt = some rb) :
    Through elem_size elem_cnt rb [] 0 := by
  obtain ⟨hholds, hcap, hsize⟩ := ringBufferCreate_holds hlt h
  refine ⟨hholds, hcap, hsize, ?_⟩
  unfold ringBufferCreate at h
  split at h
  · exact absurd h (by simp)
  · obtain rfl := Option.some.inj h
    rfl

/-- One element, in a buffer of its own. -/
theorem elements_one {size : Nat} (he : e.length = size) : elements size e 1 = [e] := by
  rw [elements, List.range_one, List.map_singleton, elemAt, Nat.zero_mul, ← he, readAt_all]

theorem whole_one {size : Nat} (he : e.length = size) : (RbCall.rbIn e 1).Whole size := by
  change (1 : UInt32).toNat * size ≤ e.length
  rw [he]
  exact Nat.le_of_eq (Nat.one_mul size)

/-- An element goes into a queue with room for it. -/
theorem fifo_push (he : e.length = elem_size.toNat) (hroom : q.length < elem_cnt.toNat) :
    (Fifo.call elem_size.toNat elem_cnt.toNat q (.rbIn e 1)).2 = q ++ [e] := by
  have hone : (1 : UInt32).toNat = 1 := rfl
  unfold Fifo.call
  dsimp only
  rw [if_neg (by omega), hone, Nat.min_eq_left (by omega), elements_one he]

/-- An element goes in. -/
theorem Through.push (h : Through elem_size elem_cnt rb q k) (he : e.length = elem_size.toNat)
    (hroom : q.length < elem_cnt.toNat) (hlow : k + q.length + 1 ≤ 2 ^ 32) :
    Through elem_size elem_cnt (rb.call (.rbIn e 1)).2 (q ++ [e]) k ∧
      (Fifo.call elem_size.toNat elem_cnt.toNat q (.rbIn e 1)).2 = q ++ [e] := by
  have hone : (1 : UInt32).toNat = 1 := rfl
  have hvalid : rb.rbGValidnum.toNat = q.length := h.holds.validnum
  have hempty : rb.rbGEmptynum.toNat = rb.cap - q.length := h.holds.emptynum
  have hcap := h.cap
  have hout := h.out
  have hsafe : rb.Safe (.rbIn e 1) := Or.inr ⟨by omega, Or.inr (by omega)⟩
  have hwhole : RbCall.Whole rb.size (.rbIn e 1) := by
    rw [h.size]
    exact whole_one he
  have hqueue := fifo_push he hroom
  have hnext := (h.holds.call hsafe hwhole).2
  rw [h.cap, h.size, hqueue] at hnext
  obtain ⟨hcap', hsize'⟩ := RingBuffer.shape_call rb (.rbIn e 1)
  refine ⟨⟨hnext, hcap'.trans h.cap, hsize'.trans h.size, ?_⟩, hqueue⟩
  have hkeeps : (rb.rbIn e 1).2.rb_out = rb.rb_out := by
    unfold RingBuffer.rbIn
    split <;> rfl
  exact (congrArg UInt32.toNat hkeeps).trans h.out

/-- The oldest element goes out. -/
theorem Through.pop (h : Through elem_size elem_cnt rb (e :: q) k) (hlow : k + 1 < 2 ^ 32) :
    Through elem_size elem_cnt (rb.call (.rbOut true 1)).2 q (k + 1) ∧
      (Fifo.call elem_size.toNat elem_cnt.toNat (e :: q) (.rbOut true 1)).2 = q := by
  have hone : (1 : UInt32).toNat = 1 := rfl
  have hcap := h.cap
  have hle := h.holds.length_le
  rw [List.length_cons] at hle
  have hsafe : rb.Safe (.rbOut true 1) := Or.inr (by omega)
  have hqueue : (Fifo.call elem_size.toNat elem_cnt.toNat (e :: q) (.rbOut true 1)).2 = q := by
    unfold Fifo.call
    dsimp only
    rw [if_neg (by omega), hone, List.length_cons, Nat.min_eq_left (by omega)]
    rfl
  have hnext := (h.holds.call hsafe trivial).2
  rw [h.cap, h.size, hqueue] at hnext
  obtain ⟨hcap', hsize'⟩ := RingBuffer.shape_call rb (.rbOut true 1)
  refine ⟨⟨hnext, hcap'.trans h.cap, hsize'.trans h.size, ?_⟩, hqueue⟩
  have hmoved : (minOf 1 (rb.rb_in - rb.rb_out)).toNat = 1 := by
    rw [toNat_minOf, h.holds.validnum, List.length_cons]
    omega
  have hcond : ¬ ((1 : UInt32) = 0 ∨ rb.elem_cnt < 1) := by
    intro hc
    have := RingBuffer.refused_iff.mp hc
    omega
  have hcounts : (rb.rbOut true 1).2.rb_out = rb.rb_out + minOf 1 (rb.rb_in - rb.rb_out) := by
    unfold RingBuffer.rbOut
    rw [if_neg hcond]
  refine (congrArg UInt32.toNat hcounts).trans ?_
  rw [UInt32.toNat_add, hmoved, h.out, Nat.mod_eq_of_lt hlow]

/-- Elements go in and out again, one at a time. -/
def spin (e : Bytes) : Nat → List RbCall
  | 0 => []
  | k + 1 => spin e k ++ [.rbIn e 1, .rbOut true 1]

theorem whole_spin {size : Nat} (he : e.length = size) : ∀ c ∈ spin e k, c.Whole size := by
  induction k with
  | zero =>
    intro c hc
    simp [spin] at hc
  | succ k ih =>
    intro c hc
    rw [spin, List.mem_append] at hc
    rcases hc with hc | hc
    · exact ih c hc
    · rcases List.mem_pair.mp hc with rfl | rfl
      · exact whole_one he
      · trivial

theorem Through.spin (h : Through elem_size elem_cnt rb [] 0) (he : e.length = elem_size.toNat)
    (hcap : 0 < elem_cnt.toNat) (hlow : k < 2 ^ 32) :
    Through elem_size elem_cnt (answers RingBuffer.call rb (spin e k)).2 [] k ∧
      (answers (Fifo.call elem_size.toNat elem_cnt.toNat) [] (spin e k)).2 = [] := by
  induction k with
  | zero => exact ⟨h, rfl⟩
  | succ k ih =>
    obtain ⟨hthrough, hqueue⟩ := ih (by omega)
    obtain ⟨hin, hqin⟩ := hthrough.push he hcap (by rw [List.length_nil]; omega)
    obtain ⟨hout, hqout⟩ := hin.pop hlow
    unfold Stabilization.spin
    rw [answers_append, answers_append, hqueue]
    refine ⟨hout, ?_⟩
    change (Fifo.call _ _ (Fifo.call _ _ [] (.rbIn e 1)).2 (.rbOut true 1)).2 = []
    rw [hqin]
    exact hqout

theorem Through.fill {m : Nat} (h : Through elem_size elem_cnt rb q k)
    (he : e.length = elem_size.toNat) (hroom : q.length + m ≤ elem_cnt.toNat)
    (hlow : k + q.length + m ≤ 2 ^ 32) :
    Through elem_size elem_cnt (answers RingBuffer.call rb (List.replicate m (.rbIn e 1))).2
        (q ++ List.replicate m e) k ∧
      (answers (Fifo.call elem_size.toNat elem_cnt.toNat) q (List.replicate m (.rbIn e 1))).2 =
        q ++ List.replicate m e := by
  induction m generalizing rb q with
  | zero =>
    rw [List.replicate_zero, List.replicate_zero, List.append_nil]
    exact ⟨h, rfl⟩
  | succ m ih =>
    obtain ⟨hin, hqin⟩ := h.push he (by omega) (by omega)
    have hlen : (q ++ [e]).length = q.length + 1 := List.length_append
    obtain ⟨hrest, hqrest⟩ := ih hin (by omega) (by omega)
    rw [List.append_assoc, List.singleton_append, ← List.replicate_succ] at hrest hqrest
    refine ⟨hrest, ?_⟩
    rw [List.replicate_succ, answers, hqin]
    exact hqrest

/-- **Over the oldest.** The ring holds so many elements that the next number is zero again, and the
oldest is in the first slot: the next element is put there. -/
theorem Through.over (h : Through elem_size elem_cnt rb q k) (he : e.length = elem_size.toNat)
    (hroom : q.length < elem_cnt.toNat) (hend : k + q.length = 2 ^ 32)
    (hfirst : k % elem_cnt.toNat = 0) (hk : k < 2 ^ 32) :
    (rb.call (.rbIn e 1)).2.rbOutFake.2 = e := by
  have hone : (1 : UInt32).toNat = 1 := rfl
  have hcap := h.cap
  have hin : rb.rb_in.toNat = 0 := by
    rw [h.holds.count, h.out, hend]
    rfl
  have hmoved : minOf 1 (rb.elem_cnt - (rb.rb_in - rb.rb_out)) = 1 := by
    refine UInt32.toNat_inj.mp ?_
    rw [toNat_minOf, h.holds.emptynum, hone]
    omega
  have hcond : ¬ ((1 : UInt32) = 0 ∨ rb.elem_cnt < 1) := by
    intro hc
    have := RingBuffer.refused_iff.mp hc
    omega
  have hnext : (rb.call (.rbIn e 1)).2 = rb.copyIn e 1 := by
    change (rb.rbIn e 1).2 = _
    unfold RingBuffer.rbIn
    rw [if_neg hcond, hmoved]
  obtain ⟨-, hnew, -⟩ := RingBuffer.slots_copyIn h.holds.ok e 1 (by omega)
    (by rw [hone, Nat.one_mul, he, h.size])
  have hslot := Option.some.inj (hnew 0 (by decide))
  rw [hin, Nat.zero_mod, Nat.zero_mod, RingBuffer.size_copyIn, h.size, elemAt, elemAt,
    Nat.zero_mul, ← he, readAt_all] at hslot
  have hmod : (rb.rb_out % rb.elem_cnt).toNat = 0 := by
    refine (UInt32.toNat_mod rb.rb_out rb.elem_cnt).trans ?_
    rw [h.out]
    change k % rb.cap = 0
    rw [hcap]
    exact hfirst
  have hplace : (rb.rb_out % rb.elem_cnt * rb.elem_size).toNat = 0 := by
    rw [h.holds.ok.mul_lt (by omega), hmod, Nat.zero_mul]
  have hsome : minOf 1 ((rb.copyIn e 1).rb_in - (rb.copyIn e 1).rb_out) ≠ 0 := by
    have hvalid : ((rb.copyIn e 1).rb_in - (rb.copyIn e 1).rb_out).toNat = 2 ^ 32 - k + 1 := by
      change (rb.rb_in + 1 - rb.rb_out).toNat = _
      rw [UInt32.toNat_sub, UInt32.toNat_add, hin, h.out, hone]
      have hbound := UInt32.toNat_lt elem_cnt
      omega
    intro hzero
    have hnat := congrArg UInt32.toNat hzero
    rw [toNat_minOf, hvalid, hone] at hnat
    change min 1 _ = 0 at hnat
    omega
  rw [hnext]
  unfold RingBuffer.rbOutFake
  dsimp only
  rw [if_neg hsome]
  change readAt (rb.copyIn e 1).rb_buf (rb.rb_out % rb.elem_cnt * rb.elem_size).toNat rb.size = e
  rw [hplace, h.size, ← he]
  exact hslot

/-- There is a run after which `a` is the oldest of `m + 1` elements, each other is `b`, and `k` have
gone through before. -/
theorem Through.upTo {a b : Bytes} {m : Nat} (h : Through elem_size elem_cnt rb [] 0)
    (ha : a.length = elem_size.toNat) (hb : b.length = elem_size.toNat)
    (hroom : m < elem_cnt.toNat) (hlow : k + m + 1 ≤ 2 ^ 32) :
    ∃ calls, (∀ c ∈ calls, c.Whole elem_size.toNat) ∧
      Through elem_size elem_cnt (answers RingBuffer.call rb calls).2 (a :: List.replicate m b) k ∧
      (answers (Fifo.call elem_size.toNat elem_cnt.toNat) [] calls).2 =
        a :: List.replicate m b := by
  obtain ⟨hspun, hqspun⟩ := h.spin ha (Nat.zero_lt_of_lt hroom) (k := k) (by omega)
  obtain ⟨hold, hqold⟩ :=
    hspun.push ha (Nat.zero_lt_of_lt hroom) (by rw [List.length_nil]; omega)
  have hlen : ([] ++ [a]).length = 1 := rfl
  obtain ⟨hfull, hqfull⟩ := hold.fill (m := m) hb (by omega) (by omega)
  refine ⟨Stabilization.spin a k ++ .rbIn a 1 :: List.replicate m (.rbIn b 1), ?_, ?_, ?_⟩
  · intro c hc
    rcases List.mem_append.mp hc with hc | hc
    · exact whole_spin ha c hc
    · rcases List.mem_cons.mp hc with rfl | hc
      · exact whole_one ha
      · rw [(List.mem_replicate.mp hc).2]
        exact whole_one hb
  · rw [answers_append, answers]
    exact hfull
  · rw [answers_append, hqspun, answers, hqold]
    exact hqfull

/-- If what comes out is not the oldest element, the ring has not answered as a queue. -/
theorem not_same_of_over {a b : Bytes} {calls : List RbCall}
    (hq : (answers (Fifo.call elem_size.toNat elem_cnt.toNat) [] calls).2 = a :: q)
    (hb : b.length = elem_size.toNat) (hroom : (a :: q).length < elem_cnt.toNat)
    (hover : ((answers RingBuffer.call rb calls).2.call (.rbIn b 1)).2.rbOutFake.2 = b)
    (hab : a ≠ b) :
    (answers RingBuffer.call rb (calls ++ [.rbIn b 1, .rbOutFake])).1 ≠
      (answers (Fifo.call elem_size.toNat elem_cnt.toNat) []
        (calls ++ [.rbIn b 1, .rbOutFake])).1 := by
  intro hsame
  have hend := answers_append_inj hsame
  rw [hq, answers, answers, answers, answers, fifo_push hb hroom] at hend
  have hlast := congrArg Seen.out (List.cons.inj (List.cons.inj hend).2).1
  exact hab (((List.append_nil a).symm.trans hlast.symm).trans hover)

/-- **A ring whose capacity does not divide 2³² loses an element** in some run. -/
theorem not_isFifo_of_not_dvd (hlt : elem_size.toNat * elem_cnt.toNat < 2 ^ 32)
    (hsize : 0 < elem_size.toNat) (hcap : 0 < elem_cnt.toNat)
    (hndvd : ¬ elem_cnt.toNat ∣ 2 ^ 32) : ¬ IsFifo elem_size elem_cnt := by
  intro hfifo
  obtain ⟨rb, hrb⟩ := ringBufferCreate_some hsize hcap
  have hstart := through_create hlt hrb
  -- The last number in the first slot, before the numbers start again.
  obtain ⟨r, hr⟩ : ∃ r, r = 2 ^ 32 % elem_cnt.toNat := ⟨_, rfl⟩
  have hrpos : 0 < r := by
    rw [hr]
    exact Nat.pos_of_ne_zero (fun h0 => hndvd (Nat.dvd_of_mod_eq_zero h0))
  have hrlt : r < elem_cnt.toNat := by
    rw [hr]
    exact Nat.mod_lt _ hcap
  have hle : r ≤ 2 ^ 32 := by
    rw [hr]
    exact Nat.mod_le _ _
  have hfirst : (2 ^ 32 - r) % elem_cnt.toNat = 0 := by
    rw [hr, ← Nat.mul_div_self_eq_mod_sub_self, Nat.mul_mod_right]
  obtain ⟨a, ha⟩ : ∃ a : Bytes, a = List.replicate elem_size.toNat 1 := ⟨_, rfl⟩
  obtain ⟨b, hb⟩ : ∃ b : Bytes, b = List.replicate elem_size.toNat 2 := ⟨_, rfl⟩
  have hlena : a.length = elem_size.toNat := by rw [ha, List.length_replicate]
  have hlenb : b.length = elem_size.toNat := by rw [hb, List.length_replicate]
  have hab : a ≠ b := by
    rw [ha, hb]
    intro hab
    have := (List.replicate_inj.mp hab).2.resolve_left (Nat.ne_of_gt hsize)
    exact absurd this (by decide)
  obtain ⟨calls, hwhole, hfull, hq⟩ :=
    hstart.upTo (m := r - 1) (k := 2 ^ 32 - r) hlena hlenb (by omega) (by omega)
  have hlen : (a :: List.replicate (r - 1) b).length = r := by
    rw [List.length_cons, List.length_replicate]
    omega
  have hroom : (a :: List.replicate (r - 1) b).length < elem_cnt.toNat := by rwa [hlen]
  have hover := hfull.over hlenb hroom (by rw [hlen]; omega) hfirst (by omega)
  refine not_same_of_over hq hlenb hroom hover hab (hfifo rb hrb _ ?_).1
  intro c hc
  rcases List.mem_append.mp hc with hc | hc
  · exact hwhole c hc
  · rcases List.mem_pair.mp hc with rfl | rfl
    · exact whole_one hlenb
    · trivial

end

/-! ## Which rings are queues -/

/-- The capacities that divide 2³² are powers of two, and all but 2³¹ divide 2³⁰. -/
theorem dvd_or_half {n : Nat} (h : n ∣ 2 ^ 32) (hn : n < 2 ^ 32) : n ∣ 2 ^ 30 ∨ n = 2 ^ 31 := by
  obtain ⟨k, hk, rfl⟩ := (Nat.dvd_prime_pow Nat.prime_two).mp h
  by_cases hsmall : k ≤ 30
  · exact Or.inl (Nat.pow_dvd_pow 2 hsmall)
  · have hk' : k < 32 := (Nat.pow_lt_pow_iff_right (by decide)).mp hn
    have : k = 31 := by omega
    exact Or.inr (by rw [this])

/-- **A ring is a queue if and only if its capacity is a power of two up to 2³⁰**; any ring is one
in a run of safe calls, and never holds more elements than there is room for. The counters have 32
bits and are taken modulo the capacity, so that another capacity fails only when they have gone
round: the first part is about all runs of a ring, and the second about any ring for as long as its
calls are safe. -/
theorem ring_is_fifo (hlt : elem_size.toNat * elem_cnt.toNat < 2 ^ 32)
    (hsize : 1 ≤ elem_size.toNat) (hcap : 1 ≤ elem_cnt.toNat) :
    (IsFifo elem_size elem_cnt ↔ elem_cnt.toNat ∣ 2 ^ 30) ∧
      ∀ rb, ringBufferCreate elem_size elem_cnt = some rb → ∀ calls : List RbCall,
        Guarded RingBuffer.call (fun rb c => rb.Safe c ∧ c.Whole rb.size) rb calls →
          (answers RingBuffer.call rb calls).1 =
              (answers (Fifo.call elem_size.toNat elem_cnt.toNat) [] calls).1 ∧
            (answers RingBuffer.call rb calls).2.rbGValidnum.toNat ≤ elem_cnt.toNat := by
  refine ⟨⟨fun hfifo => ?_, isFifo_of_dvd hlt⟩, fun rb hrb calls => fifo_of_safe hlt hrb⟩
  by_cases hdvd : elem_cnt.toNat ∣ 2 ^ 32
  · refine (dvd_or_half hdvd elem_cnt.toNat_lt).resolve_right (fun hhalf => ?_)
    exact not_isFifo_half hlt hsize hhalf hfifo
  · exact absurd hfifo (not_isFifo_of_not_dvd hlt hsize hcap hdvd)

/-- A ring of eight elements. -/
theorem ring_is_fifo_eight :
    (IsFifo 4 8 ↔ (8 : UInt32).toNat ∣ 2 ^ 30) ∧
      ∀ rb, ringBufferCreate 4 8 = some rb → ∀ calls : List RbCall,
        Guarded RingBuffer.call (fun rb c => rb.Safe c ∧ c.Whole rb.size) rb calls →
          (answers RingBuffer.call rb calls).1 = (answers (Fifo.call 4 8) [] calls).1 ∧
            (answers RingBuffer.call rb calls).2.rbGValidnum.toNat ≤ 8 :=
  ring_is_fifo (by decide) (by decide) (by decide)

/-- **Three elements of one byte are too many**: 2³² is not a multiple of three. -/
theorem ring_is_no_fifo : ¬ IsFifo 1 3 :=
  not_isFifo_of_not_dvd (by decide) (by decide) (by decide) (by decide)

end Maixii.Stabilization
