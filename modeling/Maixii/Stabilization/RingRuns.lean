import Maixii.Stabilization.RingBuffer

/-!
# `Stabilization/RingRuns.lean`: the ring is a queue as long as its counters do not go round

`Holds` relates the ring to a queue: from the slot of `rb_out` on there are the elements of the queue
(`Window` of `Lib/Ring.lean`), as many as the counters are apart, and the numbers of the elements
have not started again, or it does not matter that they do. A call that starts them again is not
`Safe` unless the capacity divides 2³².
-/

set_option autoImplicit false

namespace Maixii.Stabilization

open Maixii.Lib

/-! ## Words -/

section

variable {a b : UInt32}

theorem toNat_minOf : (minOf a b).toNat = min a.toNat b.toNat := by
  unfold minOf
  split
  · rename_i h
    rw [UInt32.lt_iff_toNat_lt] at h
    omega
  · rename_i h
    rw [UInt32.lt_iff_toNat_lt] at h
    omega

theorem toNat_mul_of_lt (h : a.toNat * b.toNat < 2 ^ 32) : (a * b).toNat = a.toNat * b.toNat := by
  rw [UInt32.toNat_mul, Nat.mod_eq_of_lt h]

theorem toNat_sub_of_le' (h : b.toNat ≤ a.toNat) : (a - b).toNat = a.toNat - b.toNat :=
  UInt32.toNat_sub_of_le a b (UInt32.le_iff_toNat_le.mpr h)

theorem asInt_eq (h : a.toNat < 2 ^ 31) : asInt a = a.toNat := if_pos h

end

/-! ## The copies -/

namespace RingBuffer

variable {rb : RingBuffer} {buf : Bytes} {cp : UInt32}

/-- The capacity. -/
def cap (rb : RingBuffer) : Nat := rb.elem_cnt.toNat

def size (rb : RingBuffer) : Nat := rb.elem_size.toNat

/-- What is in the slots. -/
def slots (rb : RingBuffer) (k : Nat) : Option Bytes := some (elemAt rb.size rb.rb_buf k)

/-- The memory of a ring. -/
structure Ok (rb : RingBuffer) : Prop where
  cap_pos : 0 < rb.cap
  size_pos : 0 < rb.size
  lt : rb.cap * rb.size < 2 ^ 32
  length : rb.rb_buf.length = rb.cap * rb.size

theorem Ok.mul_lt (h : rb.Ok) {n : UInt32} (hn : n.toNat ≤ rb.cap) :
    (n * rb.elem_size).toNat = n.toNat * rb.size := by
  refine toNat_mul_of_lt (Nat.lt_of_le_of_lt ?_ h.lt)
  exact Nat.mul_le_mul_right _ hn

/-- How many of `cp` elements go up to the end of the ring from slot `k`. -/
theorem toNat_step (h : rb.Ok) (cp k : UInt32) :
    (minOf cp (rb.elem_cnt - k % rb.elem_cnt)).toNat =
      min cp.toNat (rb.cap - k.toNat % rb.cap) := by
  have hlt : k.toNat % rb.cap < rb.cap := Nat.mod_lt _ h.cap_pos
  have hmod : (k % rb.elem_cnt).toNat = k.toNat % rb.cap := UInt32.toNat_mod k rb.elem_cnt
  rw [toNat_minOf, toNat_sub_of_le' (by rw [hmod]; exact Nat.le_of_lt hlt), hmod]
  rfl

@[simp] theorem cap_copyIn : (rb.copyIn buf cp).cap = rb.cap := rfl
@[simp] theorem size_copyIn : (rb.copyIn buf cp).size = rb.size := rfl
@[simp] theorem rb_out_copyIn : (rb.copyIn buf cp).rb_out = rb.rb_out := rfl

/-- The two copies, as patches of the memory. -/
theorem copyIn_buf (h : rb.Ok) (buf : Bytes) (hcp : cp.toNat ≤ rb.cap) {f n : Nat}
    (hf : f = rb.rb_in.toNat % rb.cap) (hn : n = min cp.toNat (rb.cap - f)) :
    (rb.copyIn buf cp).rb_buf =
      patch (patch rb.rb_buf (f * rb.size) (readAt buf (0 * rb.size) (n * rb.size)))
        (0 * rb.size) (readAt buf (n * rb.size) ((cp.toNat - n) * rb.size)) := by
  have hstep := toNat_step h cp rb.rb_in
  rw [← hf, ← hn] at hstep
  have hlt : rb.rb_in.toNat % rb.cap < rb.cap := Nat.mod_lt _ h.cap_pos
  have hmod : (rb.rb_in % rb.elem_cnt).toNat = f := by
    rw [hf]
    exact UInt32.toNat_mod _ _
  have hrest : (cp - minOf cp (rb.elem_cnt - rb.rb_in % rb.elem_cnt)).toNat = cp.toNat - n := by
    rw [toNat_sub_of_le' (by omega), hstep]
  unfold copyIn
  dsimp only
  rw [h.mul_lt (by omega), h.mul_lt (by omega), h.mul_lt (by omega), hstep, hrest, hmod,
    Nat.zero_mul]

/-- **What the copies put into the ring**: the elements, from the slot of `rb_in` on. -/
theorem slots_copyIn (h : rb.Ok) (buf : Bytes) (cp : UInt32) (hcp : cp.toNat ≤ rb.cap)
    (hbuf : cp.toNat * rb.size ≤ buf.length) :
    (rb.copyIn buf cp).Ok ∧
      (∀ i < cp.toNat, (rb.copyIn buf cp).slots ((rb.rb_in.toNat % rb.cap + i) % rb.cap) =
        some (elemAt rb.size buf i)) ∧
      ∀ k < rb.cap, (∀ i < cp.toNat, k ≠ (rb.rb_in.toNat % rb.cap + i) % rb.cap) →
        (rb.copyIn buf cp).slots k = rb.slots k := by
  obtain ⟨f, hf⟩ : ∃ f, f = rb.rb_in.toNat % rb.cap := ⟨_, rfl⟩
  obtain ⟨n, hn⟩ : ∃ n, n = min cp.toNat (rb.cap - f) := ⟨_, rfl⟩
  have hlt : f < rb.cap := by
    rw [hf]
    exact Nat.mod_lt _ h.cap_pos
  have hnew := copyIn_buf h buf hcp hf hn
  -- The lengths of the two parts.
  have hpart : ∀ p m, p + m ≤ cp.toNat →
      (readAt buf (p * rb.size) (m * rb.size)).length = m * rb.size := by
    intro p m hle
    have hmul := Nat.mul_le_mul_right rb.size hle
    rw [Nat.add_mul] at hmul
    rw [readAt, List.length_take, List.length_drop]
    omega
  have hfirst := hpart 0 n (by omega)
  have hsecond := hpart n (cp.toNat - n) (by omega)
  have hfit : ∀ m, m ≤ rb.cap → m * rb.size ≤ rb.rb_buf.length := by
    intro m hm
    rw [h.length]
    exact Nat.mul_le_mul_right _ hm
  have hfit1 := hfit (f + n) (by omega)
  have hlen1 : (patch rb.rb_buf (f * rb.size)
      (readAt buf (0 * rb.size) (n * rb.size))).length = rb.rb_buf.length := by
    refine length_patch ?_
    rw [hfirst, ← Nat.add_mul]
    exact hfit1
  have hfit2 : (0 + (cp.toNat - n)) * rb.size ≤ (patch rb.rb_buf (f * rb.size)
      (readAt buf (0 * rb.size) (n * rb.size))).length := by
    rw [hlen1]
    exact hfit _ (by omega)
  have hlen2 : (rb.copyIn buf cp).rb_buf.length = rb.rb_buf.length := by
    rw [hnew, length_patch, hlen1]
    rw [hsecond, ← Nat.add_mul]
    exact hfit2
  refine ⟨⟨h.cap_pos, h.size_pos, h.lt, hlen2.trans h.length⟩, ?_, ?_⟩
  · intro i hi
    rw [← hf]
    refine congrArg some ?_
    rw [hnew, size_copyIn]
    by_cases hround : f + i < rb.cap
    · -- Up to the end: not in the second part.
      rw [Nat.mod_eq_of_lt hround,
        (elemAt_patch hsecond hfit2).2 (Or.inr (by omega)),
        (elemAt_patch hfirst hfit1).1 (by omega) (by omega), Nat.add_sub_cancel_left,
        elemAt_readAt (by omega), Nat.zero_add]
    · have hslot : (f + i) % rb.cap = i - n := by
        rw [Nat.mod_eq_sub_mod (Nat.le_of_not_lt hround), Nat.mod_eq_of_lt (by omega)]
        omega
      rw [hslot, (elemAt_patch hsecond hfit2).1 (Nat.zero_le _) (by omega), Nat.sub_zero,
        elemAt_readAt (by omega)]
      congr 1
      omega
  · intro k hk hfree
    rw [← hf] at hfree
    refine congrArg some ?_
    rw [hnew, size_copyIn]
    have hbehind : 0 + (cp.toNat - n) ≤ k := by
      refine Nat.le_of_not_lt (fun hin => ?_)
      refine hfree (n + k) (by omega) ?_
      rw [← Nat.add_assoc, show f + n = rb.cap from by omega, Nat.add_mod_left,
        Nat.mod_eq_of_lt hk]
    have hout : k < f ∨ f + n ≤ k := by
      refine Decidable.byContradiction (fun hin => ?_)
      refine hfree (k - f) (by omega) ?_
      rw [show f + (k - f) = k from by omega, Nat.mod_eq_of_lt hk]
    exact ((elemAt_patch hsecond hfit2).2 (Or.inr hbehind)).trans
      ((elemAt_patch hfirst hfit1).2 hout)

/-! ## The ring and the queue -/

/-- **The ring holds the queue**: from the slot of `rb_out` on, as far as `rb_in`; and no element of
it is numbered from zero again, unless that makes no difference. -/
structure Holds (rb : RingBuffer) (q : Fifo) : Prop where
  ok : rb.Ok
  window : Window rb.cap rb.slots (rb.rb_out.toNat % rb.cap) q
  count : rb.rb_in.toNat = (rb.rb_out.toNat + q.length) % 2 ^ 32
  numbers : rb.cap ∣ 2 ^ 32 ∨ rb.rb_out.toNat + q.length ≤ 2 ^ 32

section

variable {q : Fifo}

theorem Holds.length_le (h : rb.Holds q) : q.length ≤ rb.cap := h.window.fits

/-- **The counters are as far apart as the queue is long.** -/
theorem Holds.validnum (h : rb.Holds q) : (rb.rb_in - rb.rb_out).toNat = q.length := by
  have hcount := h.count
  have hle := h.length_le
  have hcap : rb.cap < 2 ^ 32 := rb.elem_cnt.toNat_lt
  have hin := rb.rb_in.toNat_lt
  have hout := rb.rb_out.toNat_lt
  rw [UInt32.toNat_sub]
  omega

theorem Holds.emptynum (h : rb.Holds q) :
    (rb.elem_cnt - (rb.rb_in - rb.rb_out)).toNat = rb.cap - q.length := by
  rw [toNat_sub_of_le' (by rw [h.validnum]; exact h.length_le), h.validnum]
  rfl

/-- What a caller sees of the ring is what he sees of the queue. -/
theorem Holds.seen (h : rb.Holds q) (ret : Int) (out : Bytes) :
    rb.seen ret out = Fifo.seen rb.cap q ret out := by
  have hvalid := h.validnum
  have hfull : rb.rbIsFull = decide (rb.cap ≤ q.length) := by
    unfold rbIsFull
    refine decide_eq_decide.mpr ?_
    rw [UInt32.le_iff_toNat_le, hvalid]
    rfl
  have hempty : rb.rbIsEmpty = decide (q.length = 0) := by
    unfold rbIsEmpty
    refine decide_eq_decide.mpr ?_
    rw [← hvalid, ← UInt32.toNat_inj, UInt32.toNat_sub]
    have hin := rb.rb_in.toNat_lt
    have hout := rb.rb_out.toNat_lt
    omega
  unfold RingBuffer.seen Fifo.seen rbGValidnum rbGEmptynum
  rw [hvalid, h.emptynum, hfull, hempty]

/-- A number that has gone round is in the same slot, if the capacity divides 2³². -/
theorem mod_mod_cap {n x : Nat} (h : n ∣ 2 ^ 32 ∨ x < 2 ^ 32) : x % 2 ^ 32 % n = x % n := by
  rcases h with h | h
  · exact Nat.mod_mod_of_dvd x h
  · rw [Nat.mod_eq_of_lt h]

/-- **The oldest elements are dropped.** -/
theorem Holds.drop (h : rb.Holds q) {d : Nat} {out : UInt32} (hd : d ≤ q.length)
    (hout : out.toNat = (rb.rb_out.toNat + d) % 2 ^ 32) :
    { rb with rb_out := out }.Holds (q.drop d) where
  ok := ⟨h.ok.cap_pos, h.ok.size_pos, h.ok.lt, h.ok.length⟩
  window := by
    change Window rb.cap rb.slots (out.toNat % rb.cap) (q.drop d)
    by_cases hlast : d = q.length
    · rw [hlast, List.drop_length]
      exact window_nil (Nat.mod_lt _ h.ok.cap_pos)
    · have hnumbers : rb.cap ∣ 2 ^ 32 ∨ rb.rb_out.toNat + d < 2 ^ 32 :=
        h.numbers.imp_right fun hle => by omega
      have hdrop := h.window.drop d
      rwa [Nat.mod_add_mod, ← mod_mod_cap hnumbers, ← hout] at hdrop
  count := by
    have hcount := h.count
    change rb.rb_in.toNat = (out.toNat + (q.drop d).length) % 2 ^ 32
    rw [List.length_drop, hout]
    omega
  numbers := by
    refine h.numbers.imp_right fun hle => ?_
    change out.toNat + (q.drop d).length ≤ 2 ^ 32
    rw [List.length_drop, hout]
    omega

/-- **Elements are put behind the queue**, if that starts no numbers again. -/
theorem Holds.append (h : rb.Holds q) (buf : Bytes) (cp : UInt32)
    (hroom : q.length + cp.toNat ≤ rb.cap)
    (hbuf : cp.toNat * rb.size ≤ buf.length)
    (hnumbers : rb.cap ∣ 2 ^ 32 ∨ rb.rb_out.toNat + q.length + cp.toNat ≤ 2 ^ 32) :
    (rb.copyIn buf cp).Holds (q ++ elements rb.size buf cp.toNat) := by
  have hlen : (elements rb.size buf cp.toNat).length = cp.toNat := length_elements
  have hcount := h.count
  obtain ⟨hok, hnew, hold⟩ := slots_copyIn h.ok buf cp (by omega) hbuf
  refine ⟨hok, ?_, ?_, ?_⟩
  · rcases Nat.eq_zero_or_pos cp.toNat with hzero | hpos
    · -- Nothing is copied.
      rw [List.eq_nil_of_length_eq_zero (hlen.trans hzero), List.append_nil]
      refine h.window.congr (fun j _ => ?_)
      exact hold _ (Nat.mod_lt _ h.ok.cap_pos) (fun i hi => by omega)
    · have hslot : rb.rb_in.toNat % rb.cap =
          (rb.rb_out.toNat % rb.cap + q.length) % rb.cap := by
        have hlow : rb.cap ∣ 2 ^ 32 ∨ rb.rb_out.toNat + q.length < 2 ^ 32 :=
          hnumbers.imp_right fun hle => by omega
        rw [hcount, mod_mod_cap hlow, Nat.mod_add_mod]
      have hplace : ∀ i, (rb.rb_in.toNat % rb.cap + i) % rb.cap =
          (rb.rb_out.toNat % rb.cap + q.length + i) % rb.cap := by
        intro i
        rw [hslot, Nat.mod_add_mod]
      refine h.window.append (by rw [hlen]; exact hroom) ?_ ?_
      · intro i a hi
        have hlt : i < cp.toNat := by
          have := (List.getElem?_eq_some_iff.mp hi).1
          rwa [hlen] at this
        rw [getElem?_elements hlt] at hi
        obtain rfl := Option.some.inj hi
        rw [← hplace]
        exact hnew i hlt
      · intro k hk hfree
        refine hold k hk (fun i hi => ?_)
        rw [hplace]
        exact hfree i (by rwa [hlen])
  · change (rb.rb_in + cp).toNat = _
    rw [UInt32.toNat_add, List.length_append, hlen, rb_out_copyIn, hcount]
    omega
  · refine hnumbers.imp_right fun hle => ?_
    rw [rb_out_copyIn, List.length_append, hlen]
    omega

/-- **What is copied out are the oldest elements.** -/
theorem Holds.copyOut (h : rb.Holds q) (hcp : cp.toNat ≤ q.length) :
    rb.copyOut cp = (q.take cp.toNat).flatten := by
  obtain ⟨f, hf⟩ : ∃ f, f = rb.rb_out.toNat % rb.cap := ⟨_, rfl⟩
  obtain ⟨n, hn⟩ : ∃ n, n = min cp.toNat (rb.cap - f) := ⟨_, rfl⟩
  have hle := h.length_le
  have hlt : f < rb.cap := by
    rw [hf]
    exact Nat.mod_lt _ h.ok.cap_pos
  have hstep := toNat_step h.ok cp rb.rb_out
  rw [← hf, ← hn] at hstep
  have hmod : (rb.rb_out % rb.elem_cnt).toNat = f := by
    rw [hf]
    exact UInt32.toNat_mod _ _
  have hrest : (cp - minOf cp (rb.elem_cnt - rb.rb_out % rb.elem_cnt)).toNat = cp.toNat - n := by
    rw [toNat_sub_of_le' (by omega), hstep]
  unfold RingBuffer.copyOut
  dsimp only
  rw [h.ok.mul_lt (by omega), h.ok.mul_lt (by omega), h.ok.mul_lt (by omega), hstep, hrest, hmod,
    ← Nat.zero_mul rb.size, readAt_elements, readAt_elements, ← List.flatten_append]
  congr 1
  -- Element by element, up to the end of the ring and behind it.
  refine List.ext_getElem? (fun i => ?_)
  have hget : ∀ i < cp.toNat, q[i]? = some (elemAt rb.size rb.rb_buf ((f + i) % rb.cap)) := by
    intro i hi
    have hiq : i < q.length := by omega
    have hslot := h.window.holds i q[i] (List.getElem?_eq_getElem hiq)
    rw [← hf] at hslot
    rw [List.getElem?_eq_getElem hiq, ← hslot]
    rfl
  by_cases hi : i < cp.toNat
  · rw [List.getElem?_take_of_lt hi, hget i hi]
    by_cases hround : i < n
    · rw [List.getElem?_append_left (by simpa using hround), List.getElem?_map,
        List.getElem?_range hround, Option.map_some, Nat.mod_eq_of_lt (by omega)]
    · have hslot : (f + i) % rb.cap = i - n := by
        rw [Nat.mod_eq_sub_mod (by omega), Nat.mod_eq_of_lt (by omega)]
        omega
      rw [List.getElem?_append_right (by simpa using hround), List.getElem?_map, List.length_map,
        List.length_range, List.getElem?_range (by omega), Option.map_some, hslot, Nat.zero_add]
  · rw [List.getElem?_eq_none (by simp; omega), List.getElem?_eq_none (by simp; omega)]

end

/-! ## Calls -/

/-- The call is refused. -/
def Refused (rb : RingBuffer) (n : UInt32) : Prop := n.toNat = 0 ∨ rb.cap < n.toNat

/-- **The call starts no numbers again**, unless the capacity divides 2³², and what it counts fits
where it is counted. -/
def Safe (rb : RingBuffer) : RbCall → Prop
  | .rbIn _ n => rb.Refused n ∨ min n.toNat rb.rbGEmptynum.toNat < 2 ^ 31 ∧
      (rb.cap ∣ 2 ^ 32 ∨
        rb.rb_out.toNat + rb.rbGValidnum.toNat + min n.toNat rb.rbGEmptynum.toNat ≤ 2 ^ 32)
  | .rbInF _ n => rb.Refused n ∨ n.toNat < 2 ^ 31 ∧ rb.rbGValidnum.toNat + n.toNat < 2 ^ 32 ∧
      (rb.cap ∣ 2 ^ 32 ∨ rb.rb_out.toNat + rb.rbGValidnum.toNat + n.toNat ≤ 2 ^ 32)
  | .rbOut _ n => rb.Refused n ∨ min n.toNat rb.rbGValidnum.toNat < 2 ^ 31
  | .rbOutFake => True
  | .rbReset => True

theorem refused_iff {n : UInt32} : n = 0 ∨ rb.elem_cnt < n ↔ n.toNat = 0 ∨ rb.cap < n.toNat := by
  rw [← UInt32.toNat_inj, UInt32.lt_iff_toNat_lt]
  rfl

section

variable {q : Fifo} {n : UInt32}

/-- `rb_in`. -/
theorem Holds.rbIn (h : rb.Holds q) (hsafe : rb.Safe (.rbIn buf n))
    (hwhole : RbCall.Whole rb.size (.rbIn buf n)) :
    (rb.call (.rbIn buf n)).1 = (Fifo.call rb.size rb.cap q (.rbIn buf n)).1 ∧
      (rb.call (.rbIn buf n)).2.Holds (Fifo.call rb.size rb.cap q (.rbIn buf n)).2 := by
  unfold RingBuffer.call Fifo.call RingBuffer.rbIn
  dsimp only
  by_cases hrefused : n.toNat = 0 ∨ rb.cap < n.toNat
  · rw [if_pos (refused_iff.mpr hrefused), if_pos hrefused]
    exact ⟨h.seen _ _, h⟩
  · rw [if_neg (fun hc => hrefused (refused_iff.mp hc)), if_neg hrefused]
    dsimp only
    obtain ⟨hint, hnumbers⟩ := hsafe.resolve_left hrefused
    have hle := h.length_le
    have hmoved : (minOf n (rb.elem_cnt - (rb.rb_in - rb.rb_out))).toNat =
        min n.toNat (rb.cap - q.length) := by rw [toNat_minOf, h.emptynum]
    unfold rbGEmptynum at hint hnumbers
    unfold rbGValidnum at hnumbers
    rw [h.emptynum] at hint hnumbers
    rw [h.validnum] at hnumbers
    have hbuf : min n.toNat (rb.cap - q.length) * rb.size ≤ buf.length :=
      Nat.le_trans (Nat.mul_le_mul_right _ (Nat.min_le_left _ _)) hwhole
    have hnext := h.append buf (minOf n (rb.elem_cnt - (rb.rb_in - rb.rb_out)))
      (by rw [hmoved]; omega) (by rw [hmoved]; exact hbuf) (by rw [hmoved]; exact hnumbers)
    rw [hmoved] at hnext
    refine ⟨?_, hnext⟩
    rw [asInt_eq (by rw [hmoved]; exact hint), hmoved]
    exact hnext.seen _ _

/-- `rb_in_f`. -/
theorem Holds.rbInF (h : rb.Holds q) (hsafe : rb.Safe (.rbInF buf n))
    (hwhole : RbCall.Whole rb.size (.rbInF buf n)) :
    (rb.call (.rbInF buf n)).1 = (Fifo.call rb.size rb.cap q (.rbInF buf n)).1 ∧
      (rb.call (.rbInF buf n)).2.Holds (Fifo.call rb.size rb.cap q (.rbInF buf n)).2 := by
  unfold RingBuffer.call Fifo.call RingBuffer.rbInF
  dsimp only
  by_cases hrefused : n.toNat = 0 ∨ rb.cap < n.toNat
  · rw [if_pos (refused_iff.mpr hrefused), if_pos hrefused]
    exact ⟨h.seen _ _, h⟩
  · rw [if_neg (fun hc => hrefused (refused_iff.mp hc)), if_neg hrefused]
    dsimp only
    obtain ⟨hint, hsum, hnumbers⟩ := hsafe.resolve_left hrefused
    have hle := h.length_le
    have hn : 0 < n.toNat ∧ n.toNat ≤ rb.cap := by omega
    unfold rbGValidnum at hsum hnumbers
    rw [h.validnum] at hsum hnumbers
    obtain ⟨d, hd⟩ : ∃ d, d = q.length + n.toNat - rb.cap := ⟨_, rfl⟩
    have hlen : (q ++ elements rb.size buf n.toNat).length = q.length + n.toNat := by
      rw [List.length_append, length_elements]
    have hqueue : (q ++ elements rb.size buf n.toNat).drop (q.length + n.toNat - rb.cap) =
        q.drop d ++ elements rb.size buf n.toNat := by
      rw [← hd, List.drop_append_of_le_length (by omega)]
    -- The oldest elements are dropped, or there is room without that.
    have hdropped : (if rb.elem_cnt ≤ rb.rb_in - rb.rb_out + n then
          { rb with rb_out := rb.rb_in + n - rb.elem_cnt }
        else rb).Holds (q.drop d) ∧
        (rb.cap ∣ 2 ^ 32 ∨ (if rb.elem_cnt ≤ rb.rb_in - rb.rb_out + n then
          { rb with rb_out := rb.rb_in + n - rb.elem_cnt }
        else rb).rb_out.toNat + (q.drop d).length + n.toNat ≤ 2 ^ 32) := by
      have hcond : rb.elem_cnt ≤ rb.rb_in - rb.rb_out + n ↔ rb.cap ≤ q.length + n.toNat := by
        rw [UInt32.le_iff_toNat_le, UInt32.toNat_add, h.validnum, Nat.mod_eq_of_lt hsum]
        rfl
      split
      · rename_i hfull
        have hcap : rb.cap < 2 ^ 32 := rb.elem_cnt.toNat_lt
        have hcount := h.count
        have hout : (rb.rb_in + n - rb.elem_cnt).toNat = (rb.rb_out.toNat + d) % 2 ^ 32 := by
          have hfull := hcond.mp hfull
          rw [UInt32.toNat_sub, UInt32.toNat_add, hcount]
          change (2 ^ 32 - rb.cap + _) % 2 ^ 32 = _
          omega
        refine ⟨h.drop (by omega) hout, hnumbers.imp_right fun hle => ?_⟩
        rw [List.length_drop]
        dsimp only
        rw [hout]
        have := Nat.mod_le (rb.rb_out.toNat + d) (2 ^ 32)
        omega
      · rename_i hroom
        have hzero : d = 0 := by
          have := mt hcond.mpr hroom
          omega
        rw [hzero, List.drop_zero]
        exact ⟨h, hnumbers⟩
    obtain ⟨rb', hrb⟩ : ∃ rb', rb' = (if rb.elem_cnt ≤ rb.rb_in - rb.rb_out + n then
        { rb with rb_out := rb.rb_in + n - rb.elem_cnt } else rb) := ⟨_, rfl⟩
    have hsame : rb'.cap = rb.cap ∧ rb'.size = rb.size := by
      rw [hrb]
      split <;> exact ⟨rfl, rfl⟩
    rw [← hrb] at hdropped ⊢
    obtain ⟨hdropped, hlow⟩ := hdropped
    have hnext := hdropped.append buf n
      (by rw [List.length_drop, hsame.1]; omega) (by rw [hsame.2]; exact hwhole)
      (by rw [hsame.1]; exact hlow)
    rw [hsame.2] at hnext
    rw [hlen, hqueue]
    refine ⟨?_, hnext⟩
    rw [asInt_eq hint, ← hsame.1]
    exact hnext.seen _ _

/-- `rb_out`. -/
theorem Holds.rbOut {null : Bool} (h : rb.Holds q) (hsafe : rb.Safe (.rbOut null n)) :
    (rb.call (.rbOut null n)).1 = (Fifo.call rb.size rb.cap q (.rbOut null n)).1 ∧
      (rb.call (.rbOut null n)).2.Holds (Fifo.call rb.size rb.cap q (.rbOut null n)).2 := by
  unfold RingBuffer.call Fifo.call RingBuffer.rbOut
  dsimp only
  by_cases hrefused : n.toNat = 0 ∨ rb.cap < n.toNat
  · rw [if_pos (refused_iff.mpr hrefused), if_pos hrefused]
    exact ⟨h.seen _ _, h⟩
  · rw [if_neg (fun hc => hrefused (refused_iff.mp hc)), if_neg hrefused]
    dsimp only
    have hint := hsafe.resolve_left hrefused
    have hmoved : (minOf n (rb.rb_in - rb.rb_out)).toNat = min n.toNat q.length := by
      rw [toNat_minOf, h.validnum]
    unfold rbGValidnum at hint
    rw [h.validnum] at hint
    have hout : (rb.rb_out + minOf n (rb.rb_in - rb.rb_out)).toNat =
        (rb.rb_out.toNat + min n.toNat q.length) % 2 ^ 32 := by
      rw [UInt32.toNat_add, hmoved]
    have hnext := h.drop (Nat.min_le_right n.toNat q.length) hout
    refine ⟨?_, hnext⟩
    rw [asInt_eq (by rw [hmoved]; exact hint), h.copyOut (by rw [hmoved]; omega), hmoved]
    exact hnext.seen _ _

/-- `rb_out_fake`. -/
theorem Holds.rbOutFake (h : rb.Holds q) :
    (rb.call .rbOutFake).1 = (Fifo.call rb.size rb.cap q .rbOutFake).1 := by
  have hmoved : (minOf 1 (rb.rb_in - rb.rb_out)).toNat = min 1 q.length := by
    rw [toNat_minOf, h.validnum]
    rfl
  have hone : min 1 q.length < 2 ^ 31 := by omega
  have hret : rb.rbOutFake.1 = (min 1 q.length : Nat) := by
    unfold RingBuffer.rbOutFake
    dsimp only
    rw [asInt_eq (by rw [hmoved]; exact hone), hmoved]
  have hslot : ((rb.rb_out % rb.elem_cnt) * rb.elem_size).toNat =
      rb.rb_out.toNat % rb.cap * rb.size := by
    have hmod : (rb.rb_out % rb.elem_cnt).toNat = rb.rb_out.toNat % rb.cap :=
      UInt32.toNat_mod _ _
    rw [h.ok.mul_lt (by rw [hmod]; exact Nat.le_of_lt (Nat.mod_lt _ h.ok.cap_pos)), hmod]
  have hout : rb.rbOutFake.2 = (q.take 1).flatten := by
    unfold RingBuffer.rbOutFake
    cases q with
    | nil =>
      have hzero : minOf 1 (rb.rb_in - rb.rb_out) = 0 := UInt32.toNat_inj.mp hmoved
      exact if_pos hzero
    | cons e q =>
      have hne : minOf 1 (rb.rb_in - rb.rb_out) ≠ 0 := by
        intro hzero
        rw [hzero, List.length_cons] at hmoved
        change 0 = _ at hmoved
        omega
      have hhead := Option.some.inj h.window.head
      dsimp only
      rw [if_neg hne, hslot]
      exact hhead.trans (List.append_nil e).symm
  unfold RingBuffer.call Fifo.call
  rw [hret, hout]
  exact h.seen _ _

/-- `rb_reset`. -/
theorem Holds.reset (h : rb.Holds q) : rb.rbReset.Holds [] where
  ok := ⟨h.ok.cap_pos, h.ok.size_pos, h.ok.lt, h.ok.length⟩
  window := window_nil (Nat.mod_lt _ h.ok.cap_pos)
  count := rfl
  numbers := Or.inr (Nat.zero_le _)

theorem shape_rbIn : (rb.rbIn buf n).2.cap = rb.cap ∧ (rb.rbIn buf n).2.size = rb.size := by
  unfold RingBuffer.rbIn
  split <;> exact ⟨rfl, rfl⟩

theorem shape_rbInF : (rb.rbInF buf n).2.cap = rb.cap ∧ (rb.rbInF buf n).2.size = rb.size := by
  unfold RingBuffer.rbInF
  split
  · exact ⟨rfl, rfl⟩
  · dsimp only
    split <;> exact ⟨rfl, rfl⟩

theorem shape_rbOut {null : Bool} :
    (rb.rbOut null n).2.cap = rb.cap ∧ (rb.rbOut null n).2.size = rb.size := by
  unfold RingBuffer.rbOut
  split <;> exact ⟨rfl, rfl⟩

/-- A call leaves the capacity and the size of an element alone. -/
theorem shape_call (rb : RingBuffer) (c : RbCall) :
    (rb.call c).2.cap = rb.cap ∧ (rb.call c).2.size = rb.size := by
  cases c with
  | rbIn buf n => exact shape_rbIn
  | rbInF buf n => exact shape_rbInF
  | rbOut null n => exact shape_rbOut
  | rbOutFake => exact ⟨rfl, rfl⟩
  | rbReset => exact ⟨rfl, rfl⟩

/-- **A safe call is answered as by the queue**, and leaves the ring holding it. -/
theorem Holds.call (h : rb.Holds q) {c : RbCall} (hsafe : rb.Safe c)
    (hwhole : c.Whole rb.size) :
    (rb.call c).1 = (Fifo.call rb.size rb.cap q c).1 ∧
      (rb.call c).2.Holds (Fifo.call rb.size rb.cap q c).2 := by
  cases c with
  | rbIn buf n => exact h.rbIn hsafe hwhole
  | rbInF buf n => exact h.rbInF hsafe hwhole
  | rbOut null n => exact h.rbOut hsafe
  | rbOutFake => exact ⟨h.rbOutFake, h⟩
  | rbReset => exact ⟨h.reset.seen _ _, h.reset⟩

end

end RingBuffer

/-- A new ring holds nothing. -/
theorem ringBufferCreate_holds {elem_size elem_cnt : UInt32} {rb : RingBuffer}
    (hlt : elem_size.toNat * elem_cnt.toNat < 2 ^ 32)
    (h : ringBufferCreate elem_size elem_cnt = some rb) :
    rb.Holds [] ∧ rb.cap = elem_cnt.toNat ∧ rb.size = elem_size.toNat := by
  unfold ringBufferCreate at h
  split at h
  · exact absurd h (by simp)
  · rename_i hpos
    obtain rfl := Option.some.inj h
    have hsize : elem_size.toNat ≠ 0 := fun h0 => hpos (Or.inl (UInt32.toNat_inj.mp h0))
    have hcap : elem_cnt.toNat ≠ 0 := fun h0 => hpos (Or.inr (UInt32.toNat_inj.mp h0))
    refine ⟨⟨⟨Nat.pos_of_ne_zero hcap, Nat.pos_of_ne_zero hsize, ?_, ?_⟩, ?_, rfl, ?_⟩, rfl, rfl⟩
    · rw [Nat.mul_comm]
      exact hlt
    · refine List.length_replicate.trans ?_
      rw [toNat_mul_of_lt hlt, Nat.mul_comm]
      rfl
    · exact window_nil (Nat.mod_lt _ (Nat.pos_of_ne_zero hcap))
    · exact Or.inr (Nat.zero_le _)

/-- **In every run of safe calls the ring is a queue.** -/
theorem fifo_of_safe {elem_size elem_cnt : UInt32} {rb : RingBuffer}
    (hlt : elem_size.toNat * elem_cnt.toNat < 2 ^ 32)
    (h : ringBufferCreate elem_size elem_cnt = some rb) {calls : List RbCall}
    (hsafe : Guarded RingBuffer.call (fun rb c => rb.Safe c ∧ c.Whole rb.size) rb calls) :
    (answers RingBuffer.call rb calls).1 =
        (answers (Fifo.call elem_size.toNat elem_cnt.toNat) [] calls).1 ∧
      (answers RingBuffer.call rb calls).2.rbGValidnum.toNat ≤ elem_cnt.toNat := by
  obtain ⟨hholds, hcap, hsize⟩ := ringBufferCreate_holds hlt h
  obtain ⟨hsame, hend, hcap', -⟩ := simulates
    (R := fun rb q => RingBuffer.Holds rb q ∧ rb.cap = elem_cnt.toNat ∧ rb.size = elem_size.toNat)
    (g := Fifo.call elem_size.toNat elem_cnt.toNat) ⟨hholds, hcap, hsize⟩
    (fun rb q c hR hG => by
      obtain ⟨hholds, hcap, hsize⟩ := hR
      obtain ⟨hanswer, hnext⟩ := hholds.call hG.1 hG.2
      obtain ⟨hcap', hsize'⟩ := RingBuffer.shape_call rb c
      rw [← hcap, ← hsize]
      exact ⟨hanswer, hnext, hcap', hsize'⟩) hsafe
  refine ⟨hsame, ?_⟩
  rw [← hcap']
  exact hend.validnum.trans_le hend.length_le

end Maixii.Stabilization
