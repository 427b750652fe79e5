import Maixii.Lib.Elements
import Maixii.Lib.Machine
import Maixii.Lib.Ring

/-!
# `Stabilization/RingBuffer.lean`: a ring of elements with free-running counters

`rb_in` and `rb_out` count elements and are never brought back into the ring: an element is put
where its number, modulo the capacity, says. The counters are 32 bits wide, so the numbers start
again after 2³² elements; **unless the capacity divides 2³² they start again somewhere else in the
ring**. What the ring is for is `Fifo.call`.
-/

set_option autoImplicit false

namespace Maixii.Stabilization

open Maixii.Lib

/-! ## The ring -/

/-- `ring_buffer_entity`. -/
structure RingBuffer where
  rb_in : UInt32
  rb_out : UInt32
  elem_size : UInt32
  elem_cnt : UInt32
  rb_buf : Bytes
  deriving DecidableEq

/-- `ring_buffer_create`. -/
def ringBufferCreate (elem_size elem_num : UInt32) : Option RingBuffer :=
  if elem_size = 0 ∨ elem_num = 0 then none
  else some {
    rb_in := 0
    rb_out := 0
    elem_size := elem_size
    elem_cnt := elem_num
    rb_buf := List.replicate (elem_size * elem_num).toNat 0 }

/-- The macro `min`. -/
def minOf (a b : UInt32) : UInt32 := if a < b then a else b

/-- An `unsigned int` returned as an `int`. -/
def asInt (n : UInt32) : Int := if n.toNat < 2 ^ 31 then n.toNat else n.toNat - 2 ^ 32

namespace RingBuffer

/-- `rb_g_validnum`. -/
def rbGValidnum (rb : RingBuffer) : UInt32 := rb.rb_in - rb.rb_out

/-- `rb_g_emptynum`. -/
def rbGEmptynum (rb : RingBuffer) : UInt32 := rb.elem_cnt - (rb.rb_in - rb.rb_out)

/-- `rb_is_full`. -/
def rbIsFull (rb : RingBuffer) : Bool := rb.elem_cnt ≤ rb.rb_in - rb.rb_out

/-- `rb_is_empty`. -/
def rbIsEmpty (rb : RingBuffer) : Bool := rb.rb_in = rb.rb_out

/-- The copies into the ring: up to its end, and from its start. -/
def copyIn (rb : RingBuffer) (buf_in : Bytes) (cp_cnt : UInt32) : RingBuffer :=
  let cp_step1 := minOf cp_cnt (rb.elem_cnt - rb.rb_in % rb.elem_cnt)
  let first := readAt buf_in 0 (cp_step1 * rb.elem_size).toNat
  let second := readAt buf_in (cp_step1 * rb.elem_size).toNat
    ((cp_cnt - cp_step1) * rb.elem_size).toNat
  let buf := patch rb.rb_buf ((rb.rb_in % rb.elem_cnt) * rb.elem_size).toNat first
  { rb with rb_buf := patch buf 0 second, rb_in := rb.rb_in + cp_cnt }

/-- `rb_in`. -/
def rbIn (rb : RingBuffer) (buf_in : Bytes) (elem_num : UInt32) : Int × RingBuffer :=
  if elem_num = 0 ∨ rb.elem_cnt < elem_num then (-1, rb)
  else
    let cp_cnt := minOf elem_num (rb.elem_cnt - (rb.rb_in - rb.rb_out))
    (asInt cp_cnt, rb.copyIn buf_in cp_cnt)

/-- `rb_in_f`. -/
def rbInF (rb : RingBuffer) (buf_in : Bytes) (elem_num : UInt32) : Int × RingBuffer :=
  if elem_num = 0 ∨ rb.elem_cnt < elem_num then (-1, rb)
  else
    let rb :=
      if rb.elem_cnt ≤ rb.rb_in - rb.rb_out + elem_num then
        { rb with rb_out := rb.rb_in + elem_num - rb.elem_cnt }
      else rb
    (asInt elem_num, rb.copyIn buf_in elem_num)

/-- The copies out of the ring: up to its end, and from its start. -/
def copyOut (rb : RingBuffer) (cp_cnt : UInt32) : Bytes :=
  let cp_step1 := minOf cp_cnt (rb.elem_cnt - rb.rb_out % rb.elem_cnt)
  readAt rb.rb_buf ((rb.rb_out % rb.elem_cnt) * rb.elem_size).toNat
      (cp_step1 * rb.elem_size).toNat ++
    readAt rb.rb_buf 0 ((cp_cnt - cp_step1) * rb.elem_size).toNat

/-- `rb_out`, and what it has put into `buf_out`, if that is not `NULL`. -/
def rbOut (rb : RingBuffer) (null : Bool) (elem_num : UInt32) : (Int × Bytes) × RingBuffer :=
  if elem_num = 0 ∨ rb.elem_cnt < elem_num then ((-1, []), rb)
  else
    let cp_cnt := minOf elem_num (rb.rb_in - rb.rb_out)
    ((asInt cp_cnt, if null then [] else rb.copyOut cp_cnt),
      { rb with rb_out := rb.rb_out + cp_cnt })

/-- `rb_out_fake`. -/
def rbOutFake (rb : RingBuffer) : Int × Bytes :=
  let cp_cnt := minOf 1 (rb.rb_in - rb.rb_out)
  (asInt cp_cnt,
    if cp_cnt = 0 then []
    else readAt rb.rb_buf ((rb.rb_out % rb.elem_cnt) * rb.elem_size).toNat rb.elem_size.toNat)

/-- `rb_reset`. -/
def rbReset (rb : RingBuffer) : RingBuffer := { rb with rb_in := 0, rb_out := 0 }

end RingBuffer

/-- The calls. With `RB_FL_THREAD_SAFE` they are the same, one at a time. -/
inductive RbCall
  | rbIn (buf_in : Bytes) (elem_num : UInt32)
  | rbInF (buf_in : Bytes) (elem_num : UInt32)
  | rbOut (null : Bool) (elem_num : UInt32)
  | rbOutFake
  | rbReset
  deriving DecidableEq

/-- What a caller sees: what is returned and copied out, and then the number of elements, the room,
and whether the ring is full or empty. -/
structure Seen where
  ret : Int
  out : Bytes
  validnum : Nat
  emptynum : Nat
  full : Bool
  empty : Bool
  deriving DecidableEq

def RingBuffer.seen (rb : RingBuffer) (ret : Int) (out : Bytes) : Seen where
  ret := ret
  out := out
  validnum := rb.rbGValidnum.toNat
  emptynum := rb.rbGEmptynum.toNat
  full := rb.rbIsFull
  empty := rb.rbIsEmpty

/-- A call, and a look at the ring. -/
def RingBuffer.call (rb : RingBuffer) : RbCall → Seen × RingBuffer
  | .rbIn buf_in elem_num =>
      let (ret, rb) := rb.rbIn buf_in elem_num
      (rb.seen ret [], rb)
  | .rbInF buf_in elem_num =>
      let (ret, rb) := rb.rbInF buf_in elem_num
      (rb.seen ret [], rb)
  | .rbOut null elem_num =>
      let ((ret, out), rb) := rb.rbOut null elem_num
      (rb.seen ret out, rb)
  | .rbOutFake => (rb.seen rb.rbOutFake.1 rb.rbOutFake.2, rb)
  | .rbReset => (rb.rbReset.seen 0 [], rb.rbReset)

/-! ## What it is for -/

/-- A queue of elements. -/
abbrev Fifo := List Bytes

namespace Fifo

def seen (cap : Nat) (q : Fifo) (ret : Int) (out : Bytes) : Seen where
  ret := ret
  out := out
  validnum := q.length
  emptynum := cap - q.length
  full := cap ≤ q.length
  empty := q.length = 0

/-- **A queue of at most `cap` elements.** A call with no elements, or more than the queue may hold,
is refused. -/
def call (size cap : Nat) (q : Fifo) : RbCall → Seen × Fifo
  | .rbIn buf_in elem_num =>
      if elem_num.toNat = 0 ∨ cap < elem_num.toNat then (seen cap q (-1) [], q)
      else
        let n := min elem_num.toNat (cap - q.length)
        let q := q ++ elements size buf_in n
        (seen cap q n [], q)
  | .rbInF buf_in elem_num =>
      if elem_num.toNat = 0 ∨ cap < elem_num.toNat then (seen cap q (-1) [], q)
      else
        let q := q ++ elements size buf_in elem_num.toNat
        let q := q.drop (q.length - cap)
        (seen cap q elem_num.toNat [], q)
  | .rbOut null elem_num =>
      if elem_num.toNat = 0 ∨ cap < elem_num.toNat then (seen cap q (-1) [], q)
      else
        let n := min elem_num.toNat q.length
        (seen cap (q.drop n) n (if null then [] else (q.take n).flatten), q.drop n)
  | .rbOutFake => (seen cap q (min 1 q.length : Nat) (q.take 1).flatten, q)
  | .rbReset => (seen cap [] 0 [], [])

end Fifo

/-- The caller's buffer holds as many elements as it says. -/
def RbCall.Whole (size : Nat) : RbCall → Prop
  | .rbIn buf_in elem_num => elem_num.toNat * size ≤ buf_in.length
  | .rbInF buf_in elem_num => elem_num.toNat * size ≤ buf_in.length
  | _ => True

/-- **Every sequence of calls on this ring is answered as by a queue**, and it never holds more
elements than there is room for. -/
def IsFifo (elem_size elem_cnt : UInt32) : Prop :=
  ∀ rb, ringBufferCreate elem_size elem_cnt = some rb →
    ∀ calls : List RbCall, (∀ c ∈ calls, c.Whole elem_size.toNat) →
      (answers RingBuffer.call rb calls).1 =
          (answers (Fifo.call elem_size.toNat elem_cnt.toNat) [] calls).1 ∧
        (answers RingBuffer.call rb calls).2.rbGValidnum.toNat ≤ elem_cnt.toNat

end Maixii.Stabilization
