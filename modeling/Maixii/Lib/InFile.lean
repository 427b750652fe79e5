import Maixii.Lib.OutFile

/-!
# `Lib/InFile.lean`: reading binary files into memory

What a program that reads binary files relies on: a file with a position and the two states in
which it does not go on (`std::ifstream`), and memory of which only a part has been written.
A read that finds less than it asks for takes what there is and then fails; a file that has failed
neither reads nor seeks until it is cleared. Memory that was never written cannot be used, nor
can a byte outside of a buffer: both are `none`. What a program does that uses them all the same
depends on what it finds there, which is a `Memory`; in `Memory.unset` it finds nothing.
-/

set_option autoImplicit false

namespace Maixii.Lib

/-! ## Memory -/

/-- The bytes of a buffer or a structure; `none` where nothing has been stored yet. -/
abbrev Cells := List (Option UInt8)

namespace Cells

def unset (n : Nat) : Cells := List.replicate n none

/-- A read of `n` bytes to `off`, of which `bs` have come. -/
def store (m : Cells) (off n : Nat) (bs : Bytes) : Option Cells :=
  if off + n ≤ m.length then some (m.take off ++ bs.map some ++ m.drop (off + bs.length)) else none

/-- The bytes, if all of them are there. -/
def stored : Cells → Option Bytes
  | [] => some []
  | none :: _ => none
  | some b :: m => (stored m).map (b :: ·)

/-- `n` bytes at `off`. -/
def load (m : Cells) (off n : Nat) : Option Bytes :=
  if off + n ≤ m.length then stored ((m.drop off).take n) else none

/-- A little-endian field of `n` bytes at `off`. -/
def field (m : Cells) (off n : Nat) : Option Nat := (m.load off n).map fromLE

/-- The characters up to the first zero. -/
def cstring : Cells → Option Bytes
  | [] => none
  | none :: _ => none
  | some b :: m => if b = 0 then some [] else (cstring m).map (b :: ·)

variable {m m' : Cells} {off n : Nat} {bs : Bytes}

theorem length_unset (n : Nat) : (unset n).length = n := List.length_replicate

/-- Nothing is stored outside of the buffer, and nothing grows. -/
theorem length_store (h : m.store off n bs = some m') (hle : bs.length ≤ n) :
    m'.length = m.length := by
  unfold store at h
  split at h
  · obtain rfl := Option.some.inj h
    simp only [List.length_append, List.length_take, List.length_map, List.length_drop]
    omega
  · cases h

theorem store_isSome (h : off + n ≤ m.length) (bs : Bytes) : ∃ m', m.store off n bs = some m' :=
  ⟨_, if_pos h⟩

theorem stored_eq_some : stored m = some bs ↔ m = bs.map some := by
  induction m generalizing bs with
  | nil =>
    cases bs with
    | nil => exact ⟨fun _ => rfl, fun _ => rfl⟩
    | cons b bs => exact ⟨fun h => (nomatch h), fun h => (nomatch h)⟩
  | cons c m ih =>
    cases c with
    | none =>
      refine ⟨fun h => (nomatch h), fun h => ?_⟩
      cases bs with
      | nil => cases h
      | cons b bs => exact absurd (List.cons.inj h).1 (Option.some_ne_none b).symm
    | some c =>
      rw [stored, Option.map_eq_some_iff]
      constructor
      · rintro ⟨cs, hcs, rfl⟩
        rw [ih.mp hcs, List.map_cons]
      · intro h
        cases bs with
        | nil => cases h
        | cons b bs =>
          rw [List.map_cons, List.cons.injEq] at h
          exact ⟨bs, ih.mpr h.2, by rw [Option.some.inj h.1]⟩

theorem stored_map (bs : Bytes) : stored (bs.map some) = some bs := stored_eq_some.mpr rfl

theorem load_eq_some :
    m.load off n = some bs ↔ off + n ≤ m.length ∧ (m.drop off).take n = bs.map some := by
  unfold load
  split
  · rename_i h
    rw [stored_eq_some]
    exact ⟨fun hb => ⟨h, hb⟩, And.right⟩
  · rename_i h
    exact ⟨fun hb => (nomatch hb), fun hb => absurd hb.1 h⟩

/-- What was stored is there. -/
theorem load_store (h : m.store off n bs = some m') (hle : bs.length ≤ n) {i k : Nat}
    (hi : off ≤ i) (hk : i + k ≤ off + bs.length) :
    m'.load i k = some (readAt bs (i - off) k) := by
  have hlen := length_store h hle
  unfold store at h
  split at h
  · rename_i hroom
    obtain rfl := Option.some.inj h
    have htake : (m.take off).length = off := by
      rw [List.length_take]
      omega
    rw [load, if_pos (by rw [hlen]; omega), List.append_assoc, List.drop_append, htake,
      List.drop_eq_nil_of_le (by rw [htake]; exact hi), List.nil_append, List.drop_append_of_le_length
      (by rw [List.length_map]; omega), List.take_append_of_le_length
      (by rw [List.length_drop, List.length_map]; omega), ← List.map_drop, ← List.map_take,
      stored_map]
    rfl
  · cases h

theorem isSome_load_iff : (m.load off n).isSome = true ↔
    off + n ≤ m.length ∧ ∀ i, off ≤ i → i < off + n → ∃ b, m[i]? = some (some b) := by
  rw [Option.isSome_iff_exists]
  constructor
  · rintro ⟨bs, h⟩
    obtain ⟨hlen, hbs⟩ := load_eq_some.mp h
    refine ⟨hlen, fun i hi hlt => ?_⟩
    have hget := congrArg (fun l => l[i - off]?) hbs
    simp only [List.getElem?_take, List.getElem?_drop, List.getElem?_map] at hget
    rw [if_pos (by omega), Nat.add_sub_cancel' hi] at hget
    have hin : i < m.length := by omega
    cases hb : bs[i - off]? with
    | some b =>
      rw [hb] at hget
      exact ⟨b, hget⟩
    | none =>
      rw [hb, List.getElem?_eq_getElem hin] at hget
      cases hget
  · rintro ⟨hlen, hall⟩
    refine ⟨((m.drop off).take n).map fun c => c.getD 0, load_eq_some.mpr ⟨hlen, ?_⟩⟩
    refine List.ext_getElem? fun k => ?_
    rw [List.map_map, List.getElem?_map, List.getElem?_take, List.getElem?_drop]
    split
    · rename_i hk
      obtain ⟨b, hb⟩ := hall (off + k) (by omega) (by omega)
      rw [hb]
      rfl
    · rfl

/-- **What is there stays**, whatever is stored. -/
theorem isSome_load_store (h : m.store off n bs = some m') (hle : bs.length ≤ n) {i k : Nat}
    (hload : (m.load i k).isSome = true) : (m'.load i k).isSome = true := by
  obtain ⟨hlen, hall⟩ := isSome_load_iff.mp hload
  refine isSome_load_iff.mpr ⟨by rw [length_store h hle]; exact hlen, fun j hj hlt => ?_⟩
  obtain ⟨b, hb⟩ := hall j hj hlt
  unfold store at h
  split at h
  · rename_i hroom
    obtain rfl := Option.some.inj h
    have htake : (m.take off).length = off := by
      rw [List.length_take]
      omega
    rw [List.append_assoc]
    by_cases h₁ : j < off
    · exact ⟨b, by rw [List.getElem?_append_left (by omega), List.getElem?_take, if_pos h₁, hb]⟩
    · rw [List.getElem?_append_right (by omega), htake]
      by_cases h₂ : j - off < bs.length
      · rw [List.getElem?_append_left (by rw [List.length_map]; exact h₂), List.getElem?_map,
          List.getElem?_eq_getElem h₂]
        exact ⟨_, rfl⟩
      · rw [List.getElem?_append_right (by rw [List.length_map]; omega), List.length_map,
          List.getElem?_drop]
        exact ⟨b, by rw [← hb]; congr 1; omega⟩
  · cases h

/-- A zero among the bytes ends a string. -/
theorem cstring_of_mem {bs : Bytes} (h : 0 ∈ bs) (rest : Cells) :
    ∃ s, cstring (bs.map some ++ rest) = some s := by
  induction bs with
  | nil => cases h
  | cons b bs ih =>
    rw [List.map_cons, List.cons_append, cstring]
    by_cases hb : b = 0
    · rw [if_pos hb]
      exact ⟨[], rfl⟩
    · obtain ⟨s, hs⟩ := ih ((List.mem_cons.mp h).resolve_left (Ne.symm hb))
      rw [if_neg hb, hs]
      exact ⟨b :: s, rfl⟩

/-- Where it begins with bytes that are there. -/
theorem drop_of_load (h : m.load off n = some bs) :
    m.drop off = bs.map some ++ m.drop (off + n) := by
  obtain ⟨-, hbs⟩ := load_eq_some.mp h
  rw [← hbs, ← List.drop_drop, List.take_append_drop]

/-- The string in the array of `n` characters at `off`. It ends within the array, or it goes on
behind it. -/
def string (m : Cells) (behind : Bool) (off n : Nat) : Option Bytes :=
  cstring (if behind then m.drop off else (m.drop off).take n)

/-- A zero within the array ends the string there. -/
theorem string_of_load (h : m.load off n = some bs) (hzero : 0 ∈ bs) (behind : Bool) :
    ∃ s, m.string behind off n = some s := by
  unfold string
  cases behind with
  | true =>
    rw [if_pos rfl, drop_of_load h]
    exact cstring_of_mem hzero _
  | false =>
    rw [if_neg Bool.false_ne_true, (load_eq_some.mp h).2, ← List.append_nil (bs.map some)]
    exact cstring_of_mem hzero []

end Cells

/-- **What a program finds in memory that it has not written**: `cells k n` is the `k`-th piece that
it takes, of `n` bytes, together with what is known to lie behind it; and `behind` tells whether a
string that has no end in its array goes on behind that. Nothing is said about what is there, so
that a statement about all memories is one about whatever a program may do with it. -/
structure Memory where
  cells : Nat → Nat → Cells
  behind : Bool
  le_length : ∀ k n, n ≤ (cells k n).length

namespace Memory

theorem le_length_unset (_k n : Nat) : n ≤ (Cells.unset n).length :=
  Nat.le_of_eq (Cells.length_unset n).symm

/-- The memory in which nothing can be used that was not written, and nothing outside of it. -/
def unset : Memory := ⟨fun _ n => Cells.unset n, false, le_length_unset⟩

theorem le_length_zeros (k : Nat) (_i n : Nat) :
    n ≤ (List.replicate (n + k) (some (0 : UInt8))).length := by
  rw [List.length_replicate]
  exact Nat.le_add_right n k

/-- Zeros, and `k` more behind every piece. -/
def zeros (k : Nat) : Memory := ⟨fun _ n => List.replicate (n + k) (some 0), true, le_length_zeros k⟩

theorem le_length_after (mem : Memory) (j k n : Nat) : n ≤ (mem.cells (j + k) n).length :=
  mem.le_length (j + k) n

/-- The memory once `j` pieces of it have been taken. -/
def after (mem : Memory) (j : Nat) : Memory :=
  ⟨fun k n => mem.cells (j + k) n, mem.behind, mem.le_length_after j⟩

@[simp] theorem after_unset (j : Nat) : unset.after j = unset := rfl

end Memory

/-! ## Files -/

structure InFile where
  bytes : Bytes
  pos : Nat
  eof : Bool
  fail : Bool
  deriving DecidableEq

namespace InFile

def opened (bytes : Bytes) : InFile := ⟨bytes, 0, false, false⟩

def good (f : InFile) : Bool := !f.eof && !f.fail

/-- `read`, with the bytes that have come. -/
def read (f : InFile) (n : Nat) : Bytes × InFile :=
  if f.good then
    let bs := readAt f.bytes f.pos n
    (bs, { f with pos := f.pos + bs.length, eof := bs.length < n, fail := bs.length < n })
  else ([], { f with fail := true })

/-- `seekg(p, beg)`. -/
def seekTo (f : InFile) (p : Int) : InFile :=
  if f.fail = true ∨ p < 0 then { f with eof := false, fail := true }
  else { f with pos := p.toNat, eof := false }

/-- `seekg(n, cur)`. -/
def seekBy (f : InFile) (n : Int) : InFile := f.seekTo (f.pos + n)

/-- `clear`. -/
def clear (f : InFile) : InFile := { f with eof := false, fail := false }

/-- `tellg`. -/
def tell (f : InFile) : Int := if f.good then f.pos else -1

variable {f : InFile} {n : Nat}

theorem length_readAt (s : Bytes) (p n : Nat) : (readAt s p n).length = min n (s.length - p) := by
  rw [readAt, List.length_take, List.length_drop]

/-- A part of what is read. -/
theorem readAt_readAt (s : Bytes) {p n i k : Nat} (h : i + k ≤ n) :
    readAt (readAt s p n) i k = readAt s (p + i) k := by
  rw [readAt, readAt, readAt, List.drop_take, List.drop_drop, List.take_take,
    Nat.min_eq_left (by omega)]

theorem length_read_le (f : InFile) (n : Nat) : (f.read n).1.length ≤ n := by
  unfold read
  split
  · show (readAt _ _ _).length ≤ n
    rw [length_readAt]
    exact Nat.min_le_left _ _
  · exact Nat.zero_le _

@[simp] theorem bytes_read (f : InFile) (n : Nat) : (f.read n).2.bytes = f.bytes := by
  unfold read
  split <;> rfl

@[simp] theorem bytes_seekTo (f : InFile) (p : Int) : (f.seekTo p).bytes = f.bytes := by
  unfold seekTo
  split <;> rfl

@[simp] theorem bytes_seekBy (f : InFile) (n : Int) : (f.seekBy n).bytes = f.bytes :=
  bytes_seekTo _ _

theorem good_iff : f.good = true ↔ f.eof = false ∧ f.fail = false := by
  unfold good
  simp

/-- **A read that does not fail** has found all it asked for. -/
theorem read_ok (h : (f.read n).2.fail = false) :
    f.good = true ∧ (f.read n).2.good = true ∧ (f.read n).2.pos = f.pos + n ∧
      (f.read n).1 = readAt f.bytes f.pos n ∧ (f.read n).1.length = n := by
  unfold read at h ⊢
  split at h
  · rename_i hgood
    have hle : (readAt f.bytes f.pos n).length ≤ n := by
      rw [length_readAt]
      exact Nat.min_le_left _ _
    have hlen : (readAt f.bytes f.pos n).length = n := by
      have := of_decide_eq_false h
      omega
    rw [if_pos hgood]
    refine ⟨hgood, ?_, ?_, rfl, hlen⟩
    · rw [good_iff]
      exact ⟨h, h⟩
    · show f.pos + _ = _
      rw [hlen]
  · cases h

/-- What is there is read. -/
theorem read_of_le (hgood : f.good = true) (h : f.pos + n ≤ f.bytes.length) :
    f.read n = (readAt f.bytes f.pos n, { f with pos := f.pos + n }) := by
  obtain ⟨heof, hfail⟩ := good_iff.mp hgood
  have hlen : (readAt f.bytes f.pos n).length = n := by
    rw [length_readAt]
    omega
  unfold read
  rw [if_pos hgood]
  dsimp only
  rw [hlen, decide_eq_false (Nat.lt_irrefl n), heof, hfail]

theorem good_read_of_le (hgood : f.good = true) (h : f.pos + n ≤ f.bytes.length) :
    (f.read n).2.good = true := by
  rw [read_of_le hgood h]
  exact hgood

/-- **A seek that does not fail** is where it wants to be. -/
theorem seekTo_ok {p : Int} (h : (f.seekTo p).fail = false) :
    f.fail = false ∧ (f.seekTo p).good = true ∧ ((f.seekTo p).pos : Int) = p := by
  unfold seekTo at h ⊢
  split at h
  · cases h
  · rename_i hp
    rw [not_or, Bool.not_eq_true, Int.not_lt] at hp
    rw [if_neg (by rw [not_or, Bool.not_eq_true, Int.not_lt]; exact hp)]
    exact ⟨hp.1, good_iff.mpr ⟨rfl, hp.1⟩, Int.toNat_of_nonneg hp.2⟩

theorem seekBy_ok {k : Int} (h : (f.seekBy k).fail = false) :
    f.fail = false ∧ (f.seekBy k).good = true ∧ ((f.seekBy k).pos : Int) = f.pos + k :=
  seekTo_ok h

/-- From one state of a file to another that is `n` bytes further on, unless it has failed. -/
structure Moved (f f' : InFile) (n : Int) : Prop where
  bytes : f'.bytes = f.bytes
  ok : f'.fail = false → f.fail = false ∧ f'.good = true ∧ (f'.pos : Int) = f.pos + n

theorem moved_read (f : InFile) (n : Nat) : Moved f (f.read n).2 n := by
  refine ⟨bytes_read f n, fun h => ?_⟩
  obtain ⟨hgood, hgood', hpos, -, -⟩ := read_ok h
  refine ⟨(good_iff.mp hgood).2, hgood', ?_⟩
  rw [hpos, Int.natCast_add]

theorem moved_seekBy (f : InFile) (n : Int) : Moved f (f.seekBy n) n :=
  ⟨bytes_seekBy f n, seekBy_ok⟩

theorem Moved.trans {f g h : InFile} {m n : Int} (h₁ : Moved f g m) (h₂ : Moved g h n) :
    Moved f h (m + n) := by
  refine ⟨h₂.bytes.trans h₁.bytes, fun hfail => ?_⟩
  obtain ⟨hg, hgood, hpos⟩ := h₂.ok hfail
  obtain ⟨hf, -, hpos'⟩ := h₁.ok hg
  refine ⟨hf, hgood, ?_⟩
  rw [hpos, hpos', Int.add_assoc]

end InFile

end Maixii.Lib
