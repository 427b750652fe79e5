import Maixii.Lib.OutFile

/-!
# `Lib/OutStream.lean`: `std::ofstream`, with its state

`OutFile` is a file that is open and takes everything. A stream is more: it may be closed, and it
has two bits that say what went wrong. An operation on a stream that has failed does nothing; a seek
on a closed one sets `failbit`, and a write sets `badbit`. **Nothing is written by a closed stream**
(`Calm`), and one that is open and good stays so (`Good.write`, `Good.seek`).

The disk takes what is written to an open file.
-/

set_option autoImplicit false

namespace Maixii.Lib

/-- A stream; `file` is what it has open or had open last. -/
structure OutStream where
  file : OutFile
  isOpen : Bool
  failbit : Bool
  badbit : Bool
  deriving DecidableEq

namespace OutStream

/-- The default constructor. -/
def new : OutStream := ⟨.empty, false, false, false⟩

/-- `fail()`. -/
def fail (s : OutStream) : Bool := s.failbit || s.badbit

/-- `good()`. -/
def good (s : OutStream) : Bool := !s.fail

/-- `bad()`. -/
def bad (s : OutStream) : Bool := s.badbit

/-- `open(filename, binary|trunc)`; `granted` is whether the system opens the file. -/
def openFile (s : OutStream) (granted : Bool) : OutStream :=
  if s.isOpen || !granted then { s with failbit := true } else ⟨.empty, true, false, false⟩

/-- `close()`. -/
def closeFile (s : OutStream) : OutStream :=
  if s.isOpen then { s with isOpen := false } else { s with failbit := true }

/-- `clear()`. -/
def clear (s : OutStream) : OutStream := { s with failbit := false, badbit := false }

/-- `write(bs, n)`. A closed file takes no bytes. -/
def write (s : OutStream) (bs : Bytes) : OutStream :=
  if s.fail then { s with failbit := true }
  else if s.isOpen then { s with file := s.file.write bs }
  else if bs = [] then s
  else { s with badbit := true }

/-- `seekp(p)`, to a position that `tellp` has reported. -/
def seek (s : OutStream) (p : Nat) : OutStream :=
  if s.fail then s
  else if s.isOpen then { s with file := s.file.seek p }
  else { s with failbit := true }

/-- `seekp(0, end)`. -/
def seekEnd (s : OutStream) : OutStream :=
  if s.fail then s
  else if s.isOpen then { s with file := s.file.seekEnd }
  else { s with failbit := true }

/-- `tellp()`, as a `uint64_t`; −1 if there is no position. -/
def tell (s : OutStream) : Nat :=
  if s.good && s.isOpen then s.file.pos else 2 ^ 64 - 1

/-! ## Open and good -/

/-- An open file in which nothing has gone wrong. -/
def opened (f : OutFile) : OutStream := ⟨f, true, false, false⟩

section Opened

variable (f : OutFile) (bs : Bytes) (p : Nat)

@[simp] theorem opened_write : (opened f).write bs = opened (f.write bs) := rfl
@[simp] theorem opened_seek : (opened f).seek p = opened (f.seek p) := rfl
@[simp] theorem opened_seekEnd : (opened f).seekEnd = opened f.seekEnd := rfl
@[simp] theorem opened_clear : (opened f).clear = opened f := rfl
@[simp] theorem opened_tell : (opened f).tell = f.pos := rfl
@[simp] theorem opened_file : (opened f).file = f := rfl
@[simp] theorem opened_good : (opened f).good = true := rfl
@[simp] theorem opened_bad : (opened f).bad = false := rfl

end Opened

/-- **Many writes in a row** go to the file. -/
theorem opened_foldl {α : Type} (g : α → Bytes) (as : List α) (f : OutFile) :
    as.foldl (fun s a => s.write (g a)) (opened f) =
      opened (as.foldl (fun f a => f.write (g a)) f) := by
  induction as generalizing f with
  | nil => rfl
  | cons a as ih => exact ih (f.write (g a))

/-- A stream is open and good exactly when it is an open file in which nothing has gone wrong. -/
theorem eq_opened {s : OutStream} (ho : s.isOpen = true) (hg : s.good = true) :
    s = opened s.file := by
  obtain ⟨file, isOpen, failbit, badbit⟩ := s
  simp only [good, fail, Bool.not_eq_true', Bool.or_eq_false_iff] at hg
  simp only at ho
  obtain ⟨rfl, rfl⟩ := hg
  subst ho
  rfl

/-! ## Calm operations -/

/-- An operation that neither opens nor closes: a closed stream writes nothing, and an open one does
not go bad. -/
structure Calm (s t : OutStream) : Prop where
  isOpen : t.isOpen = s.isOpen
  file : s.isOpen = false → t.file = s.file
  bad : s.isOpen = true → t.badbit = true → s.badbit = true

theorem Calm.refl (s : OutStream) : Calm s s := ⟨rfl, fun _ => rfl, fun _ h => h⟩

theorem Calm.trans {s t u : OutStream} (h₁ : Calm s t) (h₂ : Calm t u) : Calm s u where
  isOpen := h₂.isOpen.trans h₁.isOpen
  file h := (h₂.file (h₁.isOpen.trans h)).trans (h₁.file h)
  bad h hb := h₁.bad h (h₂.bad (h₁.isOpen.trans h) hb)

variable {s t : OutStream}

theorem Calm.write (h : Calm s t) (bs : Bytes) : Calm s (t.write bs) := by
  refine h.trans ?_
  unfold OutStream.write
  split
  · exact ⟨rfl, fun _ => rfl, fun _ h => h⟩
  · split
    · rename_i ho
      exact ⟨rfl, fun h => by simp [h] at ho, fun _ h => h⟩
    · rename_i ho
      split
      · exact .refl t
      · exact ⟨rfl, fun _ => rfl, fun h => absurd h ho⟩

theorem Calm.seek (h : Calm s t) (p : Nat) : Calm s (t.seek p) := by
  refine h.trans ?_
  unfold OutStream.seek
  split
  · exact .refl t
  · split
    · rename_i ho
      exact ⟨rfl, fun h => by simp [h] at ho, fun _ h => h⟩
    · exact ⟨rfl, fun _ => rfl, fun _ h => h⟩

theorem Calm.seekEnd (h : Calm s t) : Calm s t.seekEnd := by
  refine h.trans ?_
  unfold OutStream.seekEnd
  split
  · exact .refl t
  · split
    · rename_i ho
      exact ⟨rfl, fun h => by simp [h] at ho, fun _ h => h⟩
    · exact ⟨rfl, fun _ => rfl, fun _ h => h⟩

theorem Calm.clear (h : Calm s t) : Calm s t.clear :=
  h.trans ⟨rfl, fun _ => rfl, fun _ h => by simp [OutStream.clear] at h⟩

/-- Many calm operations in a row are calm. -/
theorem Calm.foldl {α : Type} {op : OutStream → α → OutStream} (h : Calm s t)
    (hop : ∀ u a, Calm u (op u a)) (as : List α) : Calm s (as.foldl op t) := by
  induction as generalizing t with
  | nil => exact h
  | cons a as ih => exact ih (h.trans (hop t a))

/-! ## Failed streams -/

theorem fail_write {s : OutStream} (h : s.fail = true) (bs : Bytes) : (s.write bs).fail = true := by
  unfold write
  rw [if_pos h]
  rfl

theorem seek_of_fail {s : OutStream} (h : s.fail = true) (p : Nat) : s.seek p = s := if_pos h

theorem seekEnd_of_fail {s : OutStream} (h : s.fail = true) : s.seekEnd = s := if_pos h

/-- A seek fails if the stream is not open and good. -/
theorem fail_seek {s : OutStream} (h : ¬ (s.isOpen = true ∧ s.good = true)) (p : Nat) :
    (s.seek p).fail = true := by
  unfold seek
  by_cases hf : s.fail = true
  · rw [if_pos hf]
    exact hf
  · rw [if_neg hf]
    have ho : ¬ s.isOpen = true := by
      intro ho
      refine h ⟨ho, ?_⟩
      unfold good
      rw [Bool.not_eq_true] at hf
      rw [hf]
      rfl
    rw [if_neg ho]
    rfl

end OutStream

end Maixii.Lib
