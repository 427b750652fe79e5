import Mathlib.Data.Int.Bitwise
import Mathlib.Data.List.Basic

/-!
# `Lib/Machine.lean`: machines that answer, and simulation

A component that is called and answers is a function from a state and a call to an answer and the
next state. `answers` are those to a sequence of calls. **Simulation**: two machines that answer a
call alike, and stay related, answer every sequence alike (`simulates`), as far as every call meets
the guard at the state it finds.
-/

set_option autoImplicit false

namespace Maixii.Lib

section

variable {σ τ ι ο : Type} {f : σ → ι → ο × σ} {g : τ → ι → ο × τ} {G : σ → ι → Prop}

/-- The answers to a sequence of calls, and the state after them. -/
def answers (f : σ → ι → ο × σ) : σ → List ι → List ο × σ
  | s, [] => ([], s)
  | s, i :: is => ((f s i).1 :: (answers f (f s i).2 is).1, (answers f (f s i).2 is).2)

/-- Every call meets the guard at the state it finds. -/
def Guarded (f : σ → ι → ο × σ) (G : σ → ι → Prop) : σ → List ι → Prop
  | _, [] => True
  | s, i :: is => G s i ∧ Guarded f G (f s i).2 is

/-- Something holds at the start, and after every call. -/
def Always (f : σ → ι → ο × σ) (P : σ → Prop) : σ → List ι → Prop
  | s, [] => P s
  | s, i :: is => P s ∧ Always f P (f s i).2 is

@[simp] theorem answers_nil (s : σ) : answers f s [] = ([], s) := rfl

theorem answers_append (s : σ) (is js : List ι) :
    answers f s (is ++ js) =
      ((answers f s is).1 ++ (answers f (answers f s is).2 js).1,
        (answers f (answers f s is).2 js).2) := by
  induction is generalizing s with
  | nil => rfl
  | cons i is ih =>
    rw [List.cons_append, answers, ih]
    rfl

@[simp] theorem length_answers (s : σ) (is : List ι) : (answers f s is).1.length = is.length := by
  induction is generalizing s with
  | nil => rfl
  | cons i is ih => rw [answers, List.length_cons, List.length_cons, ih]

/-- Machines that answer a sequence alike answer the end of it alike. -/
theorem answers_append_inj {s : σ} {t : τ} {is js : List ι}
    (h : (answers f s (is ++ js)).1 = (answers g t (is ++ js)).1) :
    (answers f (answers f s is).2 js).1 = (answers g (answers g t is).2 js).1 := by
  rw [answers_append, answers_append] at h
  exact List.append_inj_right h (by rw [length_answers, length_answers])

/-- A guard that an invariant of the machine sees to. -/
theorem guarded_of_inv {P : σ → Prop} {p : ι → Prop} {s : σ} {is : List ι} (hs : P s)
    (hstep : ∀ s i, P s → p i → G s i ∧ P (f s i).2) (hall : ∀ i ∈ is, p i) :
    Guarded f G s is := by
  induction is generalizing s with
  | nil => trivial
  | cons i is ih =>
    obtain ⟨hi, his⟩ := List.forall_mem_cons.mp hall
    obtain ⟨hguard, hnext⟩ := hstep s i hs hi
    exact ⟨hguard, ih hnext his⟩

/-- **The simulation rule.** -/
theorem simulates {R : σ → τ → Prop} {s : σ} {t : τ} {is : List ι} (h : R s t)
    (hstep : ∀ s t i, R s t → G s i → (f s i).1 = (g t i).1 ∧ R (f s i).2 (g t i).2)
    (hG : Guarded f G s is) :
    (answers f s is).1 = (answers g t is).1 ∧ R (answers f s is).2 (answers g t is).2 := by
  induction is generalizing s t with
  | nil => exact ⟨rfl, h⟩
  | cons i is ih =>
    obtain ⟨hanswer, hnext⟩ := hstep s t i h hG.1
    obtain ⟨hanswers, hend⟩ := ih hnext hG.2
    refine ⟨?_, hend⟩
    rw [answers, answers, hanswer, hanswers]

theorem Always.last {P : σ → Prop} {s : σ} {is : List ι} (h : Always f P s is) :
    P (answers f s is).2 := by
  induction is generalizing s with
  | nil => exact h
  | cons i is ih => exact ih h.2

/-- **The invariant rule.** -/
theorem always_of_guarded {P Q : σ → Prop} {s : σ} {is : List ι} (hs : Q s)
    (hstep : ∀ s i, Q s → G s i → Q (f s i).2) (hP : ∀ s, Q s → P s) (hG : Guarded f G s is) :
    Always f P s is := by
  induction is generalizing s with
  | nil => exact hP s hs
  | cons i is ih => exact ⟨hP s hs, ih (hstep s i hs hG.1) hG.2⟩

/-- The guard is needed, if a call that does not meet it breaks what is to hold. -/
theorem guarded_of_always {P Q : σ → Prop} {s : σ} {is : List ι} (hs : Q s)
    (hstep : ∀ s i, Q s → G s i → Q (f s i).2) (hbad : ∀ s i, Q s → ¬ G s i → ¬ P (f s i).2)
    (hall : Always f P s is) : Guarded f G s is := by
  induction is generalizing s with
  | nil => trivial
  | cons i is ih =>
    have hnext : P (f s i).2 := by
      cases is with
      | nil => exact hall.2
      | cons j js => exact hall.2.1
    have hguard : G s i := Classical.byContradiction (fun hG => hbad s i hs hG hnext)
    exact ⟨hguard, ih (hstep s i hs hguard) hall.2⟩

end

end Maixii.Lib
