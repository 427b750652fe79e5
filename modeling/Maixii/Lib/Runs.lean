import Mathlib.Data.Int.Bitwise
import Mathlib.Data.List.SplitBy

/-!
# `Lib/Runs.lean`: the maximal runs of a list

`runs f l` cuts a list wherever `f` changes. A list that grows at its end either lengthens its last
run or begins another (`runs_snoc_same`, `runs_snoc_new`), which is how a program sees it that only
remembers the last value.
-/

set_option autoImplicit false

namespace Maixii.Lib

variable {α β : Type} [DecidableEq β]

/-- The maximal runs of elements with one value of `f`. -/
def runs (f : α → β) (l : List α) : List (List α) := l.splitBy fun a b => f a == f b

variable {f : α → β} {l r : List α} {R : List (List α)} {a : α}

@[simp] theorem runs_nil (f : α → β) : runs f [] = [] := List.splitBy_nil _

theorem flatten_runs (f : α → β) (l : List α) : (runs f l).flatten = l := List.flatten_splitBy ..

theorem runs_eq_nil : runs f l = [] ↔ l = [] := List.splitBy_eq_nil

theorem ne_nil_of_mem_runs (h : r ∈ runs f l) : r ≠ [] := List.ne_nil_of_mem_splitBy h

/-- **In a run `f` does not change.** -/
theorem eq_of_mem_run (h : r ∈ runs f l) {b : α} (ha : a ∈ r) (hb : b ∈ r) : f a = f b := by
  have hchain : r.IsChain fun x y => f x = f y := by
    refine (List.isChain_of_mem_splitBy h).imp ?_
    intro x y hxy
    exact beq_iff_eq.mp hxy
  have : Std.Symm fun x y : α => f x = f y := ⟨fun _ _ hxy => hxy.symm⟩
  have : IsTrans α fun x y => f x = f y := ⟨fun _ _ _ hxy hyz => hxy.trans hyz⟩
  exact List.Pairwise.forall_of_forall (R := fun x y => f x = f y) (fun _ _ => rfl)
    (List.isChain_iff_pairwise.mp hchain) ha hb

/-- The last run ends where the list ends. -/
theorem getLast_of_runs (h : runs f l = R ++ [r]) : l.getLast? = r.getLast? := by
  have hne : r ≠ [] := ne_nil_of_mem_runs (f := f) (l := l) (by simp [h])
  rw [← flatten_runs f l, h, List.flatten_append, List.flatten_singleton,
    List.getLast?_append_of_ne_nil _ hne]

/-- **Another value begins another run.** -/
theorem runs_snoc_new (h : ∀ x ∈ l.getLast?, f x ≠ f a) :
    runs f (l ++ [a]) = runs f l ++ [[a]] := by
  refine List.splitBy_append_cons [] ?_
  intro x hx
  exact beq_eq_false_iff_ne.mpr (h x hx)

/-- **The same value lengthens the last run.** -/
theorem runs_snoc_same (hl : runs f l = R ++ [r]) (h : ∀ x ∈ r.getLast?, f x = f a) :
    runs f (l ++ [a]) = R ++ [r ++ [a]] := by
  obtain ⟨hflat, hnil, hchain, hends⟩ := List.splitBy_eq_iff.mp hl
  refine List.splitBy_eq_iff.mpr ⟨?_, ?_, ?_, ?_⟩
  · rw [hflat]
    simp
  · simp only [List.mem_append, List.mem_singleton, not_or] at hnil ⊢
    exact ⟨hnil.1, by simp⟩
  · intro m hm
    rcases List.mem_append.mp hm with hm | hm
    · exact hchain m (List.mem_append_left _ hm)
    · obtain rfl := List.mem_singleton.mp hm
      refine List.isChain_append.mpr ⟨hchain r (by simp), List.isChain_singleton _, ?_⟩
      intro x hx y hy
      obtain rfl : a = y := by simpa using hy
      exact beq_iff_eq.mpr (h x hx)
  · rw [List.isChain_append] at hends ⊢
    refine ⟨hends.1, List.isChain_singleton _, ?_⟩
    intro x hx y hy
    obtain rfl : r ++ [a] = y := by simpa using hy
    obtain ⟨hx', hr, hne⟩ := hends.2.2 x hx r (by simp)
    refine ⟨hx', by simp, ?_⟩
    rwa [List.head_append_of_ne_nil hr]

end Maixii.Lib
