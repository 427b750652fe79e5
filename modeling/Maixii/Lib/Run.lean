import Mathlib.Data.Int.Bitwise
import Mathlib.Data.List.Infix

/-!
# `Lib/Run.lean`: labelled systems, guarded runs and the invariant rule

Everything in this development that happens over time (a socket fed chunk by chunk, a queue
drained by partial writes, two threads taking turns) is a `System`: a set of start states and
one labelled step relation. A `Run` is a finite sequence of steps, and it carries a **guard**
on the steps it may take. The guard is how a property that fails in general is stated where it
does hold: `Run M G` are the runs all of whose steps meet `G`, and `Run M (fun _ _ => True)`
are all of them.

The one theorem that pays for this is `Run.inv`: what holds at the start and survives a guarded
step holds at the end of every guarded run.
-/

set_option autoImplicit false

namespace Maixii.Lib

/-- A labelled transition system: where it may start, and what one step may do. -/
structure System (σ ι : Type) where
  start : σ → Prop
  step : σ → ι → σ → Prop

section

variable {σ ι : Type} {M : System σ ι} {G : σ → ι → Prop}

/-- The guard that allows every step. -/
def anyStep (σ ι : Type) : σ → ι → Prop := fun _ _ => True

/-- Finite runs of `M` whose steps all meet the guard `G`, grown at the end. -/
inductive Run (M : System σ ι) (G : σ → ι → Prop) : σ → List ι → σ → Prop
  | nil (s : σ) : Run M G s [] s
  | snoc {s t u : σ} {is : List ι} {i : ι} :
      Run M G s is t → G t i → M.step t i u → Run M G s (is ++ [i]) u

/-- A state some guarded run from a start state ends in. -/
def Reach (M : System σ ι) (G : σ → ι → Prop) (t : σ) : Prop :=
  ∃ s is, M.start s ∧ Run M G s is t

/-- **The invariant rule.** -/
theorem Run.inv {P : σ → Prop} {s t : σ} {is : List ι} (hr : Run M G s is t) (hs : P s)
    (hstep : ∀ t i u, P t → G t i → M.step t i u → P u) : P t := by
  induction hr with
  | nil => exact hs
  | snoc _ hg hst ih => exact hstep _ _ _ ih hg hst

/-- The invariant rule over whole executions. -/
theorem Reach.inv {P : σ → Prop} {t : σ} (hr : Reach M G t) (hstart : ∀ s, M.start s → P s)
    (hstep : ∀ t i u, P t → G t i → M.step t i u → P u) : P t := by
  obtain ⟨s, is, hs, hrun⟩ := hr
  exact hrun.inv (hstart s hs) hstep

/-- The run of no step stays where it is. -/
theorem Run.of_nil {s t : σ} {is : List ι} (hr : Run M G s is t) (h : is = []) : t = s := by
  cases hr with
  | nil => rfl
  | snoc _ _ _ => simp at h

theorem Reach.start {s : σ} (h : M.start s) : Reach M G s := ⟨s, [], h, Run.nil s⟩

theorem Reach.next {t u : σ} {i : ι} (hr : Reach M G t) (hg : G t i) (hst : M.step t i u) :
    Reach M G u := by
  obtain ⟨s, is, hs, hrun⟩ := hr
  exact ⟨s, is ++ [i], hs, hrun.snoc hg hst⟩

/-- A run may be cut anywhere. -/
theorem Run.append {s t u : σ} {is js : List ι} (h₁ : Run M G s is t) (h₂ : Run M G t js u) :
    Run M G s (is ++ js) u := by
  induction h₂ with
  | nil => simpa using h₁
  | snoc _ hg hst ih =>
    rw [← List.append_assoc]
    exact ih.snoc hg hst

/-- A run that begins with a step. -/
theorem Run.uncons {s u : σ} {i : ι} {is : List ι} (hr : Run M G s (i :: is) u) :
    ∃ t, G s i ∧ M.step s i t ∧ Run M G t is u := by
  have key : ∀ (l : List ι) (u : σ), Run M G s l u → ∀ i is, l = i :: is →
      ∃ t, G s i ∧ M.step s i t ∧ Run M G t is u := by
    intro l u h
    induction h with
    | nil =>
      intro i is hl
      simp at hl
    | @snoc t u l j hrun hg hst ih =>
      intro i is hl
      cases l with
      | nil =>
        -- The last step is the first.
        obtain ⟨rfl, rfl⟩ := List.cons.inj hl
        obtain rfl := hrun.of_nil rfl
        exact ⟨u, hg, hst, Run.nil u⟩
      | cons k l =>
        obtain ⟨rfl, rfl⟩ := List.cons.inj hl
        obtain ⟨v, hgv, hsv, hrv⟩ := ih k l rfl
        exact ⟨v, hgv, hsv, hrv.snoc hg hst⟩
  exact key _ u hr i is rfl

/-- Where a run leads is reached. -/
theorem Reach.run {s t : σ} {is : List ι} (hr : Reach M G s) (h : Run M G s is t) :
    Reach M G t := by
  obtain ⟨s₀, js, hs, hrun⟩ := hr
  exact ⟨s₀, js ++ is, hs, hrun.append h⟩

/-- A weaker guard allows more runs. -/
theorem Run.mono {G' : σ → ι → Prop} {s t : σ} {is : List ι} (hr : Run M G s is t)
    (h : ∀ t i, G t i → G' t i) : Run M G' s is t := by
  induction hr with
  | nil => exact Run.nil s
  | snoc _ hg hst ih => exact ih.snoc (h _ _ hg) hst

/-- **The ranking rule.** A run whose steps all climb has climbed as often as it has steps. -/
theorem Run.climbs {P : σ → Prop} {rank : σ → Nat} {s t : σ} {is : List ι} (hr : Run M G s is t)
    (hs : P s) (hstep : ∀ t i u, P t → G t i → M.step t i u → P u ∧ rank t < rank u) :
    P t ∧ rank s + is.length ≤ rank t := by
  induction hr with
  | nil => exact ⟨hs, Nat.le_refl _⟩
  | snoc _ hg hst ih =>
    obtain ⟨hp, hlt⟩ := hstep _ _ _ ih.1 hg hst
    refine ⟨hp, ?_⟩
    rw [List.length_append, List.length_singleton]
    have hle := ih.2
    omega

/-- A run that climbs, and only takes steps below a bound, is no longer than that. -/
theorem Run.length_le {P : σ → Prop} {rank : σ → Nat} {bound : Nat} {s t : σ} {is : List ι}
    (hr : Run M G s is t) (hs : P s)
    (hstep : ∀ t i u, P t → G t i → M.step t i u → P u ∧ rank t < rank u)
    (hbound : ∀ t i u, P t → G t i → M.step t i u → rank t < bound) : is.length ≤ bound := by
  cases hr with
  | nil => exact Nat.zero_le _
  | snoc hrun hg hst =>
    obtain ⟨hp, hle⟩ := hrun.climbs hs hstep
    have hlt := hbound _ _ _ hp hg hst
    rw [List.length_append, List.length_singleton]
    omega

/-- A run that climbs does not come back. -/
theorem Run.ne {P : σ → Prop} {rank : σ → Nat} {s t : σ} {is : List ι} (hr : Run M G s is t)
    (hs : P s) (hstep : ∀ t i u, P t → G t i → M.step t i u → P u ∧ rank t < rank u)
    (hne : is ≠ []) : t ≠ s := by
  rintro rfl
  have hle := (hr.climbs hs hstep).2
  have hpos := List.length_pos_of_ne_nil hne
  omega

end

/-! ## Systems whose step is a function

Most systems here are deterministic once the label is fixed: the label carries everything the
outside world decides (the bytes `recv` returned, the outcome of `bind`, who runs next). -/

section Functional

variable {σ ι : Type}

/-- The system of a step function that may refuse a label. -/
def System.ofStep (start : σ → Prop) (f : σ → ι → Option σ) : System σ ι where
  start := start
  step s i t := f s i = some t

@[simp] theorem System.ofStep_start (start : σ → Prop) (f : σ → ι → Option σ) :
    (System.ofStep start f).start = start := rfl

@[simp] theorem System.ofStep_step (start : σ → Prop) (f : σ → ι → Option σ) (s : σ) (i : ι)
    (t : σ) : (System.ofStep start f).step s i t ↔ f s i = some t := Iff.rfl

/-- Running a step function over a list of labels, as far as the guard allows. -/
def runFrom (f : σ → ι → Option σ) (G : σ → ι → Prop) [∀ s i, Decidable (G s i)] :
    σ → List ι → Option σ
  | s, [] => some s
  | s, i :: is => if G s i then (f s i).bind fun t => runFrom f G t is else none

instance (s : σ) (i : ι) : Decidable (anyStep σ ι s i) := inferInstanceAs (Decidable True)

/-- What an execution computes is what a run of the system says. -/
theorem run_of_runFrom {start : σ → Prop} {f : σ → ι → Option σ} {G : σ → ι → Prop}
    [∀ s i, Decidable (G s i)] {s t : σ} {is : List ι} (h : runFrom f G s is = some t) :
    Run (System.ofStep start f) G s is t := by
  have key : ∀ (is js : List ι) (s t u : σ),
      Run (System.ofStep start f) G s js t → runFrom f G t is = some u →
        Run (System.ofStep start f) G s (js ++ is) u := by
    intro is
    induction is with
    | nil =>
      intro js s t u hr h
      simp only [runFrom, Option.some.injEq] at h
      simpa [← h] using hr
    | cons i is ih =>
      intro js s t u hr h
      simp only [runFrom] at h
      split at h
      · rename_i hg
        simp only [Option.bind_eq_some_iff] at h
        obtain ⟨v, hv, hu⟩ := h
        have := ih (js ++ [i]) s v u (hr.snoc hg hv) hu
        simpa using this
      · simp at h
  simpa using key is [] s s t (Run.nil s) h

/-- An execution from a start state reaches where it ends; what is read off its result holds of
a reachable state. -/
theorem reach_of_runFrom {α : Type} {start : σ → Prop} (f : σ → ι → Option σ)
    (G : σ → ι → Prop) [∀ s i, Decidable (G s i)] (s : σ) (is : List ι) (g : σ → α) (a : α)
    (hs : start s) (h : (runFrom f G s is).map g = some a) :
    ∃ t, Reach (System.ofStep start f) G t ∧ g t = a := by
  obtain ⟨t, ht, hg⟩ := Option.map_eq_some_iff.mp h
  exact ⟨t, ⟨s, is, hs, run_of_runFrom ht⟩, hg⟩

end Functional

end Maixii.Lib
