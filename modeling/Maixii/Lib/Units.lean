import Mathlib.Data.Int.Bitwise
import Mathlib.Data.List.SplitBy

/-!
# `Lib/Units.lean`: units that are told apart by their beginning

A sender cuts each unit into packets and marks the first; the packets of a unit stay together. A
receiver that begins anew at every mark gets the units back (`units_append`), and reads them one by
one (`readUnits_append`); what it reads can be read further (`readUnits_bind`).
-/

set_option autoImplicit false

namespace Maixii.Lib

variable {α β : Type}

/-- The packets from one mark up to the next. -/
def units (starts : α → Bool) (l : List α) : List (List α) := l.splitBy fun _ b => !starts b

/-- A unit: its first packet is marked, and no other. -/
def IsUnit (starts : α → Bool) (u : List α) : Prop :=
  ∃ a l, u = a :: l ∧ starts a = true ∧ ∀ b ∈ l, starts b = false

/-- All units, each read on its own. -/
def readUnits (starts : α → Bool) (read : List α → Option β) (l : List α) : Option (List β) :=
  (units starts l).mapM read

section

variable {starts : α → Bool} {read : List α → Option β} {l u : List α} {b : β} {bs : List β}

/-- A unit is not cut. -/
theorem units_of_isUnit (h : IsUnit starts u) : units starts u = [u] := by
  obtain ⟨a, l, rfl, -, hrest⟩ := h
  refine List.splitBy_of_isChain (List.cons_ne_nil a l) ?_
  induction l generalizing a with
  | nil => exact List.isChain_singleton a
  | cons b l ih =>
    refine List.isChain_cons_cons.mpr ⟨?_, ih b fun c hc => hrest c (List.mem_cons_of_mem b hc)⟩
    rw [hrest b List.mem_cons_self]
    rfl

/-- **One more unit** does not change those before it. -/
theorem units_append (h : IsUnit starts u) (l : List α) :
    units starts (l ++ u) = units starts l ++ [u] := by
  have hunit := units_of_isUnit h
  obtain ⟨a, m, rfl, hstart, -⟩ := h
  rw [← hunit]
  refine List.splitBy_append_cons m ?_
  intro x _
  rw [hstart]
  rfl

/-- **One more unit is read** behind those before it. -/
theorem readUnits_append (h : IsUnit starts u) (hl : readUnits starts read l = some bs)
    (hu : read u = some b) : readUnits starts read (l ++ u) = some (bs ++ [b]) := by
  unfold readUnits at hl ⊢
  rw [units_append h, List.mapM_append, hl]
  simp [hu]

/-- What has been read can be read further. -/
theorem readUnits_bind {γ : Type} {f : β → Option γ} {g : β → γ}
    (hl : readUnits starts read l = some bs) (hf : ∀ b ∈ bs, f b = some (g b)) :
    readUnits starts (fun u => (read u).bind f) l = some (bs.map g) := by
  unfold readUnits at hl ⊢
  generalize units starts l = us at hl
  induction us generalizing bs with
  | nil =>
    obtain rfl := Option.some.inj hl
    rfl
  | cons u us ih =>
    rw [List.mapM_cons] at hl ⊢
    cases hu : read u with
    | none => simp [hu] at hl
    | some b =>
      cases hus : us.mapM read with
      | none => simp [hu, hus] at hl
      | some cs =>
        simp only [hu, hus, Option.bind_eq_bind, Option.bind_some, Option.pure_def,
          Option.some.injEq] at hl
        subst hl
        have hrest := ih (fun c hc => hf c (List.mem_cons_of_mem b hc)) hus
        simp [hf b List.mem_cons_self, hrest]

end

end Maixii.Lib
