import Mathlib.Data.Int.Bitwise
import Mathlib.Data.List.Chain
import Mathlib.Data.Nat.ModEq

/-!
# `Lib/Numbered.lean`: numbered items some of which are lost, and what can be told from the numbers

A sender counts what it sends modulo `m`. Some of it is lost; the rest arrives in order, with its
numbers. The receiver can tell from consecutive numbers that nothing is missing in between, as long
as fewer than `m` items are lost in a row (`Delivery.infix`).

What is sent are often the parts of larger **blocks**, with a mark on the first part of a block and
one on its last. Whoever takes the parts from a first one to the next last one, and misses none, has
a whole block (`infix_of_blocks`); blocks without a first part are never taken for one.
-/

set_option autoImplicit false

namespace Maixii.Lib

section

variable {α β : Type} (m : Nat) (num : α → Nat) (body : α → β)

/-- What has been sent, what of it has arrived, and how many have been lost since. -/
inductive Delivery (base : Nat) : List β → List α → Nat → Prop
  | nil : Delivery base [] [] 0
  | arrives {sent : List β} {got : List α} {lost : Nat} {x : α} (h : Delivery base sent got lost)
      (hlost : lost < m) (hnum : num x ≡ base + sent.length [MOD m]) :
      Delivery base (sent ++ [body x]) (got ++ [x]) 0
  | lost {sent : List β} {got : List α} {lost : Nat} (y : β) (h : Delivery base sent got lost) :
      Delivery base (sent ++ [y]) got (lost + 1)

/-- Every number is the one before plus one. -/
def Consecutive (l : List α) : Prop := l.IsChain fun x y => num y ≡ num x + 1 [MOD m]

instance (l : List α) : Decidable (Consecutive m num l) := inferInstanceAs (Decidable (l.IsChain _))

variable {m num body} {base lost : Nat} {sent : List β} {got : List α}

/-- The counter may start anywhere before anything is sent. -/
theorem Delivery.rebase (h : Delivery m num body base sent got lost) (hnil : sent = [])
    (base' : Nat) : Delivery m num body base' sent got lost := by
  cases h with
  | nil => exact .nil
  | arrives _ _ _ => simp at hnil
  | lost _ _ => simp at hnil

/-- The latest items, if their numbers are consecutive, were sent one after the other, and their
last number tells how many have been lost since. -/
theorem Delivery.suffix (h : Delivery m num body base sent got lost) :
    ∀ (pre seg : List α) (x : α), got = pre ++ (seg ++ [x]) → Consecutive m num (seg ++ [x]) →
      (∃ a c, sent = a ++ (seg ++ [x]).map body ++ c ∧ c.length = lost) ∧
        num x + (lost + 1) ≡ base + sent.length [MOD m] := by
  induction h with
  | nil =>
    intro pre seg x hgot
    simp at hgot
  | @arrives sent got lost y h hlost hnum ih =>
    intro pre seg x hgot hseg
    rw [← List.append_assoc] at hgot
    obtain ⟨hrest, hxy⟩ := List.append_inj' hgot rfl
    obtain rfl := List.singleton_inj.mp hxy
    clear hgot
    have hnext : num y + (0 + 1) ≡ base + (sent ++ [body y]).length [MOD m] := by
      rw [List.length_append, List.length_singleton, ← Nat.add_assoc]
      exact hnum.add_right 1
    refine ⟨?_, hnext⟩
    rcases List.eq_nil_or_concat seg with rfl | ⟨seg, z, rfl⟩
    · exact ⟨sent, [], by simp, rfl⟩
    · rw [List.concat_eq_append] at hrest hseg ⊢
      rw [List.append_assoc, Consecutive, List.singleton_append, List.isChain_append_cons_cons] at hseg
      obtain ⟨hchain, hzy, -⟩ := hseg
      obtain ⟨⟨a, c, hsent, hc⟩, hz⟩ := ih pre seg z hrest hchain
      -- The number of `y` leaves no room for a loss.
      have hmod : lost + (num z + 1) ≡ 0 + (num z + 1) [MOD m] := by
        have h₁ : lost + (num z + 1) = num z + (lost + 1) := by omega
        rw [h₁, Nat.zero_add]
        exact (hz.trans hnum.symm).trans hzy
      have hzero : lost = 0 := by
        have h₀ : lost ≡ 0 [MOD m] := Nat.ModEq.add_right_cancel' _ hmod
        exact Nat.eq_zero_of_dvd_of_lt ((Nat.modEq_zero_iff_dvd).mp h₀) hlost
      obtain rfl := List.length_eq_zero_iff.mp (hc.trans hzero)
      refine ⟨a, [], ?_, rfl⟩
      rw [hsent]
      simp
  | @lost sent got lost y h ih =>
    intro pre seg x hgot hseg
    obtain ⟨⟨a, c, hsent, hc⟩, hx⟩ := ih pre seg x hgot hseg
    refine ⟨⟨a, c ++ [y], ?_, ?_⟩, ?_⟩
    · rw [hsent, List.append_assoc]
    · rw [List.length_append, hc, List.length_singleton]
    · rw [List.length_append, List.length_singleton, ← Nat.add_assoc, ← Nat.add_assoc]
      exact hx.add_right 1

/-- **Consecutive numbers**: what has arrived with them was sent in a row. -/
theorem Delivery.infix (h : Delivery m num body base sent got lost) {pre seg post : List α}
    (hgot : got = pre ++ seg ++ post) (hseg : Consecutive m num seg) : seg.map body <:+: sent := by
  induction h generalizing post with
  | nil =>
    obtain ⟨-, rfl, -⟩ : pre = [] ∧ seg = [] ∧ post = [] := by simpa using hgot
    exact List.infix_rfl
  | @arrives sent got lost y h hlost hnum ih =>
    rcases List.eq_nil_or_concat post with rfl | ⟨post, z, rfl⟩
    · rcases List.eq_nil_or_concat seg with rfl | ⟨seg, x, rfl⟩
      · exact List.nil_infix
      · rw [List.concat_eq_append] at hgot hseg ⊢
        rw [List.append_nil] at hgot
        obtain ⟨⟨a, c, hsent, -⟩, -⟩ := (h.arrives hlost hnum).suffix pre seg x hgot hseg
        exact ⟨a, c, hsent.symm⟩
    · rw [List.concat_eq_append, ← List.append_assoc] at hgot
      exact (ih (List.append_inj' hgot rfl).1).trans (List.prefix_append _ _).isInfix
  | @lost sent got lost y h ih => exact (ih hgot).trans (List.prefix_append _ _).isInfix

end

section

variable {β : Type} (first last : β → Prop)

/-- The parts of a block: the first is marked as such, the last is, and no other; or there is no
first part. -/
inductive Block : List β → Prop
  | headless {block : List β} (h : ∀ x ∈ block, ¬ first x) : Block block
  | whole {x y : β} {mid : List β} (hx : first x ∧ ¬ last x)
      (hmid : ∀ z ∈ mid, ¬ first z ∧ ¬ last z) (hy : ¬ first y ∧ last y) :
      Block (x :: mid ++ [y])

variable {first last}

/-- The first marked element of a list is where it is. -/
theorem append_cons_inj {mid mid' post post' : List β} {y y' : β} (hmid : ∀ z ∈ mid, ¬ last z)
    (hy : last y) (hmid' : ∀ z ∈ mid', ¬ last z) (hy' : last y')
    (h : mid ++ y :: post = mid' ++ y' :: post') : mid = mid' ∧ y = y' := by
  induction mid generalizing mid' with
  | nil =>
    cases mid' with
    | nil => exact ⟨rfl, (List.cons.inj h).1⟩
    | cons z mid' =>
      obtain rfl : y = z := (List.cons.inj h).1
      exact absurd hy (hmid' y List.mem_cons_self)
  | cons z mid ih =>
    cases mid' with
    | nil =>
      obtain rfl : z = y' := (List.cons.inj h).1
      exact absurd hy' (hmid z List.mem_cons_self)
    | cons z' mid' =>
      obtain ⟨rfl, htail⟩ := List.cons.inj h
      obtain ⟨rfl, rfl⟩ := ih (fun w hw => hmid w (List.mem_cons_of_mem _ hw))
        (fun w hw => hmid' w (List.mem_cons_of_mem _ hw)) htail
      exact ⟨rfl, rfl⟩

/-- **From a first part to the next last one**, with nothing missing, is a whole block. -/
theorem infix_of_blocks {blocks : List (List β)} {pre post mid : List β} {x y : β}
    (hblocks : ∀ block ∈ blocks, Block first last block) (hx : first x) (hmid : ∀ z ∈ mid, ¬ last z)
    (hy : last y) (h : blocks.flatten = pre ++ (x :: mid ++ [y]) ++ post) :
    x :: mid ++ [y] ∈ blocks := by
  induction blocks generalizing pre with
  | nil => simp at h
  | cons block blocks ih =>
    have htail : ∀ b ∈ blocks, Block first last b := fun b hb =>
      hblocks b (List.mem_cons_of_mem _ hb)
    rw [List.flatten_cons, List.append_assoc] at h
    rcases List.append_eq_append_iff.mp h with ⟨c, hc, hrest⟩ | ⟨c, hc, hrest⟩
    · -- The segment begins behind this block.
      exact List.mem_cons_of_mem _ (ih htail (hrest.trans (List.append_assoc ..).symm))
    · cases c with
      | nil =>
        refine List.mem_cons_of_mem _ (ih htail (?_ : _ = [] ++ _ ++ _))
        rw [List.nil_append] at hrest
        rw [List.nil_append]
        exact hrest.symm
      | cons w c =>
        obtain rfl : x = w := by
          simp only [List.cons_append, List.append_assoc] at hrest
          exact (List.cons.inj hrest).1
        cases hblocks block List.mem_cons_self with
        | headless hno => exact absurd hx (hno x (by rw [hc]; simp))
        | @whole x' y' mid' hx' hmid' hy' =>
          cases pre with
          | cons p pre =>
            -- Only the first part of the block is a first part.
            have hmem : x ∈ mid' ++ [y'] := by
              have hcm : mid' ++ [y'] = pre ++ x :: c := (List.cons.inj hc).2
              rw [hcm]
              simp
            rcases List.mem_append.mp hmem with hm | hm
            · exact absurd hx (hmid' x hm).1
            · obtain rfl := List.mem_singleton.mp hm
              exact absurd hx hy'.1
          | nil =>
            obtain ⟨rfl, hcm⟩ := List.cons.inj hc
            subst hcm
            have heq : mid ++ y :: post = mid' ++ y' :: blocks.flatten := by
              have := (List.cons.inj hrest).2
              simpa using this
            obtain ⟨rfl, rfl⟩ :=
              append_cons_inj hmid hy (fun z hz => (hmid' z hz).2) hy'.2 heq
            exact List.mem_cons_self

end

end Maixii.Lib
