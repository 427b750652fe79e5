import Mathlib.Data.Int.Bitwise
import Mathlib.Data.List.Basic

/-!
# `Lib/Pieces.lean`: a unit is sent in pieces and put together again

A sender cuts what is too long for one packet into pieces of at most `limit` elements, and marks the
first piece and the last. `pieces` is this loop; `receive` is the other side, which opens a unit at a
first piece, goes on with the others, and has the unit at the last. **What was cut is received
whole** (`receive_pieces`), whatever the receiver had before.
-/

set_option autoImplicit false

namespace Maixii.Lib

variable {α β : Type}

/-! ## Marks -/

/-- The first of a list has a mark and no other. -/
def OnlyFirst (p : α → Prop) (l : List α) : Prop :=
  ∃ x rest, l = x :: rest ∧ p x ∧ ∀ y ∈ rest, ¬ p y

/-- The final one of a list has a mark and no other. -/
def OnlyFinal (p : α → Prop) (l : List α) : Prop :=
  ∃ rest x, l = rest ++ [x] ∧ p x ∧ ∀ y ∈ rest, ¬ p y

theorem onlyFirst_map {q : β → Prop} {f : α → β} {l : List α} :
    OnlyFirst q (l.map f) ↔ OnlyFirst (fun x => q (f x)) l := by
  constructor
  · rintro ⟨x, rest, heq, hx, hrest⟩
    obtain ⟨a, as, rfl, rfl, rfl⟩ := List.map_eq_cons_iff.mp heq
    exact ⟨a, as, rfl, hx, fun y hy => hrest _ (List.mem_map_of_mem hy)⟩
  · rintro ⟨x, rest, rfl, hx, hrest⟩
    exact ⟨f x, rest.map f, rfl, hx, List.forall_mem_map.mpr hrest⟩

theorem onlyFinal_map {q : β → Prop} {f : α → β} {l : List α} :
    OnlyFinal q (l.map f) ↔ OnlyFinal (fun x => q (f x)) l := by
  constructor
  · rintro ⟨rest, x, heq, hx, hrest⟩
    obtain ⟨as, bs, rfl, rfl, hbs⟩ := List.map_eq_append_iff.mp heq
    obtain ⟨a, rfl, rfl⟩ := List.map_eq_singleton_iff.mp hbs
    exact ⟨as, a, rfl, hx, fun y hy => hrest _ (List.mem_map_of_mem hy)⟩
  · rintro ⟨rest, x, rfl, hx, hrest⟩
    exact ⟨rest.map f, f x, by simp, hx, List.forall_mem_map.mpr hrest⟩

theorem OnlyFinal.congr {p q : α → Prop} {l : List α} (h : OnlyFinal p l)
    (hpq : ∀ x ∈ l, p x ↔ q x) : OnlyFinal q l := by
  obtain ⟨rest, x, rfl, hx, hrest⟩ := h
  refine ⟨rest, x, rfl, (hpq x (by simp)).mp hx, ?_⟩
  intro y hy hq
  exact hrest y hy ((hpq y (List.mem_append_left _ hy)).mpr hq)

/-! ## Cutting -/

/-- A piece of a unit, and its place. -/
structure Piece (α : Type) where
  first : Bool
  last : Bool
  body : List α

/-- The loop; its first argument bounds the turns. -/
def pieces (limit : Nat) : Nat → Bool → List α → List (Piece α)
  | 0, _, _ => []
  | n + 1, first, body =>
      if limit < body.length then
        ⟨first, false, body.take limit⟩ :: pieces limit n false (body.drop limit)
      else
        [⟨first, true, body⟩]

section

variable {limit n : Nat} {body : List α}

theorem pieces_long (first : Bool) (h : limit < body.length) :
    pieces limit (n + 1) first body =
      ⟨first, false, body.take limit⟩ :: pieces limit n false (body.drop limit) :=
  if_pos h

theorem pieces_short (first : Bool) (h : body.length ≤ limit) :
    pieces limit (n + 1) first body = [⟨first, true, body⟩] :=
  if_neg (by omega)

theorem not_first_of_mem_pieces {p : Piece α} (h : p ∈ pieces limit n false body) :
    p.first = false := by
  induction n generalizing body with
  | zero => cases h
  | succ n ih =>
    by_cases hlong : limit < body.length
    · rw [pieces_long false hlong] at h
      rcases List.mem_cons.mp h with rfl | h
      · rfl
      · exact ih h
    · rw [pieces_short false (by omega), List.mem_singleton] at h
      rw [h]

theorem onlyFirst_pieces (hn : 0 < n) :
    OnlyFirst (fun p => p.first = true) (pieces limit n true body) := by
  obtain ⟨n, rfl⟩ := Nat.exists_eq_succ_of_ne_zero (Nat.ne_of_gt hn)
  by_cases hlong : limit < body.length
  · rw [pieces_long true hlong]
    refine ⟨_, _, rfl, rfl, ?_⟩
    intro p hp hfirst
    exact Bool.false_ne_true ((not_first_of_mem_pieces hp).symm.trans hfirst)
  · rw [pieces_short true (by omega)]
    exact ⟨_, _, rfl, rfl, List.forall_mem_nil _⟩

/-- With more than one piece, none is the first and the last. -/
theorem not_first_and_last (hlong : limit < body.length) {p : Piece α}
    (h : p ∈ pieces limit n true body) : ¬ (p.first = true ∧ p.last = true) := by
  cases n with
  | zero => cases h
  | succ n =>
    rw [pieces_long true hlong] at h
    rintro ⟨hfirst, hlast⟩
    rcases List.mem_cons.mp h with rfl | h
    · exact Bool.false_ne_true hlast
    · exact Bool.false_ne_true ((not_first_of_mem_pieces h).symm.trans hfirst)

/-- Every piece but the final one is full. -/
theorem pieces_final (first : Bool) (hlimit : 0 < limit) (hn : body.length < n) :
    ∃ rest y, pieces limit n first body = rest ++ [y] ∧ y.last = true ∧
      (∀ p ∈ rest, p.last = false ∧ p.body.length = limit) ∧
      body.length = rest.length * limit + y.body.length ∧ y.body.length ≤ limit ∧
      (body ≠ [] → y.body ≠ []) ∧ (rest ++ [y]).flatMap Piece.body = body := by
  induction n generalizing first body with
  | zero => omega
  | succ n ih =>
    by_cases hlong : limit < body.length
    · have hdrop : (body.drop limit).length = body.length - limit := List.length_drop
      have hshort : (body.drop limit).length < n := by omega
      obtain ⟨rest, y, heq, hy, hrest, hlen, hle, hne, hflat⟩ := ih false hshort
      rw [pieces_long first hlong, heq]
      refine ⟨⟨first, false, body.take limit⟩ :: rest, y, rfl, hy, ?_, ?_, hle, ?_, ?_⟩
      · intro p hp
        rcases List.mem_cons.mp hp with rfl | hp
        · exact ⟨rfl, by simp only [List.length_take]; omega⟩
        · exact hrest p hp
      · rw [List.length_cons, Nat.succ_mul]
        omega
      · intro _
        exact hne (List.ne_nil_of_length_pos (by omega))
      · rw [List.cons_append, List.flatMap_cons, hflat]
        exact List.take_append_drop limit body
    · rw [pieces_short first (by omega)]
      refine ⟨[], _, rfl, rfl, List.forall_mem_nil _, by simp, by dsimp only; omega, id, ?_⟩
      simp

theorem onlyFinal_pieces (first : Bool) (hlimit : 0 < limit) (hn : body.length < n) :
    OnlyFinal (fun p => p.last = true) (pieces limit n first body) := by
  obtain ⟨rest, y, heq, hy, hrest, -⟩ := pieces_final first hlimit hn
  refine ⟨rest, y, heq, hy, ?_⟩
  intro p hp hlast
  exact Bool.false_ne_true ((hrest p hp).1.symm.trans hlast)

/-- The pieces in their order are the unit. -/
theorem flatMap_pieces (first : Bool) (hlimit : 0 < limit) (hn : body.length < n) :
    (pieces limit n first body).flatMap Piece.body = body := by
  obtain ⟨rest, y, heq, -, -, -, -, -, hflat⟩ := pieces_final first hlimit hn
  rw [heq, hflat]

/-- No piece is empty, and none too long. -/
theorem length_of_mem_pieces {first : Bool} (hlimit : 0 < limit) (hn : body.length < n)
    (hne : body ≠ []) {p : Piece α} (h : p ∈ pieces limit n first body) :
    0 < p.body.length ∧ p.body.length ≤ limit := by
  obtain ⟨rest, y, heq, -, hrest, -, hle, hy, -⟩ := pieces_final first hlimit hn
  rw [heq] at h
  rcases List.mem_append.mp h with h | h
  · have hfull := (hrest p h).2
    omega
  · rw [List.mem_singleton.mp h]
    exact ⟨List.length_pos_iff.mpr (hy hne), hle⟩

/-- The final piece is full just when the limit divides the length. -/
theorem full_final_iff {first : Bool} (hlimit : 0 < limit) (hn : body.length < n) (hne : body ≠ [])
    {p : Piece α} (hp : p ∈ pieces limit n first body) (hlast : p.last = true) :
    p.body.length = limit ↔ limit ∣ body.length := by
  obtain ⟨rest, y, heq, -, hrest, hlen, hle, hpos, -⟩ := pieces_final first hlimit hn
  rw [heq] at hp
  rcases List.mem_append.mp hp with hp | hp
  · rw [(hrest p hp).1] at hlast
    exact absurd hlast Bool.false_ne_true
  · have hpos' : 0 < y.body.length := List.length_pos_iff.mpr (hpos hne)
    rw [List.mem_singleton.mp hp, hlen, Nat.dvd_add_right (Nat.dvd_mul_left limit _)]
    constructor
    · intro hfull
      exact ⟨1, by rw [Nat.mul_one, hfull]⟩
    · intro hdvd
      exact Nat.le_antisymm hle (Nat.le_of_dvd hpos' hdvd)

theorem two_le_length_pieces (first : Bool) (hn : body.length < n) (h : limit < body.length)
    (hlimit : 0 < limit) : 2 ≤ (pieces limit n first body).length := by
  obtain ⟨rest, y, heq, -, -, hlen, hle, -⟩ := pieces_final first hlimit hn
  rw [heq, List.length_append, List.length_singleton]
  cases rest with
  | nil =>
    simp only [List.length_nil, Nat.zero_mul, Nat.zero_add] at hlen
    omega
  | cons p rest =>
    rw [List.length_cons]
    omega

end

/-! ## The receiver -/

/-- What a packet is to the receiver: a whole unit, or a piece of one and the header that the unit
had. -/
inductive Arrival (α : Type)
  | whole (unit : List α)
  | part (head : List α) (piece : Piece α)

/-- The units that are complete, with the unit that is open. -/
def receive : Option (List α) → List (Arrival α) → List (List α)
  | _, [] => []
  | _, .whole unit :: rest => unit :: receive none rest
  | open', .part head piece :: rest =>
      let unit := if piece.first then some (head ++ piece.body) else open'.map (· ++ piece.body)
      if piece.last then unit.toList ++ receive none rest else receive unit rest

/-- Pieces that go on with a unit. -/
theorem receive_pieces_open {limit n : Nat} {body : List α} (hlimit : 0 < limit)
    (hn : body.length < n) (head done : List α) :
    receive (some done) ((pieces limit n false body).map (.part head)) = [done ++ body] := by
  induction n generalizing body done with
  | zero => omega
  | succ n ih =>
    by_cases hlong : limit < body.length
    · have hdrop : (body.drop limit).length < n := by
        rw [List.length_drop]
        omega
      rw [pieces_long false hlong, List.map_cons]
      show receive (some (done ++ body.take limit)) _ = _
      rw [ih hdrop, List.append_assoc, List.take_append_drop]
    · rw [pieces_short false (by omega)]
      rfl

/-- **What was cut is received whole.** -/
theorem receive_pieces {limit n : Nat} {body : List α} (hlimit : 0 < limit) (hn : body.length < n)
    (head : List α) (before : Option (List α)) :
    receive before ((pieces limit n true body).map (.part head)) = [head ++ body] := by
  obtain ⟨n, rfl⟩ := Nat.exists_eq_succ_of_ne_zero (show n ≠ 0 by omega)
  by_cases hlong : limit < body.length
  · have hdrop : (body.drop limit).length < n := by
      rw [List.length_drop]
      omega
    rw [pieces_long true hlong, List.map_cons]
    show receive (some (head ++ body.take limit)) _ = _
    rw [receive_pieces_open hlimit hdrop, List.append_assoc, List.take_append_drop]
  · rw [pieces_short true (by omega)]
    rfl

end Maixii.Lib
