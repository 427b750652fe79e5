import Mathlib.Logic.Function.Basic
import Maixii.Lib.Ring

/-!
# `Lib/Spill.lean`: a ring that spills to a file

A table grows word by word in a ring of `cap` places of a memory, from `start` on. When the ring is
full, its oldest `page` words go to the end of a file and their places are used again. `Spilled`
says where the words of the table are, `Kept` what the pointers say between two of them; storing a
word and settling afterwards (`Kept.store`, `Stored.spill`, `Stored.rest`) keep it, and reading the
file and then the ring gives the whole table back (`Spilled.drain`).
-/

set_option autoImplicit false

namespace Maixii.Lib

variable {α : Type}

/-! ## Pointers and files -/

/-- A pointer moved on by `n`; behind the last place it is put back to the first. -/
def advance (start last ptr n : Nat) : Nat := if last < ptr + n then start else ptr + n

/-- `n` words as they lie in the memory. -/
def words (mem : Nat → α) (ptr n : Nat) : List α := (List.range n).map fun k => mem (ptr + k)

/-- `n` words, the pointer put back whenever it is behind the last place. -/
def wordsRound (mem : Nat → α) (start last : Nat) : Nat → Nat → List α
  | _, 0 => []
  | ptr, n + 1 => mem ptr :: wordsRound mem start last (advance start last ptr 1) n

/-- Something is written over a file at `pos`; a hole behind the end is filled. -/
def overwrite [Inhabited α] (file : List α) (pos : Nat) (ys : List α) : List α :=
  file.take pos ++ List.replicate (pos - file.length) default ++ ys ++ file.drop (pos + ys.length)

@[simp] theorem length_words (mem : Nat → α) (ptr n : Nat) : (words mem ptr n).length = n := by
  rw [words, List.length_map, List.length_range]

@[simp] theorem length_wordsRound (mem : Nat → α) (start last ptr n : Nat) :
    (wordsRound mem start last ptr n).length = n := by
  induction n generalizing ptr with
  | zero => rfl
  | succ n ih => rw [wordsRound, List.length_cons, ih]

/-- A word stored behind some others. -/
theorem words_update (mem : Nat → α) (n : Nat) (v : α) :
    words (Function.update mem n v) 0 (n + 1) = words mem 0 n ++ [v] := by
  rw [words, words, List.range_succ, List.map_append, List.map_singleton, Nat.zero_add,
    Function.update_self]
  refine congrArg (· ++ [v]) (List.map_congr_left ?_)
  intro k hk
  rw [Nat.zero_add, Function.update_of_ne (Nat.ne_of_lt (List.mem_range.mp hk))]

/-- At the end, it is appended. -/
theorem overwrite_end [Inhabited α] (file ys : List α) {pos : Nat} (h : pos = file.length) :
    overwrite file pos ys = file ++ ys := by
  subst h
  rw [overwrite, List.take_length, Nat.sub_self, List.replicate_zero, List.append_nil,
    List.drop_eq_nil_of_le (Nat.le_add_right _ _), List.append_nil]

/-- **Within the ring a pointer moves modulo its length.** -/
theorem advance_eq {start cap i n : Nat} (hi : i + n ≤ cap) (hcap : i < cap) :
    advance start (start + cap - 1) (start + i) n = start + (i + n) % cap := by
  unfold advance
  by_cases hend : i + n = cap
  · rw [if_pos (by omega), hend, Nat.mod_self, Nat.add_zero]
  · rw [if_neg (by omega), Nat.mod_eq_of_lt (by omega), Nat.add_assoc]

/-! ## How many pages are gone -/

/-- The pages in the file when `n` words have been stored: the first goes when the ring is full,
another with every page from then on. -/
def pagesGone (cap page n : Nat) : Nat := n / page - (cap / page - 1)

/-- A ring of whole pages. -/
structure Paged (cap page : Nat) : Prop where
  page_pos : 0 < page
  cap_pos : 0 < cap
  dvd : page ∣ cap

/-- Nothing is gone that was not stored. -/
theorem pagesGone_le (cap page n : Nat) : pagesGone cap page n * page ≤ n :=
  Nat.le_trans (Nat.mul_le_mul_right _ (Nat.sub_le _ _)) (Nat.div_mul_le_self n page)

section

variable {cap page n : Nat} (hp : Paged cap page)

include hp

theorem Paged.cap_eq : cap = cap / page * page := (Nat.div_mul_cancel hp.dvd).symm

theorem Paged.one_le : 1 ≤ cap / page :=
  (Nat.one_le_div_iff hp.page_pos).mpr (Nat.le_of_dvd hp.cap_pos hp.dvd)

/-- The ring's own pages on top of those gone are one more than the whole pages stored, or all of
them when nothing is gone. -/
theorem Paged.lt_gone : n / page < pagesGone cap page n + cap / page := by
  have hone := hp.one_le
  unfold pagesGone
  omega

theorem Paged.room_eq :
    pagesGone cap page n * page + cap = (pagesGone cap page n + cap / page) * page := by
  rw [Nat.add_mul, ← hp.cap_eq]

/-- **A place is always free** between two words. -/
theorem Paged.lt_room : n < pagesGone cap page n * page + cap := by
  rw [hp.room_eq]
  exact (Nat.div_lt_iff_lt_mul hp.page_pos).mp hp.lt_gone

/-- One word more is at most one page more. -/
theorem Paged.succ_div : (n + 1) / page ≤ n / page + 1 := by
  rw [← Nat.add_div_right n hp.page_pos]
  exact Nat.div_le_div_right (Nat.add_le_add_left hp.page_pos n)

/-- **A full ring spills one page**, -/
theorem Paged.gone_full (hfull : cap ≤ n + 1 - pagesGone cap page n * page) :
    pagesGone cap page (n + 1) = pagesGone cap page n + 1 := by
  have hle := pagesGone_le cap page n
  have hreach : pagesGone cap page n + cap / page ≤ (n + 1) / page := by
    rw [Nat.le_div_iff_mul_le hp.page_pos, ← hp.room_eq]
    omega
  have hone := hp.one_le
  have hsucc := hp.succ_div (n := n)
  unfold pagesGone at hreach ⊢
  generalize (n + 1) / page = m, n / page = q, cap / page = c at *
  omega

/-- and another none. -/
theorem Paged.gone_room (hroom : n + 1 - pagesGone cap page n * page < cap) :
    pagesGone cap page (n + 1) = pagesGone cap page n := by
  have hle := pagesGone_le cap page n
  have hbelow : (n + 1) / page < pagesGone cap page n + cap / page := by
    rw [Nat.div_lt_iff_lt_mul hp.page_pos, ← hp.room_eq]
    omega
  have hone := hp.one_le
  have hsucc := hp.succ_div (n := n)
  have hmono : n / page ≤ (n + 1) / page := Nat.div_le_div_right (Nat.le_succ n)
  unfold pagesGone at hbelow ⊢
  generalize (n + 1) / page = m, n / page = q, cap / page = c at *
  omega

end

/-! ## Where the words are -/

/-- **The table `l`**: its first `p` pages are in the file, the rest goes round in the ring. -/
structure Spilled (start cap page : Nat) (mem : Nat → α) (file : List α) (p : Nat)
    (l : List α) : Prop where
  window : Window cap (fun i => some (mem (start + i))) (p * page % cap) (l.drop (p * page))
  file_eq : file = l.take (p * page)
  whole : p * page ≤ l.length

section

variable {start cap page p n : Nat} {mem mem' : Nat → α} {file l : List α} {v : α}

theorem spilled_nil (hcap : 0 < cap) (mem : Nat → α) : Spilled start cap page mem [] 0 [] where
  window := by
    rw [Nat.zero_mul, Nat.zero_mod]
    exact window_nil hcap
  file_eq := List.take_nil.symm
  whole := by rw [Nat.zero_mul, List.length_nil]

/-- Only the ring's own places matter. -/
theorem Spilled.congr (h : Spilled start cap page mem file p l)
    (heq : ∀ a, start ≤ a → a < start + cap → mem' a = mem a) :
    Spilled start cap page mem' file p l where
  window := by
    refine h.window.congr ?_
    intro j hj
    have hlt := Nat.mod_lt (p * page % cap + j) (Nat.zero_lt_of_lt h.window.front_lt)
    rw [heq _ (Nat.le_add_right _ _) (Nat.add_lt_add_left hlt start)]
  file_eq := h.file_eq
  whole := h.whole

/-- **A word is put behind the last.** -/
theorem Spilled.store (h : Spilled start cap page mem file p l) (v : α)
    (hroom : l.length < p * page + cap) :
    Spilled start cap page (Function.update mem (start + l.length % cap) v) file p (l ++ [v]) where
  window := by
    have hlen : (l.drop (p * page)).length < cap := by
      rw [List.length_drop]
      have := h.whole
      omega
    have hplace : (p * page % cap + (l.drop (p * page)).length) % cap = l.length % cap := by
      rw [List.length_drop, Nat.mod_add_mod, Nat.add_sub_of_le h.whole]
    rw [List.drop_append_of_le_length h.whole]
    refine (h.window.push v hlen).congr ?_
    intro j hj
    rw [hplace, Function.update_apply]
    by_cases hj : (p * page % cap + j) % cap = l.length % cap
    · rw [if_pos (congrArg (start + ·) hj), if_pos hj]
    · rw [if_neg (fun he => hj (Nat.add_left_cancel he)), if_neg hj]
  file_eq := by rw [List.take_append_of_le_length h.whole, h.file_eq]
  whole := by
    rw [List.length_append]
    exact Nat.le_trans h.whole (Nat.le_add_right _ _)

/-- A page does not go round. -/
theorem Paged.front_fits (hp : Paged cap page) (p : Nat) : p * page % cap + page ≤ cap := by
  have hcap := hp.cap_eq
  rw [hcap, Nat.mul_mod_mul_right, ← Nat.succ_mul, ← hcap]
  have hlt : p % (cap / page) < cap / page := Nat.mod_lt _ hp.one_le
  calc (p % (cap / page)).succ * page ≤ cap / page * page := Nat.mul_le_mul_right _ hlt
    _ = cap := hcap.symm

/-- **The oldest page goes to the file.** -/
theorem Spilled.spill [Inhabited α] (h : Spilled start cap page mem file p l)
    (hp : Paged cap page) (hpage : p * page + page ≤ l.length) :
    Spilled start cap page mem
      (overwrite file (p * page) (words mem (start + p * page % cap) page)) (p + 1) l where
  window := by
    have hdrop := h.window.drop page
    rw [List.drop_drop, Nat.mod_add_mod, ← Nat.succ_mul] at hdrop
    exact hdrop
  file_eq := by
    have hfile : p * page = file.length := by
      rw [h.file_eq, List.length_take, Nat.min_eq_left h.whole]
    have hread := h.window.read (n := page) (by rw [List.length_drop]; omega) (hp.front_fits p)
    have hwords : words mem (start + p * page % cap) page = (l.drop (p * page)).take page := by
      refine List.map_injective_iff.mpr (Option.some_injective α) ?_
      rw [← hread, words, List.map_map]
      refine List.map_congr_left ?_
      intro k _
      show some (mem (start + p * page % cap + k)) = _
      rw [Nat.add_assoc]
    rw [overwrite_end _ _ hfile, hwords, h.file_eq, Nat.succ_mul, List.take_add]
  whole := by
    rw [Nat.succ_mul]
    exact hpage

/-! ## Reading a table back -/

/-- What goes round is read by a pointer that goes round. -/
theorem Window.wordsRound {front : Nat} (h : Window cap (fun i => some (mem (start + i))) front l) :
    wordsRound mem start (start + cap - 1) (start + front) l.length = l := by
  induction l generalizing front with
  | nil => rfl
  | cons a l ih =>
    have hfirst := Option.some.inj (h.holds 0 a rfl)
    rw [Nat.add_zero, Nat.mod_eq_of_lt h.front_lt] at hfirst
    rw [List.length_cons, Lib.wordsRound, hfirst, advance_eq h.front_lt h.front_lt]
    exact congrArg (a :: ·) (ih (h.drop 1))

/-- While nothing is gone the table lies from `start` on. -/
theorem Spilled.words (h : Spilled start cap page mem file 0 l) : words mem start l.length = l := by
  have hwindow := h.window
  rw [Nat.zero_mul, Nat.zero_mod, List.drop_zero] at hwindow
  have hread := hwindow.read (Nat.le_refl _) (by rw [Nat.zero_add]; exact hwindow.fits)
  rw [List.take_length] at hread
  refine List.map_injective_iff.mpr (Option.some_injective α) ?_
  rw [← hread, Lib.words, List.map_map]
  refine List.map_congr_left ?_
  intro k _
  show some (mem (start + k)) = _
  rw [Nat.zero_add]

/-- **The file and then the ring give the whole table.** -/
theorem Spilled.drain (h : Spilled start cap page mem file p l) :
    file ++ wordsRound mem start (start + cap - 1) (start + p * page % cap) (l.length - p * page) =
      l := by
  have hround := h.window.wordsRound
  rw [List.length_drop] at hround
  rw [hround, h.file_eq, List.take_append_drop]

end

/-! ## The pointers -/

/-- **Between two words**: the pages in the file are those a full ring has given up. -/
structure Kept (start cap page : Nat) (mem : Nat → α) (file : List α) (write read held : Nat)
    (l : List α) : Prop where
  spilled : Spilled start cap page mem file (pagesGone cap page l.length) l
  write_eq : write = start + l.length % cap
  read_eq : read = start + pagesGone cap page l.length * page % cap
  held_eq : held = l.length - pagesGone cap page l.length * page

/-- A word has been stored; nothing has been put back or spilled yet. -/
structure Stored (start cap page : Nat) (mem : Nat → α) (file : List α) (write read held : Nat)
    (l : List α) (v : α) : Prop where
  spilled : Spilled start cap page mem file (pagesGone cap page l.length) (l ++ [v])
  write_eq : write = start + l.length % cap + 1
  read_eq : read = start + pagesGone cap page l.length * page % cap
  held_eq : held = l.length + 1 - pagesGone cap page l.length * page

section

variable {start cap page write read held : Nat} {mem mem' : Nat → α} {file l : List α} {v : α}

theorem kept_nil (hp : Paged cap page) (mem : Nat → α) :
    Kept start cap page mem [] start start 0 [] := by
  have hgone : pagesGone cap page ([] : List α).length = 0 := by
    rw [List.length_nil, pagesGone, Nat.zero_div, Nat.zero_sub]
  refine ⟨?_, ?_, ?_, ?_⟩
  · rw [hgone]
    exact spilled_nil hp.cap_pos mem
  · rw [List.length_nil, Nat.zero_mod, Nat.add_zero]
  · rw [hgone, Nat.zero_mul, Nat.zero_mod, Nat.add_zero]
  · rw [List.length_nil, Nat.zero_sub]

theorem Kept.congr (h : Kept start cap page mem file write read held l)
    (heq : ∀ a, start ≤ a → a < start + cap → mem' a = mem a) :
    Kept start cap page mem' file write read held l :=
  ⟨h.spilled.congr heq, h.write_eq, h.read_eq, h.held_eq⟩

theorem Stored.congr (h : Stored start cap page mem file write read held l v)
    (heq : ∀ a, start ≤ a → a < start + cap → mem' a = mem a) :
    Stored start cap page mem' file write read held l v :=
  ⟨h.spilled.congr heq, h.write_eq, h.read_eq, h.held_eq⟩

/-- **The next word has a place of the ring.** -/
theorem Kept.write_mem (h : Kept start cap page mem file write read held l) (hp : Paged cap page) :
    start ≤ write ∧ write ≤ start + cap - 1 := by
  have hlt := Nat.mod_lt l.length hp.cap_pos
  have hwrite := h.write_eq
  omega

theorem Kept.store (h : Kept start cap page mem file write read held l) (hp : Paged cap page)
    (v : α) :
    Stored start cap page (Function.update mem write v) file (write + 1) read (held + 1) l v where
  spilled := by
    rw [h.write_eq]
    exact h.spilled.store v hp.lt_room
  write_eq := congrArg (· + 1) h.write_eq
  read_eq := h.read_eq
  held_eq := by
    rw [h.held_eq]
    exact (Nat.succ_sub (pagesGone_le _ _ _)).symm

/-- The pointer behind the word, put back. -/
theorem Stored.wrap_eq (h : Stored start cap page mem file write read held l v)
    (hp : Paged cap page) :
    advance start (start + cap - 1) write 0 = start + (l ++ [v]).length % cap := by
  have hlt := Nat.mod_lt l.length hp.cap_pos
  rw [h.write_eq, List.length_append, List.length_singleton, Nat.add_mod_eq_add_mod_right 1
    (Nat.mod_mod l.length cap).symm]
  exact advance_eq hlt hlt

/-- **The ring is full**: the oldest page goes to the file. -/
theorem Stored.spill [Inhabited α] (h : Stored start cap page mem file write read held l v)
    (hp : Paged cap page) (hfull : cap ≤ held) :
    Kept start cap page mem
      (overwrite file (pagesGone cap page l.length * page) (words mem read page))
      (advance start (start + cap - 1) write 0) (advance start (start + cap - 1) read page)
      (held - page) (l ++ [v]) := by
  have hlen : (l ++ [v]).length = l.length + 1 := List.length_append
  have hheld := h.held_eq
  have hgone : pagesGone cap page (l.length + 1) = pagesGone cap page l.length + 1 :=
    hp.gone_full (by omega)
  have hle := pagesGone_le cap page l.length
  have hpage : page ≤ cap := Nat.le_of_dvd hp.cap_pos hp.dvd
  refine ⟨?_, h.wrap_eq hp, ?_, ?_⟩
  · rw [hlen, hgone, h.read_eq]
    exact h.spilled.spill hp (by omega)
  · rw [hlen, hgone, h.read_eq, Nat.succ_mul, ← Nat.mod_add_mod]
    exact advance_eq (hp.front_fits _) (Nat.mod_lt _ hp.cap_pos)
  · rw [hlen, hgone, Nat.succ_mul, hheld]
    omega

/-- **The ring has room**: nothing moves. -/
theorem Stored.room (h : Stored start cap page mem file write read held l v)
    (hp : Paged cap page) (hroom : held < cap) :
    Kept start cap page mem file (advance start (start + cap - 1) write 0) read held (l ++ [v]) := by
  have hlen : (l ++ [v]).length = l.length + 1 := List.length_append
  have hheld := h.held_eq
  have hgone : pagesGone cap page (l.length + 1) = pagesGone cap page l.length :=
    hp.gone_room (by omega)
  refine ⟨?_, h.wrap_eq hp, ?_, ?_⟩
  · rw [hlen, hgone]
    exact h.spilled
  · rw [hlen, hgone]
    exact h.read_eq
  · rw [hlen, hgone]
    exact hheld

end

end Maixii.Lib
