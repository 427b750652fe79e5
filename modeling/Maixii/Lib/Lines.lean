import Maixii.Lib.Bytes

/-!
# `Lib/Lines.lean`: texts made of lines

A text protocol is a sequence of lines, each ended by CR LF, and a receiver sees a prefix of it.
What it sees is some whole lines and a rest that is no line yet (`prefix_unlines`), and a search
for the first or last CR LF finds the end of the first or last whole line, however the bytes came
in. A pattern without CR LF cannot be found across two lines (`findFirst_unlines`).
-/

set_option autoImplicit false

namespace Maixii.Lib

/-- The lines, each with its CR LF. -/
def unlines (ls : List Bytes) : Bytes := ls.flatMap (· ++ crlf)

@[simp] theorem unlines_nil : unlines [] = [] := rfl

@[simp] theorem unlines_cons (l : Bytes) (ls : List Bytes) :
    unlines (l :: ls) = l ++ crlf ++ unlines ls := rfl

@[simp] theorem unlines_append (ls ms : List Bytes) :
    unlines (ls ++ ms) = unlines ls ++ unlines ms := List.flatMap_append

/-- The lines with CR LF between them. -/
def joinLines : List Bytes → Bytes
  | [] => []
  | [l] => l
  | l :: ls => l ++ crlf ++ joinLines ls

theorem unlines_eq_join {ls : List Bytes} (h : ls ≠ []) : unlines ls = joinLines ls ++ crlf := by
  induction ls with
  | nil => exact absurd rfl h
  | cons l ls ih =>
    cases ls with
    | nil => simp [joinLines]
    | cons m ms =>
      rw [unlines_cons, ih (by simp)]
      simp [joinLines, List.append_assoc]

/-- A line has no line ends in it. -/
def CleanLine (l : Bytes) : Prop := (13 : UInt8) ∉ l ∧ (10 : UInt8) ∉ l

instance (l : Bytes) : Decidable (CleanLine l) := inferInstanceAs (Decidable (_ ∧ _))

/-- No CR LF in the bytes. -/
abbrev NoCrlf (s : Bytes) : Prop := findFirst crlf s = none

theorem noCrlf_nil : NoCrlf [] := rfl

/-- A line that has come in up to its CR. -/
theorem noCrlf_cr {l : Bytes} (h : CleanLine l) : NoCrlf (l ++ [13]) := by
  rw [NoCrlf, findFirst_none_iff]
  intro n _ hp
  have : (10 : UInt8) ∈ (l ++ [13]).drop n := hp.subset (by simp [crlf])
  have := List.mem_of_mem_drop this
  simp only [List.mem_append, List.mem_singleton] at this
  rcases this with h10 | h10
  · exact h.2 h10
  · exact absurd h10 (by decide)

/-! ## Finding the ends of lines -/

/-- The first CR LF ends the first line. -/
theorem findFirst_crlf {l s : Bytes} (h : CleanLine l) :
    findFirst crlf (l ++ crlf ++ s) = some l.length := findFirst_append_of_head h.1

/-- The last CR LF ends the last line, when what follows is not a line yet. -/
theorem findLast_crlf (a : Bytes) {part : Bytes} (h : NoCrlf part) :
    findLast crlf (a ++ crlf ++ part) = some a.length := by
  induction a with
  | nil =>
    have htail : findLast crlf (10 :: part) = none := by
      rw [findLast_none_iff_findFirst, findFirst, if_neg (by simp [crlf]), h]
      rfl
    show findLast crlf (13 :: 10 :: part) = some 0
    rw [findLast, htail]
    simp [crlf]
  | cons b a ih =>
    show findLast crlf (b :: (a ++ crlf ++ part)) = some (a.length + 1)
    rw [findLast, ih]

theorem findLast_noCrlf {part : Bytes} (h : NoCrlf part) : findLast crlf part = none :=
  findLast_none_iff_findFirst.mpr h

/-! ## What a receiver has seen -/

/-- The number of lines that have come in. -/
def lineCount : Bytes → Nat
  | [] => 0
  | [_] => 0
  | a :: b :: s => (if a = 13 ∧ b = 10 then 1 else 0) + lineCount (b :: s)

theorem lineCount_noCrlf {s : Bytes} (h : NoCrlf s) : lineCount s = 0 := by
  induction s with
  | nil => rfl
  | cons a s ih =>
    cases s with
    | nil => rfl
    | cons b s =>
      rw [NoCrlf, findFirst] at h
      split at h
      · simp at h
      · rename_i hp
        have hab : ¬ (a = 13 ∧ b = 10) := by
          rintro ⟨rfl, rfl⟩
          exact hp rfl
        rw [lineCount, if_neg hab, ih (by simpa using h)]

theorem lineCount_line {l : Bytes} (h : CleanLine l) (s : Bytes) :
    lineCount (l ++ crlf ++ s) = lineCount s + 1 := by
  induction l with
  | nil =>
    have htail : lineCount (10 :: s) = lineCount s := by
      cases s with
      | nil => rfl
      | cons b s => simp [lineCount]
    show lineCount (13 :: 10 :: s) = _
    rw [lineCount, if_pos ⟨rfl, rfl⟩, htail, Nat.add_comm]
  | cons a l ih =>
    have hl : CleanLine l := ⟨fun hm => h.1 (List.mem_cons_of_mem _ hm),
      fun hm => h.2 (List.mem_cons_of_mem _ hm)⟩
    have ha : a ≠ 13 := fun he => h.1 (he ▸ List.mem_cons_self)
    obtain ⟨b, t, hbt⟩ : ∃ b t, l ++ crlf ++ s = b :: t := by
      cases l with
      | nil => exact ⟨13, _, rfl⟩
      | cons b l => exact ⟨b, _, rfl⟩
    have hih := ih hl
    rw [List.cons_append, List.cons_append, hbt, lineCount, if_neg (fun hc => ha hc.1), ← hbt, hih,
      Nat.zero_add]

/-- How many lines have come in, whatever is behind them. -/
theorem lineCount_unlines {ls : List Bytes} {part : Bytes} (hls : ∀ l ∈ ls, CleanLine l)
    (hp : NoCrlf part) : lineCount (unlines ls ++ part) = ls.length := by
  induction ls with
  | nil => exact lineCount_noCrlf hp
  | cons l ls ih =>
    rw [unlines_cons, List.append_assoc, lineCount_line (hls l List.mem_cons_self),
      ih fun m hm => hls m (List.mem_cons_of_mem _ hm)]
    rfl

/-- **A prefix of a text is some whole lines and a rest** that is no line yet. -/
theorem prefix_unlines {ls : List Bytes} {s : Bytes} (hls : ∀ l ∈ ls, CleanLine l)
    (h : s <+: unlines ls) :
    ∃ k part, k ≤ ls.length ∧ s = unlines (ls.take k) ++ part ∧ NoCrlf part ∧
      part <+: unlines (ls.drop k) := by
  induction ls generalizing s with
  | nil =>
    rw [unlines_nil, List.prefix_nil] at h
    exact ⟨0, [], Nat.le_refl _, h, noCrlf_nil, List.nil_prefix⟩
  | cons l ls ih =>
    have hl := hls l List.mem_cons_self
    by_cases hlen : (l ++ crlf).length ≤ s.length
    · have hls' : ∀ m ∈ ls, CleanLine m := fun m hm => hls m (List.mem_cons_of_mem _ hm)
      obtain ⟨t, rfl⟩ : l ++ crlf <+: s :=
        List.prefix_of_prefix_length_le (List.prefix_append _ _) h hlen
      rw [unlines_cons, List.prefix_append_right_inj] at h
      obtain ⟨k, part, hk, rfl, hp, hr⟩ := ih hls' h
      exact ⟨k + 1, part, Nat.succ_le_succ hk, by simp [List.append_assoc], hp, hr⟩
    · refine ⟨0, s, Nat.zero_le _, rfl, ?_, h⟩
      have hpre : s <+: l ++ [13] := by
        have hl13 : l ++ [13] <+: unlines (l :: ls) := by
          rw [unlines_cons]
          exact ⟨10 :: unlines ls, by simp [crlf]⟩
        refine List.prefix_of_prefix_length_le h hl13 ?_
        simp only [List.length_append, crlf, List.length_cons, List.length_nil] at hlen ⊢
        omega
      obtain ⟨t, ht⟩ := hpre
      rw [NoCrlf, findFirst_none_iff]
      intro n hn hp
      refine findFirst_none_iff.mp (noCrlf_cr hl) n ?_ ?_
      · rw [← ht, List.length_append]
        omega
      · rw [← ht, List.drop_append_of_le_length hn]
        exact hp.trans (List.prefix_append _ _)

/-! ## Searching line by line -/

/-- A pattern that is in no line is found behind the lines. -/
theorem findFirst_unlines {pat s : Bytes} {ls : List Bytes} (hne : pat ≠ []) (hclean : CleanLine pat)
    (hls : ∀ l ∈ ls, findFirst pat l = none) (hs : pat <+: s) :
    findFirst pat (unlines ls ++ s) = some (unlines ls).length := by
  refine findFirst_eq_some (by simp) (by simpa using hs) ?_
  induction ls with
  | nil => simp
  | cons l ls ih =>
    intro m hm hp
    have ih' := ih fun x hx => hls x (List.mem_cons_of_mem _ hx)
    rw [unlines_cons, List.append_assoc, List.append_assoc] at hp
    by_cases hml : m ≤ l.length
    · -- Inside the line, or across its end.
      rw [List.drop_append_of_le_length hml] at hp
      by_cases hfit : pat.length ≤ (l.drop m).length
      · have : pat <+: l.drop m :=
          List.prefix_of_prefix_length_le hp (List.prefix_append _ _) hfit
        exact findFirst_none_iff.mp (hls l List.mem_cons_self) m hml this
      · have h13 : l.drop m ++ [13] <+: l.drop m ++ (crlf ++ (unlines ls ++ s)) :=
          ⟨10 :: (unlines ls ++ s), by simp [crlf]⟩
        have hcr : l.drop m ++ [13] <+: pat := by
          refine List.prefix_of_prefix_length_le h13 hp ?_
          simp only [List.length_append, List.length_cons, List.length_nil]
          omega
        exact hclean.1 (hcr.subset (by simp))
    · -- At the line feed, or behind it.
      have hlen : (unlines (l :: ls)).length = l.length + 2 + (unlines ls).length := by
        simp [crlf]
        omega
      rw [hlen] at hm
      by_cases hlf : m = l.length + 1
      · have hd : (l ++ (crlf ++ (unlines ls ++ s))).drop m = 10 :: (unlines ls ++ s) := by
          rw [hlf, List.drop_append]
          simp [crlf]
        rw [hd] at hp
        cases pat with
        | nil => exact hne rfl
        | cons b pat =>
          rw [List.cons_prefix_cons] at hp
          exact hclean.2 (hp.1 ▸ List.mem_cons_self)
      · refine ih' (m - (l.length + 2)) (by omega) ?_
        have hd : (l ++ (crlf ++ (unlines ls ++ s))).drop m =
            (unlines ls ++ s).drop (m - (l.length + 2)) := by
          rw [List.drop_append, List.drop_of_length_le (by omega), List.nil_append,
            List.drop_append, List.drop_of_length_le (by simp [crlf]; omega), List.nil_append]
          congr 1
        rw [← hd]
        exact hp

/-! ## Reading the lines back -/

/-- The whole lines of a text; `acc` is what has been read of the one that is begun. -/
def linesFrom : Bytes → Bytes → List Bytes
  | _, [] => []
  | _, [_] => []
  | acc, a :: b :: s =>
      if a = 13 ∧ b = 10 then acc :: linesFrom [] s else linesFrom (acc ++ [a]) (b :: s)

/-- The whole lines of a text. -/
def linesOf (s : Bytes) : List Bytes := linesFrom [] s

theorem linesFrom_line {l : Bytes} (h : CleanLine l) (acc s : Bytes) :
    linesFrom acc (l ++ crlf ++ s) = (acc ++ l) :: linesFrom [] s := by
  induction l generalizing acc with
  | nil => simp [linesFrom, crlf]
  | cons a l ih =>
    have hl : CleanLine l := ⟨fun hm => h.1 (by simp [hm]), fun hm => h.2 (by simp [hm])⟩
    have hstep : linesFrom acc (a :: (l ++ crlf ++ s)) =
        linesFrom (acc ++ [a]) (l ++ crlf ++ s) := by
      have ha : a ≠ 13 := by
        rintro rfl
        exact h.1 (by simp)
      cases hrest : l ++ crlf ++ s with
      | nil => simp [crlf] at hrest
      | cons b t => rw [linesFrom, if_neg (fun hab => ha hab.1)]
    rw [List.cons_append, List.cons_append, hstep, ih hl, List.append_assoc]
    rfl

/-- **A text of clean lines has these lines.** -/
theorem linesOf_unlines {ls : List Bytes} (hls : ∀ l ∈ ls, CleanLine l) :
    linesOf (unlines ls) = ls := by
  unfold linesOf
  induction ls with
  | nil => rfl
  | cons l ls ih =>
    obtain ⟨hl, hrest⟩ := List.forall_mem_cons.mp hls
    rw [unlines_cons, linesFrom_line hl, ih hrest]
    rfl

/-! ## Sections -/

section Sections

variable {α : Type} {p : α → Bool}

/-- What begins with an element that `p` holds of, each up to the next one. -/
def sectionsOf (p : α → Bool) : List α → List (List α)
  | [] => []
  | l :: ls =>
      if p l then (l :: ls.takeWhile fun m => !p m) :: sectionsOf p ls else sectionsOf p ls

/-- What stands before the first section is in none. -/
theorem sectionsOf_skip {head ls : List α} (h : ∀ l ∈ head, p l = false) :
    sectionsOf p (head ++ ls) = sectionsOf p ls := by
  induction head with
  | nil => rfl
  | cons l head ih =>
    obtain ⟨hl, hhead⟩ := List.forall_mem_cons.mp h
    rw [List.cons_append, sectionsOf, hl, if_neg Bool.false_ne_true, ih hhead]

/-- **Sections are read back.** -/
theorem sectionsOf_flatten {ss : List (List α)}
    (h : ∀ s ∈ ss, ∃ l ls, s = l :: ls ∧ p l = true ∧ ∀ m ∈ ls, p m = false) :
    sectionsOf p ss.flatten = ss := by
  induction ss with
  | nil => rfl
  | cons s ss ih =>
    obtain ⟨⟨l, ls, rfl, hl, hls⟩, hrest⟩ := List.forall_mem_cons.mp h
    have htake : (ls ++ ss.flatten).takeWhile (fun m => !p m) = ls := by
      rw [List.takeWhile_append_of_pos (fun m hm => by simp [hls m hm])]
      cases ss with
      | nil => simp
      | cons s' ss =>
        obtain ⟨l', ls', rfl, hl', -⟩ := hrest s' List.mem_cons_self
        rw [List.flatten_cons, List.cons_append, List.takeWhile_cons_of_neg (by simp [hl']),
          List.append_nil]
    rw [List.flatten_cons, List.cons_append, sectionsOf, hl, if_pos rfl, htake,
      sectionsOf_skip hls, ih hrest]

end Sections

end Maixii.Lib
