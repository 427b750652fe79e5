import Maixii.Avi.AviCounts

/-!
# `Avi/AviIndexes.lean`: the indexes a recording keeps

Every accepted chunk gets an entry in the last standard index of its stream. An index is full at
2043 entries, and then the stream begins a new one, whose base is the position of the next chunk.
Each index stores its own base, but the writer knows only one base at a time, for all streams: an
entry counts from the base that was set last, whoever set it. `Bases` keeps both, and `Indexed`
says what the maps of a stream hold.
-/

set_option autoImplicit false

namespace Maixii.Avi

open Maixii.Lib

/-- The entries a standard index takes before the next one begins. -/
def perIndex : Nat := 2043

/-- The bases in force: the one that was set last, and the one of each stream's last index. -/
structure Bases where
  last : Nat
  own : Nat → Nat
  count : Nat → Nat

namespace Bases

def zero : Bases := ⟨0, fun _ => 0, fun _ => 0⟩

/-- Whether the next chunk of a stream begins a new index. -/
def rolls (b : Bases) (i : Nat) : Bool := b.count i ≠ 0 && b.count i % perIndex = 0

/-- The bases once a chunk has been written: a new index begins where the chunk does, eight bytes
in front of its data. -/
def next (b : Bases) (p : Placement) : Bases where
  last := if b.rolls p.stream then p.offset - 8 else b.last
  own i := if i = p.stream ∧ b.rolls i then p.offset - 8 else b.own i
  count i := if i = p.stream then b.count i + 1 else b.count i

/-- The bases after these chunks. -/
def after (placed : List Placement) : Bases := placed.foldl next zero

/-- Each chunk with the bases in force for it. -/
def along : Bases → List Placement → List (Placement × Bases)
  | _, [] => []
  | b, p :: ps => (p, b.next p) :: along (b.next p) ps

theorem along_append (b : Bases) (ps : List Placement) (p : Placement) :
    b.along (ps ++ [p]) = b.along ps ++ [(p, (ps.foldl next b).next p)] := by
  induction ps generalizing b with
  | nil => rfl
  | cons q ps ih => rw [List.cons_append, along, along, ih, List.cons_append, List.foldl_cons]

theorem map_fst_along (b : Bases) (ps : List Placement) : (b.along ps).map Prod.fst = ps := by
  induction ps generalizing b with
  | nil => rfl
  | cons p ps ih => rw [along, List.map_cons, ih]

theorem after_append (ps : List Placement) (p : Placement) :
    after (ps ++ [p]) = (after ps).next p := by
  rw [after, List.foldl_append, List.foldl_cons, List.foldl_nil, after]

end Bases

/-- The chunks of a stream, each with the bases in force for it. -/
def indexedOf (placed : List Placement) (i : Nat) : List (Placement × Bases) :=
  (Bases.zero.along placed).filter fun q => q.1.stream = i

theorem indexedOf_append (placed : List Placement) (p : Placement) (i : Nat) :
    indexedOf (placed ++ [p]) i =
      indexedOf placed i ++ if p.stream = i then [(p, (Bases.after placed).next p)] else [] := by
  rw [indexedOf, Bases.along_append, List.filter_append, ← indexedOf, Bases.after]
  by_cases hi : p.stream = i
  · simp [hi]
  · simp [hi]

theorem map_fst_indexedOf (placed : List Placement) (i : Nat) :
    (indexedOf placed i).map Prod.fst = placed.filter fun p => p.stream = i := by
  rw [indexedOf]
  conv_rhs => rw [← Bases.map_fst_along Bases.zero placed]
  rw [List.filter_map]
  rfl

theorem count_after (placed : List Placement) (i : Nat) :
    (Bases.after placed).count i = (indexedOf placed i).length := by
  induction placed using List.reverseRecOn with
  | nil => rfl
  | append_singleton placed p ih =>
    rw [Bases.after_append, indexedOf_append, List.length_append, ← ih]
    by_cases hi : p.stream = i
    · simp [Bases.next, hi]
    · have hi' : ¬ i = p.stream := fun h => hi h.symm
      simp [Bases.next, hi, hi']

/-- The entry of a chunk, as `write_data` computes it. -/
def entryOf (q : Placement × Bases) : AVISTDINDEX_ENTRY :=
  ⟨(q.1.offset - q.2.last) % 2 ^ 32, q.1.data.length⟩

/-- The map from numbers of indexes to their entries. -/
def keyed : Nat → List (List (Placement × Bases)) → List (Int × List AVISTDINDEX_ENTRY)
  | _, [] => []
  | k, g :: gs => ((k : Int), g.map entryOf) :: keyed (k + 1) gs

theorem keyed_append (k : Nat) (gs : List (List (Placement × Bases)))
    (g : List (Placement × Bases)) :
    keyed k (gs ++ [g]) = keyed k gs ++ [(((k + gs.length : Nat) : Int), g.map entryOf)] := by
  induction gs generalizing k with
  | nil => rfl
  | cons g' gs ih =>
    rw [List.cons_append, keyed, keyed, ih, List.cons_append, List.length_cons, Nat.add_assoc,
      Nat.add_comm 1]

/-- The numbers are below the next one. -/
theorem keyed_lt {k : Nat} {gs : List (List (Placement × Bases))}
    {x : Int × List AVISTDINDEX_ENTRY} (h : x ∈ keyed k gs) : x.1 < (k + gs.length : Nat) := by
  induction gs generalizing k with
  | nil => simp [keyed] at h
  | cons g gs ih =>
    rw [keyed, List.mem_cons] at h
    rw [List.length_cons]
    rcases h with rfl | h
    · show (k : Int) < _
      omega
    · have := ih h
      omega

theorem lookup_keyed (k : Nat) (gs : List (List (Placement × Bases))) :
    (keyed k gs).lookup ((k + gs.length : Nat) : Int) = none := by
  rw [List.lookup_eq_none_iff]
  intro x hx
  have := keyed_lt hx
  simp only [bne_iff_ne, ne_eq]
  omega

/-- What every standard index of a stream says. -/
structure IsIndexOf (c : AviConfig) (i : Nat) (x : AVISTDINDEX) : Prop where
  fcc : x.fcc = fourcc "ix00" ∨ x.fcc = fourcc "ix01"
  wLongsPerEntry : x.wLongsPerEntry = 2
  dwChunkId : x.dwChunkId = c.chunkId i

/-- **What the maps of a stream hold**: full indexes, and the one that takes the next entry. -/
structure Indexed (c : AviConfig) (placed : List Placement) (i : Nat) (s : AviStream)
    (done : List (List (Placement × Bases))) (cur : List (Placement × Bases)) : Prop where
  all : done.flatten ++ cur = indexedOf placed i
  full : ∀ g ∈ done, g.length = perIndex
  room : cur.length ≤ perIndex
  first : cur = [] → done = []
  entries : s.stdIndexEntries = keyed 0 (if cur = [] then [] else done ++ [cur])
  indexes : s.stdIndexes.length = done.length + 1
  inUse : s.superIdx.nEntriesInUse = s.stdIndexes.length
  kind : ∀ x ∈ s.stdIndexes, IsIndexOf c i x
  bases : ∀ (k : Nat) (x : AVISTDINDEX) (g : List (Placement × Bases)),
    s.stdIndexes[k]? = some x → (done ++ [cur])[k]? = some g → ∀ q ∈ g, q.2.own i = x.qwBaseOffset
  base : ∀ x, s.stdIndexes[done.length]? = some x → x.qwBaseOffset = (Bases.after placed).own i

theorem length_flatten_full {done : List (List (Placement × Bases))}
    (h : ∀ g ∈ done, g.length = perIndex) : done.flatten.length = perIndex * done.length := by
  induction done with
  | nil => rfl
  | cons g gs ih =>
    rw [List.flatten_cons, List.length_append, h g (List.mem_cons_self ..),
      ih (fun g' hg' => h g' (List.mem_cons_of_mem _ hg')), List.length_cons, Nat.mul_succ,
      Nat.add_comm]

namespace Indexed

variable {c : AviConfig} {placed : List Placement} {i : Nat} {s : AviStream}
  {done : List (List (Placement × Bases))} {cur : List (Placement × Bases)}

/-- The chunks of the stream, counted by index. -/
theorem count (h : Indexed c placed i s done cur) :
    (Bases.after placed).count i = perIndex * done.length + cur.length := by
  rw [count_after, ← h.all, List.length_append, length_flatten_full h.full]

theorem lastIndex (h : Indexed c placed i s done cur) : s.lastIndex = (done.length : Nat) := by
  unfold AviStream.lastIndex
  rw [h.indexes]
  omega

/-- The entries of the last index, as the maps have them. -/
theorem lookup_last (h : Indexed c placed i s done cur) :
    s.stdIndexEntries.lookup s.lastIndex = if cur = [] then none else some (cur.map entryOf) := by
  rw [h.lastIndex, h.entries]
  by_cases hc : cur = []
  · rw [if_pos hc, if_pos hc]
    rfl
  · have hnone := lookup_keyed 0 done
    rw [Nat.zero_add] at hnone
    rw [if_neg hc, if_neg hc, keyed_append, Nat.zero_add, List.lookup_append, hnone]
    simp

/-- **An index is full when its stream rolls over.** -/
theorem indexFull (h : Indexed c placed i s done cur) :
    s.indexFull = (Bases.after placed).rolls i := by
  have hlen : (s.entriesAt s.lastIndex).length = cur.length := by
    rw [AviStream.entriesAt, h.lookup_last]
    split
    · rename_i hc
      rw [hc]
      rfl
    · simp
  have hroom := h.room
  have hfirst : cur.length = 0 → done.length = 0 := by
    intro hz
    rw [h.first (List.length_eq_zero_iff.mp hz)]
    rfl
  unfold AviStream.indexFull Bases.rolls
  rw [hlen, h.count, Bool.eq_iff_iff]
  simp only [decide_eq_true_eq, Bool.and_eq_true, ne_eq, decide_not, Bool.not_eq_true',
    decide_eq_false_iff_not]
  unfold perIndex at hroom ⊢
  unfold stdIndexSize sizeofStdIndexEntry sizeofStdIndex
  omega

/-- A chunk of another stream. -/
theorem other (h : Indexed c placed i s done cur) {p : Placement} (hp : p.stream ≠ i) :
    Indexed c (placed ++ [p]) i s done cur := by
  have hown : (Bases.after (placed ++ [p])).own i = (Bases.after placed).own i := by
    rw [Bases.after_append]
    exact if_neg (fun hi => hp hi.1.symm)
  refine { h with all := ?_, base := ?_ }
  · rw [indexedOf_append, if_neg hp, List.append_nil]
    exact h.all
  · intro x hx
    rw [hown]
    exact h.base x hx

/-- The entries while the last index takes one more. -/
theorem map_keyed (done : List (List (Placement × Bases))) (cur : List (Placement × Bases))
    (q : Placement × Bases) (k : Nat) :
    (keyed k (done ++ [cur])).map (fun p => if p.1 = ((k + done.length : Nat) : Int) then
        (p.1, p.2 ++ [entryOf q]) else p) = keyed k (done ++ [cur ++ [q]]) := by
  induction done generalizing k with
  | nil => simp [keyed]
  | cons g done ih =>
    have hne : ¬ (k : Int) = ((k + (g :: done).length : Nat) : Int) := by
      rw [List.length_cons]
      omega
    have hlen : k + (g :: done).length = k + 1 + done.length := by
      rw [List.length_cons]
      omega
    rw [List.cons_append, List.cons_append, keyed, keyed, List.map_cons, if_neg hne, hlen, ih]

/-- The chunk a stream takes next, with the bases in force for it. -/
theorem indexedOf_self {p : Placement} (hp : p.stream = i) :
    indexedOf (placed ++ [p]) i = indexedOf placed i ++ [(p, (Bases.after placed).next p)] := by
  rw [indexedOf_append, if_pos hp]

/-- An index has not begun, and the last one has room. -/
theorem pushLast (h : Indexed c placed i s done cur) {p : Placement} (hp : p.stream = i)
    (hrolls : (Bases.after placed).rolls i = false) :
    Indexed c (placed ++ [p]) i
      (s.pushEntry s.lastIndex (entryOf (p, (Bases.after placed).next p))) done
      (cur ++ [(p, (Bases.after placed).next p)]) := by
  have hcount := h.count
  have hroom := h.room
  have hnext : ((Bases.after placed).next p).own i = (Bases.after placed).own i := by
    show (if i = p.stream ∧ (Bases.after placed).rolls i = true then _ else _) = _
    rw [if_neg (by rw [hrolls]; exact fun h => Bool.false_ne_true h.2)]
  have hless : cur.length < perIndex := by
    rcases Nat.lt_or_eq_of_le hroom with hlt | heq
    · exact hlt
    · have hmod : (Bases.after placed).count i % perIndex = 0 := by
        rw [hcount, heq, Nat.mul_add_mod, Nat.mod_self]
      have hpos : (Bases.after placed).count i ≠ 0 := by
        rw [hcount, heq]
        exact Nat.ne_of_gt (Nat.lt_of_lt_of_le (by decide : 0 < perIndex) (Nat.le_add_left _ _))
      unfold Bases.rolls at hrolls
      rw [hmod] at hrolls
      simp [hpos] at hrolls
  refine ⟨?_, h.full, ?_, ?_, ?_, h.indexes, h.inUse, h.kind, ?_, ?_⟩
  · rw [indexedOf_self hp, ← List.append_assoc, h.all]
  · rw [List.length_append, List.length_singleton]
    exact hless
  · intro hnil
    simp at hnil
  · have hlookup := h.lookup_last
    rw [if_neg (by simp)]
    show (if (s.stdIndexEntries.lookup s.lastIndex).isSome then _ else _) = _
    by_cases hc : cur = []
    · obtain rfl := h.first hc
      subst hc
      have hempty := h.entries
      rw [if_pos rfl] at hempty hlookup
      rw [hlookup, Option.isSome_none, if_neg Bool.false_ne_true, hempty, h.lastIndex]
      rfl
    · have hentries := h.entries
      rw [if_neg hc] at hentries hlookup
      rw [hlookup, Option.isSome_some, if_pos rfl, hentries, h.lastIndex]
      have hmap := map_keyed done cur (p, (Bases.after placed).next p) 0
      rw [Nat.zero_add] at hmap
      exact hmap
  · intro k x g hx hg q hq
    by_cases hk : k < done.length
    · rw [List.getElem?_append_left hk] at hg
      exact h.bases k x g hx (by rw [List.getElem?_append_left hk]; exact hg) q hq
    · rw [List.getElem?_append_right (by omega)] at hg
      have hk0 : k = done.length := by
        have := (List.getElem?_eq_some_iff.mp hg).1
        rw [List.length_singleton] at this
        omega
      subst hk0
      rw [Nat.sub_self] at hg
      obtain rfl := Option.some.inj hg
      rcases List.mem_append.mp hq with hq | hq
      · refine h.bases done.length x cur hx ?_ q hq
        rw [List.getElem?_append_right (Nat.le_refl _), Nat.sub_self]
        rfl
      · rw [List.mem_singleton.mp hq]
        exact hnext.trans (h.base x hx).symm
  · intro x hx
    rw [Bases.after_append, hnext]
    exact h.base x hx

/-- The last index is full, and the next begins with the chunk. -/
theorem pushNew (h : Indexed c placed i s done cur) {p : Placement} {pos : Nat} (hp : p.stream = i)
    (hpos : p.offset = pos + 8) (hrolls : (Bases.after placed).rolls i = true) :
    Indexed c (placed ++ [p]) i
      ((s.newIndex i (c.chunkId i) pos).pushEntry (s.newIndex i (c.chunkId i) pos).lastIndex
        (entryOf (p, (Bases.after placed).next p))) (done ++ [cur])
      [(p, (Bases.after placed).next p)] := by
  have hcount := h.count
  have hroom := h.room
  have hown : ((Bases.after placed).next p).own i = pos := by
    show (if i = p.stream ∧ (Bases.after placed).rolls i = true then p.offset - 8 else _) = _
    rw [if_pos ⟨hp.symm, hrolls⟩, hpos, Nat.add_sub_cancel]
  have hfull : cur.length = perIndex := by
    unfold Bases.rolls at hrolls
    simp only [ne_eq, decide_not, Bool.and_eq_true, Bool.not_eq_true', decide_eq_false_iff_not,
      decide_eq_true_eq] at hrolls
    have hfirst : cur.length = 0 → done.length = 0 := by
      intro hz
      rw [h.first (List.length_eq_zero_iff.mp hz)]
      rfl
    rw [hcount] at hrolls
    unfold perIndex at hrolls hroom ⊢
    omega
  have hlen : (s.newIndex i (c.chunkId i) pos).stdIndexes.length = done.length + 2 := by
    show (s.stdIndexes ++ [_]).length = _
    rw [List.length_append, h.indexes]
    rfl
  have hlast : (s.newIndex i (c.chunkId i) pos).lastIndex = ((done.length + 1 : Nat) : Int) := by
    unfold AviStream.lastIndex
    rw [hlen]
    omega
  have hcur : cur ≠ [] := List.ne_nil_of_length_pos (by rw [hfull]; decide)
  refine ⟨?_, ?_, ?_, ?_, ?_, ?_, ?_, ?_, ?_, ?_⟩
  · rw [indexedOf_self hp, List.flatten_append, List.flatten_singleton, h.all]
  · intro g hg
    rcases List.mem_append.mp hg with hg | hg
    · exact h.full g hg
    · rw [List.mem_singleton.mp hg, hfull]
  · rw [List.length_singleton]
    decide
  · intro hnil
    cases hnil
  · have hentries := h.entries
    rw [if_neg hcur] at hentries
    have hnone := lookup_keyed 0 (done ++ [cur])
    rw [Nat.zero_add, List.length_append, List.length_singleton] at hnone
    rw [if_neg (List.cons_ne_nil _ _), keyed_append, Nat.zero_add, List.length_append,
      List.length_singleton]
    show (if (s.stdIndexEntries.lookup (s.newIndex i (c.chunkId i) pos).lastIndex).isSome then _
      else s.stdIndexEntries ++ [((s.newIndex i (c.chunkId i) pos).lastIndex, _)]) = _
    rw [hlast, hentries, hnone, Option.isSome_none, if_neg Bool.false_ne_true]
    rfl
  · rw [List.length_append]
    exact hlen
  · show s.superIdx.nEntriesInUse + 1 = (s.newIndex i (c.chunkId i) pos).stdIndexes.length
    rw [hlen, h.inUse, h.indexes]
  · intro x hx
    rcases List.mem_append.mp hx with hx | hx
    · exact h.kind x hx
    · rw [List.mem_singleton.mp hx]
      refine ⟨?_, rfl, rfl⟩
      by_cases hi : i = 0
      · exact .inl (if_pos hi)
      · exact .inr (if_neg hi)
  · intro k x g hx hg q hq
    have hx' : (s.stdIndexes ++ [_])[k]? = some x := hx
    by_cases hk : k < (done ++ [cur]).length
    · rw [List.getElem?_append_left hk] at hg
      rw [List.length_append, List.length_singleton] at hk
      rw [List.getElem?_append_left (by rw [h.indexes]; exact hk)] at hx'
      exact h.bases k x g hx' hg q hq
    · rw [List.getElem?_append_right (by omega)] at hg
      have hk0 : k - (done ++ [cur]).length = 0 := by
        have := (List.getElem?_eq_some_iff.mp hg).1
        rw [List.length_singleton] at this
        omega
      rw [hk0] at hg
      obtain rfl := Option.some.inj hg
      rw [List.length_append, List.length_singleton] at hk hk0
      rw [List.getElem?_append_right (by rw [h.indexes]; omega), h.indexes, hk0] at hx'
      obtain rfl := Option.some.inj hx'
      rw [List.mem_singleton.mp hq]
      exact hown
  · intro x hx
    have hx' : (s.stdIndexes ++ [{ newStdIndex i (c.chunkId i) pos with
        fcc := if i = 0 then fourcc "ix00" else fourcc "ix01" }])[done.length + 1]? = some x := by
      rw [List.length_append, List.length_singleton] at hx
      exact hx
    rw [List.getElem?_append_right (by rw [h.indexes]), h.indexes, Nat.sub_self] at hx'
    obtain rfl := Option.some.inj hx'
    rw [Bases.after_append, hown]
    rfl

end Indexed

/-! ## Every recording keeps its indexes -/

/-- The maps of all streams, and the base that was set last. -/
structure Indexes (c : AviConfig) (w : AviWriter) (placed : List Placement) : Prop where
  last : w.currBaseOff = (Bases.after placed).last
  streams : ∀ (i : Nat) (s : AviStream), w.streams[i]? = some s →
    ∃ done cur, Indexed c placed i s done cur

/-- `counted` leaves the maps alone. -/
theorem Indexed.counted {c : AviConfig} {placed : List Placement} {i : Nat} {s : AviStream}
    {done : List (List (Placement × Bases))} {cur : List (Placement × Bases)}
    (h : Indexed c placed i s done cur) : Indexed c placed i s.counted done cur := by
  have hsame : s.counted.stdIndexEntries = s.stdIndexEntries ∧
      s.counted.stdIndexes = s.stdIndexes ∧ s.counted.superIdx = s.superIdx := by
    unfold AviStream.counted
    split <;> exact ⟨rfl, rfl, rfl⟩
  obtain ⟨hentries, hindexes, hsuper⟩ := hsame
  refine ⟨h.all, h.full, h.room, h.first, ?_, ?_, ?_, ?_, ?_, ?_⟩
  · rw [hentries, h.entries]
  · rw [hindexes, h.indexes]
  · rw [hsuper, hindexes, h.inUse]
  · rw [hindexes]
    exact h.kind
  · rw [hindexes]
    exact h.bases
  · rw [hindexes]
    exact h.base

namespace Indexes

variable {c : AviConfig} {w w' : AviWriter} {placed : List Placement}

/-- What `open` leaves: an index for each stream, and nothing in it. -/
theorem of_openedStreams (num : Nat) (ss : List AviStream) (off i : Nat)
    (hss : ∀ s ∈ ss, s.stdIndexes = [] ∧ s.stdIndexEntries = [] ∧ s.streamType ≠ .unknown)
    (htypes : ∀ k s, ss[k]? = some s → AviWriter.dataFcc s.streamType (i + k) = c.chunkId (i + k)) :
    ∀ (k : Nat) (s : AviStream), (openedStreams true num off i ss)[k]? = some s →
      Indexed c [] (i + k) s [] [] := by
  induction ss generalizing off i with
  | nil =>
    intro k s hs
    cases hs
  | cons s₀ ss ih =>
    intro k s hs
    cases k with
    | zero =>
      obtain rfl := Option.some.inj hs
      obtain ⟨hindexes, hentries, hknown⟩ := hss s₀ (List.mem_cons_self ..)
      have hid : generateFcc (openSuffix s₀.streamType) i = c.chunkId i := by
        refine Eq.trans ?_ (htypes 0 s₀ rfl)
        unfold AviWriter.dataFcc openSuffix
        cases ht : s₀.streamType with
        | unknown => exact absurd ht hknown
        | video => rfl
        | audio => rfl
      have hall : (openedStream true num off i s₀).stdIndexes =
          [newStdIndex i (generateFcc (openSuffix s₀.streamType) i) 0] := by
        show s₀.stdIndexes ++ [_] = _
        rw [hindexes]
        rfl
      refine ⟨rfl, List.forall_mem_nil _, Nat.zero_le _, fun _ => rfl, hentries, ?_, ?_, ?_, ?_, ?_⟩
      · rw [hall]
        rfl
      · rw [hall]
        rfl
      · intro x hx
        rw [hall] at hx
        rw [List.mem_singleton.mp hx]
        refine ⟨?_, rfl, hid⟩
        by_cases hi : i = 1
        · exact .inr (if_pos hi)
        · exact .inl (if_neg hi)
      · intro k x g _ hg q hq
        cases k with
        | zero =>
          obtain rfl := Option.some.inj hg
          cases hq
        | succ k => cases hg
      · intro x hx
        rw [hall] at hx
        obtain rfl := Option.some.inj hx
        rfl
    | succ k =>
      have htypes' : ∀ k s, ss[k]? = some s →
          AviWriter.dataFcc s.streamType (i + 1 + k) = c.chunkId (i + 1 + k) := by
        intro k s hs
        have h := htypes (k + 1) s hs
        rwa [show i + (k + 1) = i + 1 + k by omega] at h
      have h := ih (off + strlLength true num s₀) (i + 1)
        (fun s hs => hss s (List.mem_cons_of_mem _ hs)) htypes' k s hs
      rwa [show i + 1 + k = i + (k + 1) by omega] at h

/-- **A chunk gets its entry.** -/
theorem writeChunk (h : Indexes c w placed) {i : Nat} {s : AviStream} {data : Bytes} {riff : Nat}
    (hs : w.streams[i]? = some s) :
    Indexes c (w.writeChunk i s (c.chunkId i) data)
      (placed ++ [⟨i, riff, w.f.pos + 8, data⟩]) := by
  obtain ⟨done, cur, hi⟩ := h.streams i s hs
  have hfull := hi.indexFull
  refine ⟨?_, ?_⟩
  · show (if s.indexFull = true then w.f.pos else w.currBaseOff) = _
    rw [Bases.after_append, hfull, h.last]
    show _ = if (Bases.after placed).rolls i = true then w.f.pos + 8 - 8 else _
    rw [Nat.add_sub_cancel]
  · intro k t ht
    rw [AviWriter.writeChunk_streams] at ht
    by_cases hk : i = k
    · subst hk
      rw [List.getElem?_set_self (List.getElem?_eq_some_iff.mp hs).1] at ht
      obtain rfl := Option.some.inj ht
      have hlast : (if s.indexFull = true then w.f.pos else w.currBaseOff) =
          ((Bases.after placed).next ⟨i, riff, w.f.pos + 8, data⟩).last := by
        rw [hfull, h.last]
        show _ = if (Bases.after placed).rolls i = true then w.f.pos + 8 - 8 else _
        rw [Nat.add_sub_cancel]
      unfold AviWriter.indexedStream
      dsimp only
      rw [hlast]
      cases hrolls : (Bases.after placed).rolls i with
      | true =>
        rw [hfull, hrolls, if_pos rfl]
        have hnew := hi.pushNew (p := ⟨i, riff, w.f.pos + 8, data⟩) rfl rfl hrolls
        exact ⟨_, _, hnew.counted⟩
      | false =>
        rw [hfull, hrolls, if_neg Bool.false_ne_true]
        have hold := hi.pushLast (p := ⟨i, riff, w.f.pos + 8, data⟩) rfl hrolls
        exact ⟨_, _, hold.counted⟩
    · rw [List.getElem?_set_ne hk] at ht
      obtain ⟨done', cur', hk'⟩ := h.streams k t ht
      exact ⟨done', cur', hk'.other hk⟩

theorem start (hd : c.openDML = true) : Indexes c c.writer.opened [] := by
  refine ⟨rfl, ?_⟩
  intro i s hs
  have hstreams : c.writer.opened.streams =
      openedStreams c.writer.openDML (numStdIndexes c.writer.reservedFrames) 88 0 c.writer.streams :=
    rfl
  rw [hstreams, c.writer_openDML, hd] at hs
  have h := of_openedStreams (c := c) _ _ _ 0 ?_ ?_ i s hs
  · rw [Nat.zero_add] at h
    exact ⟨[], [], h⟩
  · intro s hs
    obtain ⟨p, rfl⟩ := c.declared_of_mem hs
    cases p with
    | video p => exact ⟨rfl, rfl, fun h => StreamType.noConfusion h⟩
    | audio q => exact ⟨rfl, rfl, fun h => StreamType.noConfusion h⟩
  · intro k s hs
    obtain ⟨p, rfl⟩ := c.declared_of_mem (List.mem_of_getElem? hs)
    rw [Nat.zero_add, AviConfig.chunkId, AviConfig.streams, hs]
    cases p <;> rfl

end Indexes

/-- **Every recording with indexes keeps them.** -/
theorem indexes {c : AviConfig} (hd : c.openDML = true) {r : Recording}
    {G : Recording → UInt8 × Buffer → Prop} (h : Reach (recordings c) G r) :
    Indexes c r.w r.placed := by
  refine (h.inv (P := fun r => Layout c r.w r.placed ∧ Indexes c r.w r.placed) ?_ ?_).2
  · intro r hr
    obtain rfl := recordings_start hr
    exact ⟨Layout.start, Indexes.start hd⟩
  · rintro r ⟨i, data⟩ r' ⟨hl, hx⟩ _ hw
    obtain ⟨_, s, w₁, hs, hsec, rfl⟩ := Recording.write_cases hw
    rcases hsec with ⟨_, hsec⟩ | ⟨_, rfl⟩
    · obtain ⟨hl₁, _, hstreams, hbase⟩ := hl.newSection hsec
      have hs₁ : w₁.streams[i.toNat]? = some s := hstreams ▸ hs
      have hx₁ : Indexes c w₁ r.placed := ⟨hbase.trans hx.last, hstreams ▸ hx.streams⟩
      rw [hl₁.chunkId hs₁]
      exact ⟨hl₁.chunkId hs₁ ▸ hl₁.writeChunk hs₁, hx₁.writeChunk hs₁⟩
    · rw [hl.chunkId hs]
      exact ⟨hl.chunkId hs ▸ hl.writeChunk hs, hx.writeChunk hs⟩

end Maixii.Avi
