import Maixii.Lib.Boxes

/-!
# `Lib/Movie.lean`: what a player makes of a movie file

A movie file says in the tables of each track where its samples lie: the offsets of the chunks, how
many samples there are in each, and how long each sample is. `readMovie` is a player that follows
them. For who writes such a file:

* `samplesIn_blocks`: samples that lie one behind the other in their chunks are found;
* `perChunk_each`: an entry for every chunk says of each what it is meant to say;
* `readTable_row`: a table is read back if its numbers fit.
-/

set_option autoImplicit false

namespace Maixii.Lib

/-- One track: what plays it, how many samples last how long, which of them can be sought, and the
samples. -/
structure Track where
  handler : FourCC
  durations : List (Nat × Nat)
  keys : Option (List Nat)
  samples : List Bytes
  deriving DecidableEq

/-! ## Samples -/

/-- Samples of these sizes, one behind the other. -/
def samplesAt (file : Bytes) : Nat → List Nat → List Bytes
  | _, [] => []
  | pos, n :: ns => readAt file pos n :: samplesAt file (pos + n) ns

/-- Chunks by their offsets and numbers of samples. -/
def samplesIn (file : Bytes) : List (Nat × Nat) → List Nat → List Bytes
  | [], _ => []
  | (pos, n) :: chunks, sizes =>
    samplesAt file pos (sizes.take n) ++ samplesIn file chunks (sizes.drop n)

/-- How many samples there are in each chunk, from the first chunks with so many. -/
def perChunk (chunks : Nat) : List (Nat × Nat) → List Nat
  | [] => []
  | [(first, n)] => List.replicate (chunks + 1 - first) n
  | (first, n) :: (next, m) :: rest =>
    List.replicate (next - first) n ++ perChunk chunks ((next, m) :: rest)

section

variable {file pre post : Bytes} {pos : Nat}

theorem samplesAt_eq {xs : List Bytes} (hfile : file = pre ++ xs.flatten ++ post)
    (hpos : pos = pre.length) : samplesAt file pos (xs.map List.length) = xs := by
  induction xs generalizing pre pos with
  | nil => rfl
  | cons x xs ih =>
    have hcut : file = pre ++ x ++ (xs.flatten ++ post) := by
      rw [hfile, List.flatten_cons]
      simp only [List.append_assoc]
    rw [List.map_cons, samplesAt, hcut, readAt_middle pre x _ hpos rfl, ← hcut]
    have hrest : file = (pre ++ x) ++ xs.flatten ++ post := by
      rw [hcut]
      simp only [List.append_assoc]
    refine congrArg (x :: ·) (ih hrest ?_)
    rw [hpos, List.length_append]

/-- **Samples that lie in their chunks are found.** -/
theorem samplesIn_blocks {blocks : List (Nat × List Bytes)}
    (h : ∀ b ∈ blocks, ∃ pre post, file = pre ++ b.2.flatten ++ post ∧ b.1 = pre.length) :
    samplesIn file (blocks.map fun b => (b.1, b.2.length))
      ((blocks.flatMap Prod.snd).map List.length) = blocks.flatMap Prod.snd := by
  induction blocks with
  | nil => rfl
  | cons b blocks ih =>
    obtain ⟨pre, post, hfile, hpos⟩ := h b List.mem_cons_self
    have hlen : (b.2.map List.length).length = b.2.length := List.length_map _
    rw [List.map_cons, List.flatMap_cons, List.map_append, samplesIn, ← hlen, List.take_left,
      List.drop_left, samplesAt_eq hfile hpos,
      ih fun c hc => h c (List.mem_cons_of_mem b hc)]

/-- **An entry for every chunk.** -/
theorem perChunk_each (ns : List Nat) (k : Nat) :
    perChunk (k + ns.length) ((ns.zipIdx k).map fun c => (c.2 + 1, c.1)) = ns := by
  induction ns generalizing k with
  | nil => rfl
  | cons n ns ih =>
    have hlen : k + (n :: ns).length = k + 1 + ns.length := by
      rw [List.length_cons]
      omega
    cases ns with
    | nil =>
      rw [List.zipIdx_cons, List.zipIdx_nil, List.map_singleton, perChunk]
      have hone : k + [n].length + 1 - (k + 1) = 1 := by
        rw [List.length_singleton]
        omega
      rw [hone]
      rfl
    | cons m ms =>
      have hnext := ih (k + 1)
      have hone : k + 1 + 1 - (k + 1) = 1 := by omega
      rw [hlen, List.zipIdx_cons, List.zipIdx_cons, List.map_cons, List.map_cons, perChunk, hone]
      rw [List.zipIdx_cons, List.map_cons] at hnext
      rw [hnext]
      rfl

end

/-! ## Tables -/

/-- All numbers of 32 bits. -/
def numbersOf (s : Bytes) : List Nat := readNumbers 4 (s.length / 4) s

/-- The entries of a table, each of `k` numbers; behind the version there is how many. -/
def readTable (k : Nat) (s : Bytes) : Option (List Nat) :=
  let entries := (numbersOf s).drop 2
  if entries.length = k * (numbersOf s).getD 1 0 then some entries else none

/-- The sizes: one for all, or a table. -/
def readSizes (s : Bytes) : Option (List Nat) :=
  let sizes := (numbersOf s).drop 3
  let all := (numbersOf s).getD 1 0
  let count := (numbersOf s).getD 2 0
  if all ≠ 0 then some (List.replicate count all)
  else if sizes.length = count then some sizes else none

def pairs : List Nat → List (Nat × Nat)
  | a :: b :: rest => (a, b) :: pairs rest
  | _ => []

/-- The third number, which names a description, is of no concern. -/
def firstOfThree : List Nat → List (Nat × Nat)
  | a :: b :: _ :: rest => (a, b) :: firstOfThree rest
  | _ => []

theorem numbersOf_be {vs : List Nat} (h : ∀ v ∈ vs, v < 2 ^ 32) :
    numbersOf (vs.flatMap (be 4)) = vs := by
  have hlen : (vs.flatMap (be 4)).length / 4 = vs.length := by
    rw [length_flatMap_records (length_be 4), Nat.mul_div_cancel_left _ (by decide)]
  have hread := readNumbers_be (w := 4) h []
  rw [List.append_nil] at hread
  rw [numbersOf, hlen, hread]

/-- **A table is read back.** -/
theorem readTable_row {k n : Nat} {vs : List Nat} (hlen : vs.length = k * n)
    (h : ∀ v ∈ 0 :: n :: vs, v < 2 ^ 32) :
    readTable k ((0 :: n :: vs).flatMap (be 4)) = some vs := by
  rw [readTable, numbersOf_be h]
  exact if_pos hlen

theorem readSizes_all {n count : Nat} (hn : n ≠ 0)
    (h : ∀ v ∈ [0, n, count], v < 2 ^ 32) :
    readSizes ([0, n, count].flatMap (be 4)) = some (List.replicate count n) := by
  rw [readSizes, numbersOf_be h]
  exact if_pos hn

theorem readSizes_row {vs : List Nat} (h : ∀ v ∈ 0 :: 0 :: vs.length :: vs, v < 2 ^ 32) :
    readSizes ((0 :: 0 :: vs.length :: vs).flatMap (be 4)) = some vs := by
  rw [readSizes, numbersOf_be h]
  exact (if_neg (fun hne => hne rfl)).trans (if_pos rfl)

theorem pairs_flatMap (es : List (Nat × Nat)) : pairs (es.flatMap fun e => [e.1, e.2]) = es := by
  induction es with
  | nil => rfl
  | cons e es ih =>
    rw [List.flatMap_cons]
    exact congrArg (e :: ·) ih

theorem firstOfThree_flatMap (es : List (Nat × Nat)) :
    firstOfThree (es.flatMap fun e => [e.1, e.2, 1]) = es := by
  induction es with
  | nil => rfl
  | cons e es ih =>
    rw [List.flatMap_cons]
    exact congrArg (e :: ·) ih

/-! ## The player -/

/-- The content of the first box with this name. -/
def within (name : String) (s : Bytes) : Option Bytes :=
  (readBoxes s).bind fun bs => (bs.find? fun b => decide (b.id = fourcc name)).map Box.body

theorem within_kids {as : List Atom} (h : (Atom.allBytes as).length < 2 ^ 32) (name : String) :
    within name (Atom.allBytes as) =
      (as.find? fun a => decide (a.id = fourcc name)).map Atom.body := by
  rw [within, Atom.readBoxes_kids h, Option.bind_some, List.find?_map, Option.map_map]
  rfl

/-- The samples of a track whose tables are in `stbl`. -/
def readSamples (file stbl : Bytes) : Option (List Bytes) :=
  ((within "stco" stbl).bind (readTable 1)).bind fun offsets =>
    ((within "stsc" stbl).bind (readTable 3)).bind fun entries =>
      ((within "stsz" stbl).bind readSizes).map fun sizes =>
        samplesIn file (offsets.zip (perChunk offsets.length (firstOfThree entries))) sizes

/-- There need not be a table of key frames. -/
def readKeys (stbl : Bytes) : Option (Option (List Nat)) :=
  (within "stss" stbl).elim (some none) fun s => (readTable 1 s).map some

/-- A track. -/
def readTrack (file trak : Bytes) : Option Track :=
  (within "mdia" trak).bind fun mdia =>
    ((within "hdlr" mdia).bind fun hdlr => Riff.readId (hdlr.drop 8)).bind fun handler =>
      ((within "minf" mdia).bind (within "stbl")).bind fun stbl =>
        ((within "stts" stbl).bind (readTable 2)).bind fun stts =>
          (readKeys stbl).bind fun keys =>
            (readSamples file stbl).map fun samples => ⟨handler.1, pairs stts, keys, samples⟩

/-- All tracks of the file. -/
def readMovie (file : Bytes) : Option (List Track) :=
  (within "moov" file).bind fun moov => (readBoxes moov).bind fun bs =>
    (bs.filter fun b => decide (b.id = fourcc "trak")).mapM fun b => readTrack file b.body

end Maixii.Lib
