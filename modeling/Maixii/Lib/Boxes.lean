import Maixii.Lib.Riff

/-!
# `Lib/Boxes.lean`: boxes within boxes

A container format with boxes: a big-endian 32-bit size that counts the whole box, four characters,
and the content. `readBoxes` cuts a byte string into its boxes. What a box holds is up to its name:
bytes, boxes, or boxes behind some bytes (`Atom`).

* `readBoxes_bytes`: a row of boxes is read back, if the sizes fit;
* `Atom.readBoxes_kids`: and so are the boxes in a box;
* `Atom.sized_of_lt`: in a box below 4 GB no size field, at any level, was cut.
-/

set_option autoImplicit false

namespace Maixii.Lib

/-! ## Big-endian numbers -/

/-- The `w` low bytes of `n`, highest first. -/
def be (w n : Nat) : Bytes := (le w n).reverse

/-- The number such bytes spell. -/
def fromBE (bs : Bytes) : Nat := fromLE bs.reverse

@[simp] theorem length_be (w n : Nat) : (be w n).length = w := by
  rw [be, List.length_reverse, length_le_bytes]

theorem fromBE_be {w n : Nat} (h : n < 256 ^ w) : fromBE (be w n) = n := by
  rw [fromBE, be, List.reverse_reverse, fromLE_le_of_lt h]

/-- Numbers in a row. -/
def readNumbers (w : Nat) : Nat → Bytes → List Nat
  | 0, _ => []
  | n + 1, s => fromBE (s.take w) :: readNumbers w n (s.drop w)

/-- **Numbers are read back** that fit. -/
theorem readNumbers_be {w : Nat} {vs : List Nat} (h : ∀ v ∈ vs, v < 256 ^ w) (s : Bytes) :
    readNumbers w vs.length (vs.flatMap (be w) ++ s) = vs := by
  induction vs with
  | nil => rfl
  | cons v vs ih =>
    have hlen : (be w v).length = w := length_be w v
    rw [List.length_cons, List.flatMap_cons, List.append_assoc, readNumbers,
      List.take_append_of_le_length (Nat.le_of_eq hlen.symm), List.take_of_length_le
        (Nat.le_of_eq hlen), fromBE_be (h v List.mem_cons_self),
      List.drop_append_of_le_length (Nat.le_of_eq hlen.symm), List.drop_eq_nil_of_le
        (Nat.le_of_eq hlen), List.nil_append, ih fun u hu => h u (List.mem_cons_of_mem v hu)]

/-! ## Boxes -/

structure Box where
  id : FourCC
  body : Bytes
  deriving DecidableEq

namespace Box

def bytes (b : Box) : Bytes := be 4 (8 + b.body.length) ++ b.id.bytes ++ b.body

/-- The size fits in its field. -/
def Fits (b : Box) : Prop := 8 + b.body.length < 2 ^ 32

theorem length_bytes (b : Box) : b.bytes.length = 8 + b.body.length := by
  rw [bytes, List.length_append, List.length_append, length_be, FourCC.length_bytes]

end Box

/-- One box, and what is behind it. -/
def readBox (s : Bytes) : Option (Box × Bytes) :=
  (Riff.readId (s.drop 4)).bind fun r =>
    let n := fromBE (s.take 4)
    if 8 ≤ n ∧ n ≤ s.length then some (⟨r.1, readAt s 8 (n - 8)⟩, s.drop n) else none

/-- A row of boxes with nothing behind it. -/
def readRow : Nat → Bytes → Option (List Box)
  | 0, _ => none
  | fuel + 1, s =>
    if s = [] then some []
    else (readBox s).bind fun r => (readRow fuel r.2).map (r.1 :: ·)

/-- Every box takes eight bytes at least. -/
def readBoxes (s : Bytes) : Option (List Box) := readRow (s.length + 1) s

theorem readBox_bytes {b : Box} (h : b.Fits) (s : Bytes) : readBox (b.bytes ++ s) = some (b, s) := by
  have hsize : (b.bytes ++ s).take 4 = be 4 (8 + b.body.length) := by
    rw [Box.bytes, List.append_assoc, List.append_assoc,
      List.take_append_of_le_length (by rw [length_be]), List.take_of_length_le
        (by rw [length_be])]
  have hnum : fromBE ((b.bytes ++ s).take 4) = 8 + b.body.length := by
    rw [hsize, fromBE_be]
    exact h
  have hid : Riff.readId ((b.bytes ++ s).drop 4) = some (b.id, b.body ++ s) := by
    rw [Box.bytes, List.append_assoc, List.append_assoc,
      List.drop_append_of_le_length (by rw [length_be]), List.drop_eq_nil_of_le
        (by rw [length_be]), List.nil_append, Riff.readId_bytes]
  have hbody : readAt (b.bytes ++ s) 8 (8 + b.body.length - 8) = b.body := by
    rw [Box.bytes]
    refine readAt_middle _ _ _ ?_ (Nat.add_sub_cancel_left ..)
    rw [List.length_append, length_be, FourCC.length_bytes]
  have hle : 8 + b.body.length ≤ (b.bytes ++ s).length := by
    rw [List.length_append, Box.length_bytes]
    exact Nat.le_add_right _ _
  rw [readBox, hid, Option.bind_some]
  dsimp only
  rw [hnum, if_pos ⟨Nat.le_add_right _ _, hle⟩, hbody, ← b.length_bytes, List.drop_left]

theorem readRow_bytes {bs : List Box} (h : ∀ b ∈ bs, b.Fits) {fuel : Nat}
    (hfuel : (bs.flatMap Box.bytes).length < fuel) :
    readRow fuel (bs.flatMap Box.bytes) = some bs := by
  induction bs generalizing fuel with
  | nil =>
    obtain ⟨fuel, rfl⟩ : ∃ k, fuel = k + 1 := Nat.exists_eq_succ_of_ne_zero (by omega)
    rfl
  | cons b bs ih =>
    obtain ⟨fuel, rfl⟩ : ∃ k, fuel = k + 1 := Nat.exists_eq_succ_of_ne_zero (by omega)
    have hlen := b.length_bytes
    have hne : b.bytes ++ bs.flatMap Box.bytes ≠ [] := by
      intro hnil
      have := congrArg List.length hnil
      rw [List.length_append, List.length_nil] at this
      omega
    rw [List.flatMap_cons, List.length_append] at hfuel
    rw [List.flatMap_cons, readRow, if_neg hne, readBox_bytes (h b List.mem_cons_self),
      Option.bind_some, ih (fun c hc => h c (List.mem_cons_of_mem b hc)) (by omega)]
    rfl

/-- **A row of boxes is read back.** -/
theorem readBoxes_bytes {bs : List Box} (h : ∀ b ∈ bs, b.Fits) :
    readBoxes (bs.flatMap Box.bytes) = some bs := readRow_bytes h (Nat.lt_succ_self _)

/-! ## Boxes within boxes -/

/-- A box that holds some bytes, and boxes behind them. -/
inductive Atom
  | box (id : FourCC) (head : Bytes) (kids : List Atom)

namespace Atom

/-- A box that holds bytes only. -/
def leaf (id : FourCC) (body : Bytes) : Atom := .box id body []

def id : Atom → FourCC
  | .box id _ _ => id

mutual

def bytes : Atom → Bytes
  | .box id head kids => be 4 (8 + head.length + (allBytes kids).length) ++ id.bytes ++ head ++
      allBytes kids

def allBytes : List Atom → Bytes
  | [] => []
  | a :: as => bytes a ++ allBytes as

end

/-- The content. -/
def body : Atom → Bytes
  | .box _ head kids => head ++ allBytes kids

/-- As one box among others. -/
def toBox (a : Atom) : Box := ⟨a.id, a.body⟩

@[simp] theorem id_box (i : FourCC) (head : Bytes) (kids : List Atom) :
    (Atom.box i head kids).id = i := rfl

@[simp] theorem id_leaf (i : FourCC) (content : Bytes) : (leaf i content).id = i := rfl

@[simp] theorem body_leaf (i : FourCC) (content : Bytes) : (leaf i content).body = content :=
  List.append_nil content

theorem body_box (i : FourCC) (head : Bytes) (kids : List Atom) :
    (Atom.box i head kids).body = head ++ allBytes kids := rfl

theorem bytes_toBox (a : Atom) : a.toBox.bytes = a.bytes := by
  cases a with
  | box id head kids =>
    show be 4 (8 + (head ++ allBytes kids).length) ++ id.bytes ++ (head ++ allBytes kids) = _
    rw [List.length_append, bytes, Nat.add_assoc, List.append_assoc, List.append_assoc,
      List.append_assoc]

theorem length_bytes (a : Atom) : a.bytes.length = 8 + a.body.length := by
  rw [← bytes_toBox, Box.length_bytes]
  rfl

theorem allBytes_nil : allBytes [] = [] := by rw [allBytes]

theorem allBytes_cons (a : Atom) (as : List Atom) : allBytes (a :: as) = a.bytes ++ allBytes as := by
  rw [allBytes]

theorem allBytes_append (as bs : List Atom) :
    allBytes (as ++ bs) = allBytes as ++ allBytes bs := by
  induction as with
  | nil => rw [allBytes_nil, List.nil_append, List.nil_append]
  | cons a as ih => rw [List.cons_append, allBytes_cons, allBytes_cons, ih, List.append_assoc]

theorem allBytes_eq (as : List Atom) : allBytes as = (as.map toBox).flatMap Box.bytes := by
  induction as with
  | nil => rw [allBytes_nil, List.map_nil, List.flatMap_nil]
  | cons a as ih => rw [allBytes_cons, List.map_cons, List.flatMap_cons, bytes_toBox, ih]

theorem length_le_allBytes {a : Atom} {as : List Atom} (h : a ∈ as) :
    a.bytes.length ≤ (allBytes as).length := by
  induction as with
  | nil => cases h
  | cons b as ih =>
    rw [allBytes_cons, List.length_append]
    rcases List.mem_cons.mp h with rfl | hmem
    · exact Nat.le_add_right _ _
    · exact Nat.le_trans (ih hmem) (Nat.le_add_left _ _)

/-! ### Size fields -/

/-- The size field of a box, and of every box in it, is its length. -/
inductive Sized : Atom → Prop
  | box {id : FourCC} {head : Bytes} {kids : List Atom}
      (size : fromBE ((bytes (.box id head kids)).take 4) = (bytes (.box id head kids)).length)
      (inner : ∀ a ∈ kids, Sized a) : Sized (.box id head kids)

/-- The size field of one box. -/
theorem size_of_lt (a : Atom) (h : a.bytes.length < 2 ^ 32) :
    fromBE (a.bytes.take 4) = a.bytes.length := by
  rw [length_bytes] at h
  have hfield : a.bytes.take 4 = be 4 (8 + a.body.length) := by
    rw [← bytes_toBox, Box.bytes, List.append_assoc,
      List.take_append_of_le_length (by rw [length_be]),
      List.take_of_length_le (by rw [length_be])]
    rfl
  rw [hfield, fromBE_be h, length_bytes]

/-- **No size field was cut**, however deep the box, if the whole is below 4 GB. -/
theorem sized_of_lt : (a : Atom) → a.bytes.length < 2 ^ 32 → a.Sized
  | .box id head kids, h => by
    refine .box (size_of_lt _ h) fun a ha => sized_of_lt a ?_
    have hle := length_le_allBytes ha
    rw [length_bytes, body_box, List.length_append] at h
    omega

/-- A row of boxes is read back, if each is below 4 GB. -/
theorem readBoxes_row {as : List Atom} (h : ∀ a ∈ as, a.bytes.length < 2 ^ 32) :
    readBoxes (allBytes as) = some (as.map toBox) := by
  rw [allBytes_eq, readBoxes_bytes]
  intro b hb
  obtain ⟨a, ha, rfl⟩ := List.mem_map.mp hb
  have hlt := h a ha
  rw [length_bytes] at hlt
  exact hlt

/-- **The boxes in a box are read back**, if the whole is below 4 GB. -/
theorem readBoxes_kids {as : List Atom} (h : (allBytes as).length < 2 ^ 32) :
    readBoxes (allBytes as) = some (as.map toBox) :=
  readBoxes_row fun _ ha => Nat.lt_of_le_of_lt (length_le_allBytes ha) h

end Atom

end Maixii.Lib
