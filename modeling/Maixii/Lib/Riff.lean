import Maixii.Lib.OutFile

/-!
# `Lib/Riff.lean`: the RIFF grammar

A RIFF file is a sequence of chunks: four characters, a 32-bit size, so many bytes, and a zero
byte if the size is odd. A chunk named `RIFF` or `LIST` holds four more characters and then
chunks again. `encode` writes such a tree and `parse` reads one, and they are each other's
inverse:

* `parse_encode`: what is written is read back, if the sizes fit;
* `encode_parse`: what is read is, byte for byte, what would be written.

Because of the padding every chunk begins at an even offset (`even_starts`).
-/

set_option autoImplicit false

namespace Maixii.Lib

structure FourCC where
  a : UInt8
  b : UInt8
  c : UInt8
  d : UInt8
  deriving DecidableEq, Repr

def FourCC.bytes (x : FourCC) : Bytes := [x.a, x.b, x.c, x.d]

@[simp] theorem FourCC.length_bytes (x : FourCC) : x.bytes.length = 4 := rfl

theorem FourCC.bytes_inj {x y : FourCC} (h : x.bytes = y.bytes) : x = y := by
  cases x
  cases y
  simpa [FourCC.bytes] using h

/-- The four characters of a literal. -/
def fourcc (s : String) : FourCC :=
  match ascii s with
  | [a, b, c, d] => ⟨a, b, c, d⟩
  | _ => ⟨0, 0, 0, 0⟩

/-- A chunk: bytes, or a list of chunks. -/
inductive Riff
  | chunk (id : FourCC) (data : Bytes)
  | list (id kind : FourCC) (items : List Riff)

namespace Riff

/-- The byte behind an odd number of bytes. -/
def pad (n : Nat) : Bytes := if n % 2 = 1 then [0] else []

mutual

def encode : Riff → Bytes
  | .chunk id data => id.bytes ++ le 4 data.length ++ data ++ pad data.length
  | .list id kind items =>
      id.bytes ++ le 4 (4 + (encodeAll items).length) ++ kind.bytes ++ encodeAll items

def encodeAll : List Riff → Bytes
  | [] => []
  | c :: cs => encode c ++ encodeAll cs

end

/-- The ids of lists. -/
def isList (id : FourCC) : Bool := id = fourcc "RIFF" || id = fourcc "LIST"

mutual

/-- The sizes fit their fields, and lists are named as lists are. -/
def Fits : Riff → Prop
  | .chunk id data => isList id = false ∧ data.length < 2 ^ 32
  | .list id _ items => isList id = true ∧ 4 + (encodeAll items).length < 2 ^ 32 ∧ FitsAll items

def FitsAll : List Riff → Prop
  | [] => True
  | c :: cs => Fits c ∧ FitsAll cs

end

mutual

/-- Lists are named as lists are, and chunks are not. -/
def Named : Riff → Prop
  | .chunk id _ => isList id = false
  | .list id _ items => isList id = true ∧ NamedAll items

def NamedAll : List Riff → Prop
  | [] => True
  | c :: cs => Named c ∧ NamedAll cs

end

/-- The four characters at the front. -/
def readId : Bytes → Option (FourCC × Bytes)
  | a :: b :: c :: d :: s => some (⟨a, b, c, d⟩, s)
  | _ => none

/-- The size at the front. -/
def readSize (s : Bytes) : Option (Nat × Bytes) :=
  if s.length < 4 then none else some (fromLE (s.take 4), s.drop 4)

/-- What is left once the padding of `n` bytes has been read. -/
def readPad (n : Nat) (s : Bytes) : Option Bytes :=
  if n % 2 = 1 then
    match s with
    | 0 :: s => some s
    | _ => none
  else some s

/-- **The parser**: all of the bytes as chunks. Every level of lists and every chunk uses up one
of `fuel`. -/
def parseAll : Nat → Bytes → Option (List Riff)
  | 0, _ => none
  | _ + 1, [] => some []
  | fuel + 1, s =>
      (readId s).bind fun (id, s) => (readSize s).bind fun (n, s) =>
        if s.length < n then none
        else
          (if isList id then
            (readId (s.take n)).bind fun (kind, body) =>
              (parseAll fuel body).map fun items => Riff.list id kind items
          else some (Riff.chunk id (s.take n))).bind fun c =>
            (readPad n (s.drop n)).bind fun s => (parseAll fuel s).map fun cs => c :: cs

/-- A file. -/
def parse (s : Bytes) : Option (List Riff) := parseAll (s.length + 1) s

mutual

/-- Where the chunks begin, the first at `off`. -/
def starts (off : Nat) : Riff → List Nat
  | .chunk _ _ => [off]
  | .list _ _ items => off :: startsAll (off + 12) items

def startsAll (off : Nat) : List Riff → List Nat
  | [] => []
  | c :: cs => starts off c ++ startsAll (off + (encode c).length) cs

end

/-! ## Lengths -/

theorem encodeAll_append (cs ds : List Riff) :
    encodeAll (cs ++ ds) = encodeAll cs ++ encodeAll ds := by
  induction cs with
  | nil => rfl
  | cons c cs ih => rw [List.cons_append, encodeAll, encodeAll, ih, List.append_assoc]

theorem length_encode_chunk (id : FourCC) (data : Bytes) :
    (encode (.chunk id data)).length = 8 + data.length + (pad data.length).length := by
  simp only [encode, List.length_append, FourCC.length_bytes, length_le_bytes]

theorem length_encode_list (id kind : FourCC) (items : List Riff) :
    (encode (.list id kind items)).length = 12 + (encodeAll items).length := by
  simp only [encode, List.length_append, FourCC.length_bytes, length_le_bytes]

theorem length_pad (n : Nat) : (n + (pad n).length) % 2 = 0 := by
  unfold pad
  split
  · rw [List.length_singleton]
    omega
  · rw [List.length_nil]
    omega

mutual

theorem even_encode : (c : Riff) → (encode c).length % 2 = 0
  | .chunk id data => by
    have := length_pad data.length
    rw [length_encode_chunk]
    omega
  | .list id kind items => by
    have := even_encodeAll items
    rw [length_encode_list]
    omega

theorem even_encodeAll : (cs : List Riff) → (encodeAll cs).length % 2 = 0
  | [] => rfl
  | c :: cs => by
    have h₁ := even_encode c
    have h₂ := even_encodeAll cs
    rw [encodeAll, List.length_append]
    omega

end

mutual

/-- **Every chunk begins at an even offset.** -/
theorem even_starts : (c : Riff) → ∀ off, off % 2 = 0 → ∀ p ∈ starts off c, p % 2 = 0
  | .chunk id data => by
    intro off ho p hp
    rw [starts, List.mem_singleton] at hp
    rw [hp, ho]
  | .list id kind items => by
    intro off ho p hp
    rw [starts, List.mem_cons] at hp
    rcases hp with rfl | hp
    · exact ho
    · exact even_startsAll items (off + 12) (by omega) p hp

theorem even_startsAll : (cs : List Riff) → ∀ off, off % 2 = 0 → ∀ p ∈ startsAll off cs, p % 2 = 0
  | [] => by
    intro off _ p hp
    rw [startsAll] at hp
    exact absurd hp List.not_mem_nil
  | c :: cs => by
    intro off ho p hp
    rw [startsAll, List.mem_append] at hp
    rcases hp with hp | hp
    · exact even_starts c off ho p hp
    · have := even_encode c
      exact even_startsAll cs _ (by omega) p hp

end

mutual

/-- In a tree that is short enough, every size fits. -/
theorem fits_of_length : (c : Riff) → Named c → (encode c).length < 2 ^ 32 → Fits c
  | .chunk id data => by
    intro hn hlen
    rw [length_encode_chunk] at hlen
    rw [Named] at hn
    rw [Fits]
    exact ⟨hn, by omega⟩
  | .list id kind items => by
    intro hn hlen
    rw [length_encode_list] at hlen
    rw [Named] at hn
    rw [Fits]
    exact ⟨hn.1, by omega, fitsAll_of_length items hn.2 (by omega)⟩

theorem fitsAll_of_length : (cs : List Riff) → NamedAll cs → (encodeAll cs).length < 2 ^ 32 →
    FitsAll cs
  | [] => fun _ _ => trivial
  | c :: cs => by
    intro hn hlen
    rw [encodeAll, List.length_append] at hlen
    rw [NamedAll] at hn
    rw [FitsAll]
    exact ⟨fits_of_length c hn.1 (by omega), fitsAll_of_length cs hn.2 (by omega)⟩

end

theorem namedAll_append (cs ds : List Riff) :
    NamedAll (cs ++ ds) ↔ NamedAll cs ∧ NamedAll ds := by
  induction cs with
  | nil => simp [NamedAll]
  | cons c cs ih => rw [List.cons_append, NamedAll, NamedAll, ih, and_assoc]

theorem namedAll_iff {cs : List Riff} : NamedAll cs ↔ ∀ c ∈ cs, Named c := by
  induction cs with
  | nil => simp [NamedAll]
  | cons c cs ih => rw [NamedAll, ih, List.forall_mem_cons]

theorem fitsAll_iff {cs : List Riff} : FitsAll cs ↔ ∀ c ∈ cs, Fits c := by
  induction cs with
  | nil => simp [FitsAll]
  | cons c cs ih => rw [FitsAll, ih, List.forall_mem_cons]

/-! ## Writing and reading -/

theorem readId_bytes (x : FourCC) (s : Bytes) : readId (x.bytes ++ s) = some (x, s) := rfl

theorem readSize_le {n : Nat} (s : Bytes) (h : n < 2 ^ 32) : readSize (le 4 n ++ s) = some (n, s) := by
  have hlen : ¬ (le 4 n ++ s).length < 4 := by
    rw [List.length_append, length_le_bytes]
    omega
  have htake : (le 4 n ++ s).take 4 = le 4 n := by
    rw [List.take_append_of_le_length (by rw [length_le_bytes]),
      List.take_of_length_le (by rw [length_le_bytes])]
  have hdrop : (le 4 n ++ s).drop 4 = s := by
    rw [List.drop_append_of_le_length (by rw [length_le_bytes]),
      List.drop_eq_nil_of_le (by rw [length_le_bytes]), List.nil_append]
  rw [readSize, if_neg hlen, htake, hdrop, fromLE_le_of_lt h]

theorem readPad_pad (n : Nat) (s : Bytes) : readPad n (pad n ++ s) = some s := by
  unfold readPad pad
  split <;> rfl

/-- Reading one chunk, when it is known how its inside is read. -/
theorem parseAll_cons {fuel n : Nat} {id : FourCC} {body s : Bytes} (hn : body.length = n)
    (hlt : n < 2 ^ 32) :
    parseAll (fuel + 1) (id.bytes ++ le 4 n ++ body ++ (pad n ++ s)) =
      (if isList id then
        (readId body).bind fun (kind, inner) =>
          (parseAll fuel inner).map fun items => Riff.list id kind items
      else some (Riff.chunk id body)).bind fun c => (parseAll fuel s).map fun cs => c :: cs := by
  have hs : id.bytes ++ le 4 n ++ body ++ (pad n ++ s) =
      id.a :: id.b :: id.c :: id.d :: (le 4 n ++ (body ++ (pad n ++ s))) := by
    simp only [FourCC.bytes, List.append_assoc, List.cons_append, List.nil_append]
  have hid : readId (id.a :: id.b :: id.c :: id.d :: (le 4 n ++ (body ++ (pad n ++ s)))) =
      some (id, le 4 n ++ (body ++ (pad n ++ s))) := rfl
  have hlen : ¬ (body ++ (pad n ++ s)).length < n := by
    rw [List.length_append]
    omega
  rw [hs, parseAll, hid, Option.bind_some]
  · dsimp only
    rw [readSize_le _ hlt, Option.bind_some]
    dsimp only
    rw [if_neg hlen, List.take_append_of_le_length (Nat.le_of_eq hn.symm),
      List.take_of_length_le (Nat.le_of_eq hn), List.drop_append_of_le_length (Nat.le_of_eq hn.symm),
      List.drop_eq_nil_of_le (Nat.le_of_eq hn), List.nil_append, readPad_pad]
    rfl
  · simp

/-- **What is written is read back.** -/
theorem parseAll_encode : (cs : List Riff) → ∀ fuel, FitsAll cs → (encodeAll cs).length < fuel →
    parseAll fuel (encodeAll cs) = some cs
  | [], fuel, _, hf => by
    cases fuel with
    | zero => exact absurd hf (Nat.not_lt_zero _)
    | succ fuel => rfl
  | .chunk id data :: cs, fuel, h, hf => by
    cases fuel with
    | zero => exact absurd hf (Nat.not_lt_zero _)
    | succ fuel =>
      rw [FitsAll, Fits] at h
      obtain ⟨⟨hid, hlt⟩, hcs⟩ := h
      rw [encodeAll, List.length_append, length_encode_chunk] at hf
      have ih := parseAll_encode cs fuel hcs (by omega)
      rw [encodeAll, encode, List.append_assoc, parseAll_cons rfl hlt, hid, ih]
      rfl
  | .list id kind items :: cs, fuel, h, hf => by
    cases fuel with
    | zero => exact absurd hf (Nat.not_lt_zero _)
    | succ fuel =>
      rw [FitsAll, Fits] at h
      obtain ⟨⟨hid, hlt, hitems⟩, hcs⟩ := h
      rw [encodeAll, List.length_append, length_encode_list] at hf
      have ihItems := parseAll_encode items fuel hitems (by omega)
      have ih := parseAll_encode cs fuel hcs (by omega)
      -- The inside of a list has an even number of bytes, and so no padding.
      have hpad : pad (4 + (encodeAll items).length) = [] := by
        have := even_encodeAll items
        rw [pad, if_neg (by omega)]
      have hbody : (kind.bytes ++ encodeAll items).length = 4 + (encodeAll items).length := by
        rw [List.length_append, FourCC.length_bytes]
      have hcut : encodeAll (.list id kind items :: cs) =
          id.bytes ++ le 4 (4 + (encodeAll items).length) ++ (kind.bytes ++ encodeAll items) ++
            (pad (4 + (encodeAll items).length) ++ encodeAll cs) := by
        rw [encodeAll, encode, hpad, List.nil_append, List.append_assoc _ kind.bytes]
      rw [hcut, parseAll_cons hbody hlt, hid, if_pos rfl, readId_bytes, Option.bind_some]
      dsimp only
      rw [ihItems, ih]
      rfl

theorem parse_encode {cs : List Riff} (h : FitsAll cs) : parse (encodeAll cs) = some cs :=
  parseAll_encode cs _ h (Nat.lt_succ_self _)

theorem readId_eq {s r : Bytes} {id : FourCC} (h : readId s = some (id, r)) : s = id.bytes ++ r := by
  unfold readId at h
  split at h
  · simp only [Option.some.injEq, Prod.mk.injEq] at h
    rw [← h.1, ← h.2]
    rfl
  · simp at h

theorem readSize_eq {s r : Bytes} {n : Nat} (h : readSize s = some (n, r)) :
    s = le 4 n ++ r ∧ n < 2 ^ 32 := by
  unfold readSize at h
  split at h
  · simp at h
  · rename_i hlen
    simp only [Option.some.injEq, Prod.mk.injEq] at h
    obtain ⟨rfl, rfl⟩ := h
    have h4 : (s.take 4).length = 4 := by
      rw [List.length_take]
      omega
    have hle : le 4 (fromLE (s.take 4)) = s.take 4 := by
      have := le_fromLE (s.take 4)
      rwa [h4] at this
    refine ⟨?_, ?_⟩
    · rw [hle, List.take_append_drop]
    · have := fromLE_lt (s.take 4)
      rwa [h4] at this

theorem readPad_eq {n : Nat} {s r : Bytes} (h : readPad n s = some r) : s = pad n ++ r := by
  unfold readPad at h
  unfold pad
  split at h
  · rename_i hn
    rw [if_pos hn]
    split at h
    · rw [← Option.some.inj h]
      rfl
    · simp at h
  · rename_i hn
    rw [if_neg hn, List.nil_append]
    exact Option.some.inj h

/-- **What is read is what would be written.** -/
theorem parseAll_eq : ∀ (fuel : Nat) {s : Bytes} {cs : List Riff}, parseAll fuel s = some cs →
    s = encodeAll cs ∧ FitsAll cs := by
  intro fuel
  induction fuel with
  | zero =>
    intro s cs h
    simp [parseAll] at h
  | succ fuel ih =>
    intro s cs h
    cases s with
    | nil =>
      obtain rfl := Option.some.inj h
      exact ⟨rfl, trivial⟩
    | cons x xs =>
      rw [parseAll] at h
      · simp only [Option.bind_eq_some_iff] at h
        obtain ⟨⟨id, s₁⟩, hid, ⟨n, s₂⟩, hn, h⟩ := h
        dsimp only at hn h
        split at h
        · simp at h
        · rename_i hlen
          simp only [Option.bind_eq_some_iff, Option.map_eq_some_iff] at h
          obtain ⟨c, hc, s₃, hpad, ds, hds, rfl⟩ := h
          obtain ⟨hs₂, hlt⟩ := readSize_eq hn
          obtain ⟨hrest, hfits⟩ := ih hds
          have htake : (s₂.take n).length = n := by
            rw [List.length_take]
            omega
          have hsplit : x :: xs =
              id.bytes ++ le 4 n ++ s₂.take n ++ (pad n ++ encodeAll ds) := by
            rw [readId_eq hid, hs₂, ← hrest, ← readPad_eq hpad]
            simp only [List.append_assoc, List.take_append_drop]
          split at hc
          · rename_i hl
            simp only [Option.bind_eq_some_iff, Option.map_eq_some_iff] at hc
            obtain ⟨⟨kind, body⟩, hkind, items, hitems, rfl⟩ := hc
            dsimp only at hitems
            obtain ⟨hbody, hfit⟩ := ih hitems
            have hk := readId_eq hkind
            have h4 : 4 + (encodeAll items).length = n := by
              rw [← htake, hk, List.length_append, FourCC.length_bytes, hbody]
            have hnopad : pad n = [] := by
              have := even_encodeAll items
              rw [pad, if_neg (by omega)]
            refine ⟨?_, ?_⟩
            · rw [hsplit, encodeAll, encode, h4, hk, hbody, hnopad, List.nil_append]
              simp only [List.append_assoc]
            · rw [FitsAll, Fits, h4]
              exact ⟨⟨hl, hlt, hfit⟩, hfits⟩
          · rename_i hl
            obtain rfl := Option.some.inj hc
            refine ⟨?_, ?_⟩
            · rw [hsplit, encodeAll, encode, htake]
              simp only [List.append_assoc]
            · rw [FitsAll, Fits, htake]
              exact ⟨⟨by simpa using hl, hlt⟩, hfits⟩
      · simp

theorem encode_parse {s : Bytes} {cs : List Riff} (h : parse s = some cs) :
    s = encodeAll cs ∧ FitsAll cs :=
  parseAll_eq _ h

/-- A file is read as a tree exactly if it is what would be written for it. -/
theorem parse_eq_some {s : Bytes} {cs : List Riff} :
    parse s = some cs ↔ s = encodeAll cs ∧ FitsAll cs := by
  constructor
  · exact encode_parse
  · rintro ⟨rfl, h⟩
    exact parse_encode h

end Riff

end Maixii.Lib
