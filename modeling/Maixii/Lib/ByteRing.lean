import Maixii.Lib.OutFile
import Maixii.Lib.Ring

/-!
# `Lib/ByteRing.lean`: a memory whose bytes go round

The `Window` of `Lib/Ring.lean`, where the slots are the bytes of a memory. Writing behind the window
and reading off its front are a copy up to the end of the memory, and a second one from its start
where the first does not reach: each is proved for one copy, and two copies are one after the other.
-/

set_option autoImplicit false

namespace Maixii.Lib

variable {s l bs : Bytes} {cap front w n : Nat}

/-- **From `front` on, the memory holds these.** -/
structure ByteRing (cap : Nat) (s : Bytes) (front : Nat) (l : Bytes) : Prop where
  length : s.length = cap
  window : Window cap (fun i => s[i]?) front l

theorem byteRing_nil (hlen : s.length = cap) (hcap : 0 < cap) : ByteRing cap s 0 [] where
  length := hlen
  window := window_nil hcap

/-- What a patch puts there. -/
theorem getElem?_patch_self {p i : Nat} (hp : p ≤ s.length) (hi : i < bs.length) :
    (patch s p bs)[p + i]? = bs[i]? := by
  have hlen : (s.take p).length = p := by rw [List.length_take, Nat.min_eq_left hp]
  rw [patch_eq hp, List.append_assoc, List.getElem?_append_right (by omega), hlen,
    Nat.add_sub_cancel_left, List.getElem?_append_left hi]

namespace ByteRing

/-- **One copy behind the window.** -/
theorem write (h : ByteRing cap s front l) (hat : w % cap = (front + l.length) % cap)
    (hroom : l.length + bs.length ≤ cap) (hend : w + bs.length ≤ cap) :
    ByteRing cap (patch s w bs) front (l ++ bs) := by
  have hlen := h.length
  have hplace : ∀ i < bs.length, (front + l.length + i) % cap = w + i := by
    intro i hi
    rw [← Nat.mod_add_mod, ← hat, Nat.mod_add_mod]
    exact Nat.mod_eq_of_lt (by omega)
  constructor
  · rw [length_patch (by omega), hlen]
  · apply h.window.append hroom
    · intro i a hi
      have hlt := (List.getElem?_eq_some_iff.mp hi).1
      rw [hplace i hlt, getElem?_patch_self (by omega) hlt]
      exact hi
    · intro k _ hk
      apply getElem?_patch (by omega)
      by_cases hbefore : k < w
      · exact Or.inl hbefore
      · refine Or.inr (Nat.le_of_not_lt fun hin => ?_)
        apply hk (k - w) (by omega)
        rw [hplace _ (by omega)]
        omega

/-- **Two copies**: up to the end, and from the start. -/
theorem write_round (h : ByteRing cap s front l) (hat : w % cap = (front + l.length) % cap)
    (hw : w ≤ cap) (hroom : l.length + bs.length ≤ cap) (hend : cap ≤ w + bs.length) :
    ByteRing cap (patch (patch s w (bs.take (cap - w))) 0 (bs.drop (cap - w))) front
      (l ++ bs) := by
  have hfirst : (bs.take (cap - w)).length = cap - w := by
    rw [List.length_take]
    omega
  have hsecond : (bs.drop (cap - w)).length = bs.length - (cap - w) := List.length_drop
  have hone := h.write hat (by omega : _ + (bs.take (cap - w)).length ≤ _) (by omega)
  have htwo := hone.write ?_ ?_ (by omega : 0 + (bs.drop (cap - w)).length ≤ _)
  · rwa [List.append_assoc, List.take_append_drop] at htwo
  · rw [List.length_append, hfirst, ← Nat.add_assoc, ← Nat.mod_add_mod, ← hat, Nat.mod_add_mod,
      Nat.add_sub_cancel' hw, Nat.mod_self, Nat.zero_mod]
  · rw [List.length_append]
    omega

theorem drop (h : ByteRing cap s front l) (n : Nat) :
    ByteRing cap s ((front + n) % cap) (l.drop n) :=
  ⟨h.length, h.window.drop n⟩

/-- **One copy off the front.** -/
theorem read (h : ByteRing cap s front l) (hn : n ≤ l.length) (hend : front + n ≤ cap) :
    readAt s front n = l.take n := by
  refine List.ext_getElem? fun i => ?_
  unfold readAt
  by_cases hi : i < n
  · have hheld := h.window.holds i l[i] (List.getElem?_eq_getElem (by omega))
    rw [Nat.mod_eq_of_lt (by omega)] at hheld
    rw [List.getElem?_take_of_lt hi, List.getElem?_take_of_lt hi, List.getElem?_drop, hheld,
      List.getElem?_eq_getElem]
  · have hle := Nat.le_of_not_lt hi
    rw [List.getElem?_eq_none ((List.length_take_le _ _).trans hle),
      List.getElem?_eq_none ((List.length_take_le _ _).trans hle)]

/-- **Two copies**: up to the end, and from the start. -/
theorem read_round (h : ByteRing cap s front l) (hn : n ≤ l.length) (hend : cap ≤ front + n) :
    readAt s front (cap - front) ++ readAt s 0 (n - (cap - front)) = l.take n := by
  have hfits := h.window.fits
  have hfront := h.window.front_lt
  have hrest := h.drop (cap - front)
  rw [Nat.add_sub_cancel' (Nat.le_of_lt hfront), Nat.mod_self] at hrest
  rw [h.read (by omega) (by omega), hrest.read (by rw [List.length_drop]; omega) (by omega),
    ← List.take_add, Nat.add_sub_cancel' (by omega)]

/-- The window is what is read of two memories, one behind the other. -/
theorem readAt_append_self (h : ByteRing cap s front l) : readAt (s ++ s) front l.length = l := by
  have hfits := h.window.fits
  have hfront := h.window.front_lt
  have hlen := h.length
  by_cases hend : front + l.length ≤ cap
  · rw [readAt_append_left (by omega), h.read (Nat.le_refl _) hend, List.take_length]
  · have hround := h.read_round (Nat.le_refl _) (by omega)
    rw [List.take_length] at hround
    have hupTo : (s.drop front).length = cap - front := by rw [List.length_drop, hlen]
    have hhere : readAt s front (cap - front) = s.drop front :=
      List.take_of_length_le (Nat.le_of_eq hupTo)
    calc readAt (s ++ s) front l.length
        = s.drop front ++ s.take (l.length - (cap - front)) := by
          unfold readAt
          rw [List.drop_append_of_le_length (by omega), List.take_append, hupTo,
            List.take_of_length_le (by omega)]
      _ = readAt s front (cap - front) ++ readAt s 0 (l.length - (cap - front)) := by
          rw [hhere, readAt, List.drop_zero]
      _ = l := hround

end ByteRing

end Maixii.Lib
