import Mathlib.Data.List.Infix
import Maixii.Lib.Bytes
import Maixii.Lib.Run

/-!
# `App/Mailbox.lean`: the frame mailbox between encoder and streamer

`test_venc_rtsp.c` and `librtsp.c`. The encoder thread publishes each packet in the global
`itestBuffer` (bytes, `lens`, `bIFrame`, then `bUpdate = 1`); the streaming thread polls
`bUpdate`, takes the pointer, the type and the length, clears `bUpdate`, and copies `*lens`
bytes from the pointer afterwards. Every statement of either thread is one step here and the two
interleave freely: there is no lock in the source and none in the model.

Without a lock the take can overlap a publish, and then a frame that mixes two packets is pushed
(`mailbox_mixes`). `Exclusive` is the exclusion a lock would have enforced, and under it the
mailbox delivers (`mailbox_delivers`).
-/

set_option autoImplicit false

namespace Maixii.App

open Maixii.Lib
open scoped List

/-- `sizeof(itestBuffer.buffer)`. -/
def bufferSize : Nat := 1920 * 1080 * 3 / 2

/-- One encoder packet: `pData[0..lens)` and whether it is an I slice. -/
structure Pack where
  isISlice : Bool
  data : Bytes
  deriving DecidableEq

/-- What `PushFrame` is given. -/
structure Frame where
  buffer : Bytes
  size : Nat
  type : UInt8
  deriving DecidableEq

/-- `itestBuffer`. Its array is memory: an address read gives a byte, whatever was stored. -/
structure TestBuffer where
  buffer : Nat → UInt8
  lens : Nat
  bIFrame : Bool
  bUpdate : Bool

/-- `memcpy(mem + off, src, n)`. -/
def memcpy (mem : Nat → UInt8) (off : Nat) (src : Bytes) : Nat → UInt8 := fun i =>
  if off ≤ i then (src[i - off]?).getD (mem i) else mem i

/-- The first `n` bytes from an address on. -/
def load (mem : Nat → UInt8) (n : Nat) : Bytes := (List.range n).map mem

/-- The encoder loop is about to execute this statement. -/
inductive Encoder
  | getStream
  | copyHead (p : Pack)
  | copyData (p : Pack)
  | setLens (p : Pack)
  | setIFrame (p : Pack)
  | setUpdate
  | releaseStream
  deriving DecidableEq

/-- `SendFrameThread`, through its call of `test_GetFrame`, is about to execute this one. -/
inductive Streamer
  | poll
  | setFrame
  | readType
  | readLens (type : UInt8)
  | clearUpdate (type : UInt8) (lens : Nat)
  | newBuffer (type : UInt8) (lens : Nat)
  | copyFrame (type : UInt8) (lens : Nat)
  | pushFrame (f : Frame)
  deriving DecidableEq

/-- Both threads, the buffer they share, and the past: what `GetStream` returned and what was
pushed. -/
structure State where
  box : TestBuffer
  enc : Encoder
  app : Streamer
  encoded : List Pack
  pushed : List Frame

/-- Who runs next; `GetStream` returns the packet the label carries. -/
inductive Turn
  | encoder (p : Pack)
  | streamer
  deriving DecidableEq

section

variable (sps : Bytes)

/-- What the encoder loop leaves in the buffer for a packet: SPS and PPS precede an I slice. -/
def Pack.image (p : Pack) : Bytes := if p.isISlice then sps ++ p.data else p.data

def Pack.type (p : Pack) : UInt8 := if p.isISlice then 1 else 2

/-- The frame that stands for a packet. -/
def Pack.frame (p : Pack) : Frame := ⟨p.image sps, (p.image sps).length, p.type⟩

/-- One statement of `test_venc_GetFrame`'s loop. A packet that does not fit the buffer is not
one the encoder may produce. -/
def encStep (s : State) (next : Pack) : Option State :=
  match s.enc with
  | .getStream =>
      if (next.image sps).length ≤ bufferSize then
        some { s with
          enc := if next.isISlice then .copyHead next else .copyData next
          encoded := s.encoded ++ [next] }
      else none
  | .copyHead p =>
      some { s with
        box := { s.box with buffer := memcpy s.box.buffer 0 sps }, enc := .copyData p }
  | .copyData p =>
      some { s with
        box := { s.box with
          buffer := memcpy s.box.buffer (if p.isISlice then sps.length else 0) p.data }
        enc := .setLens p }
  | .setLens p =>
      some { s with
        box := { s.box with lens := if p.isISlice then sps.length + p.data.length
                                    else p.data.length }
        enc := .setIFrame p }
  | .setIFrame p =>
      some { s with box := { s.box with bIFrame := p.isISlice }, enc := .setUpdate }
  | .setUpdate => some { s with box := { s.box with bUpdate := true }, enc := .releaseStream }
  | .releaseStream => some { s with enc := .getStream }

/-- One statement of `test_GetFrame` and then of `SendFrameThread`. -/
def appStep (s : State) : State :=
  match s.app with
  | .poll => if s.box.bUpdate then { s with app := .setFrame } else s
  | .setFrame => { s with app := .readType }
  | .readType => { s with app := .readLens (if s.box.bIFrame then 1 else 2) }
  | .readLens t => { s with app := .clearUpdate t s.box.lens }
  | .clearUpdate t l => { s with box := { s.box with bUpdate := false }, app := .newBuffer t l }
  | .newBuffer t l => { s with app := .copyFrame t l }
  | .copyFrame t l => { s with app := .pushFrame ⟨load s.box.buffer l, l, t⟩ }
  | .pushFrame f => { s with app := .poll, pushed := s.pushed ++ [f] }

def step (s : State) : Turn → Option State
  | .encoder p => encStep sps s p
  | .streamer => some (appStep s)

/-- Both threads before their first statement; the array holds anything. -/
def start (s : State) : Prop :=
  s.enc = .getStream ∧ s.app = .poll ∧ s.box.bUpdate = false ∧ s.encoded = [] ∧ s.pushed = []

def mailbox : System State Turn := System.ofStep start (step sps)

/-! ## The exclusion that is missing -/

/-- Nothing of the next packet has been stored yet. -/
def Encoder.between : Encoder → Bool
  | .getStream | .copyHead _ | .setUpdate | .releaseStream => true
  | .copyData p => !p.isISlice
  | .setLens _ | .setIFrame _ => false

/-- The next statement stores into `buffer`, `lens` or `bIFrame`. -/
def Encoder.stores : Encoder → Bool
  | .copyHead _ | .copyData _ | .setLens _ | .setIFrame _ => true
  | .getStream | .setUpdate | .releaseStream => false

/-- The next statement is `itestBuffer.bUpdate = 0`. -/
def Streamer.clears : Streamer → Bool
  | .clearUpdate _ _ => true
  | _ => false

/-- The type has been read and the bytes have not been copied. -/
def Streamer.taking : Streamer → Bool
  | .readLens _ | .clearUpdate _ _ | .newBuffer _ _ | .copyFrame _ _ => true
  | .poll | .setFrame | .readType | .pushFrame _ => false

/-- **The guard.** The encoder stores nothing while a frame is being taken, a take does not begin
while a packet is half stored, and the flag is not cleared when its packet is stored but not yet
announced. -/
def Exclusive (s : State) : Turn → Prop
  | .encoder _ => s.enc.stores = true → s.app.taking = false
  | .streamer =>
      (s.app = .readType → s.enc.between = true) ∧
      (s.app.clears = true → s.enc ≠ .setUpdate)

instance : ∀ (s : State) (i : Turn), Decidable (Exclusive s i)
  | s, .encoder _ => inferInstanceAs (Decidable (s.enc.stores = true → s.app.taking = false))
  | s, .streamer => inferInstanceAs (Decidable ((s.app = .readType → s.enc.between = true) ∧
      (s.app.clears = true → s.enc ≠ .setUpdate)))

/-! ## The invariant -/

/-- The packet under way: out of `GetStream`, not completely stored. -/
def Encoder.underWay : Encoder → List Pack
  | .copyHead p | .copyData p | .setLens p | .setIFrame p => [p]
  | .getStream | .setUpdate | .releaseStream => []

/-- The buffer holds this packet. -/
def Holds (b : TestBuffer) (p : Pack) : Prop :=
  load b.buffer (p.image sps).length = p.image sps ∧ b.lens = (p.image sps).length ∧
    b.bIFrame = p.isISlice

/-- How far the packet under way is stored. -/
def Stored (b : TestBuffer) (done : List Pack) : Encoder → Prop
  | .copyHead p => p.isISlice = true ∧ ∀ q, done.getLast? = some q → Holds sps b q
  | .copyData p =>
      if p.isISlice then load b.buffer sps.length = sps
      else ∀ q, done.getLast? = some q → Holds sps b q
  | .setLens p => load b.buffer (p.image sps).length = p.image sps
  | .setIFrame p =>
      load b.buffer (p.image sps).length = p.image sps ∧ b.lens = (p.image sps).length
  | .getStream | .setUpdate | .releaseStream => ∀ q, done.getLast? = some q → Holds sps b q

/-- A packet is waiting to be taken, announced or about to be. -/
def Fresh (s : State) : Prop := s.box.bUpdate = true ∨ s.enc = .setUpdate

/-- The frames pushed are packets done, in order; a fresh packet is not among them. -/
def Settled (done : List Pack) (s : State) (fs : List Frame) : Prop :=
  fs <+ done.map (Pack.frame sps) ∧
    (Fresh s → ∃ ds q, done = ds ++ [q] ∧ fs <+ ds.map (Pack.frame sps))

/-- The newest packet is being taken: it is whole in the buffer and was not pushed before. -/
def Taking (done : List Pack) (s : State) (t : UInt8) (l : Option Nat) : Prop :=
  s.enc.between = true ∧ ∃ ds q, done = ds ++ [q] ∧ s.pushed <+ ds.map (Pack.frame sps) ∧
    t = q.type ∧ ∀ n, l = some n → n = (q.image sps).length

def Consistent (done : List Pack) (s : State) : Prop :=
  match s.app with
  | .poll => Settled sps done s s.pushed
  | .setFrame | .readType => s.box.bUpdate = true ∧ Settled sps done s s.pushed
  | .readLens t => s.box.bUpdate = true ∧ Taking sps done s t none
  | .clearUpdate t l => s.box.bUpdate = true ∧ Taking sps done s t (some l)
  | .newBuffer t l | .copyFrame t l => ¬ Fresh s ∧ Taking sps done s t (some l)
  | .pushFrame f => Settled sps done s (s.pushed ++ [f])

structure Inv (s : State) : Prop where
  intro ::
  ok : ∃ done, s.encoded = done ++ s.enc.underWay ∧ Stored sps s.box done s.enc ∧
    Consistent sps done s

/-! ## Memory -/

theorem length_load (mem : Nat → UInt8) (n : Nat) : (load mem n).length = n := by
  simp [load]

theorem load_eq_iff {mem : Nat → UInt8} {bs : Bytes} :
    load mem bs.length = bs ↔ ∀ i (h : i < bs.length), mem i = bs[i] := by
  constructor
  · intro h i hi
    have hl : i < (load mem bs.length).length := by rw [length_load]; exact hi
    have : (load mem bs.length)[i] = bs[i] := by simp only [h]
    simpa [load] using this
  · intro h
    refine List.ext_getElem (length_load _ _) (fun i h1 h2 => ?_)
    simpa [load] using h i h2

theorem load_memcpy_zero (mem : Nat → UInt8) (src : Bytes) :
    load (memcpy mem 0 src) src.length = src := by
  rw [load_eq_iff]
  intro i hi
  simp [memcpy, hi]

/-- A second copy placed right behind a first one extends it. -/
theorem load_memcpy_append {mem : Nat → UInt8} {head : Bytes} (src : Bytes)
    (h : load mem head.length = head) :
    load (memcpy mem head.length src) (head ++ src).length = head ++ src := by
  rw [load_eq_iff] at h ⊢
  intro i hi
  rw [List.length_append] at hi
  by_cases hlt : i < head.length
  · rw [memcpy, if_neg (by omega), h i hlt, List.getElem_append_left hlt]
  · have hle : head.length ≤ i := Nat.le_of_not_lt hlt
    have hsrc : i - head.length < src.length := by omega
    rw [memcpy, if_pos hle, List.getElem?_eq_getElem hsrc, Option.getD_some,
      List.getElem_append_right hle]

/-! ## The encoder's steps -/

variable {sps}

theorem Stored.last {b : TestBuffer} {done : List Pack} {e : Encoder}
    (h : Stored sps b done e) (hb : e.between = true) :
    ∀ q, done.getLast? = some q → Holds sps b q := by
  cases e with
  | getStream | setUpdate | releaseStream => exact h
  | copyHead p => exact h.2
  | copyData p =>
    have hp : p.isISlice = false := by simpa [Encoder.between] using hb
    simpa [Stored, hp] using h
  | setLens p | setIFrame p => simp [Encoder.between] at hb

/-- A frame that is being taken is unharmed by a statement that stores nothing. -/
theorem Taking.congr {done : List Pack} {s s' : State} {t : UInt8} {l : Option Nat}
    (h : Taking sps done s t l) (hp : s'.pushed = s.pushed) (hb : s'.enc.between = true) :
    Taking sps done s' t l := by
  obtain ⟨-, ds, q, h1, h2, h3⟩ := h
  exact ⟨hb, ds, q, h1, hp ▸ h2, h3⟩

theorem Settled.congr {done : List Pack} {s s' : State} {fs : List Frame}
    (h : Settled sps done s fs) (hf : Fresh s' → Fresh s) : Settled sps done s' fs :=
  ⟨h.1, fun hs => h.2 (hf hs)⟩

/-- A packet that has just been stored is one more that nobody has pushed. -/
theorem Settled.snoc {done : List Pack} {s s' : State} {fs : List Frame} (p : Pack)
    (h : Settled sps done s fs) : Settled sps (done ++ [p]) s' fs := by
  refine ⟨h.1.trans ?_, fun _ => ⟨done, p, rfl, h.1⟩⟩
  rw [List.map_append]
  exact List.sublist_append_left _ _

/-- Changing only the encoder's place, between packets, leaves the streamer's view as it is. -/
theorem Consistent.congr {done : List Pack} {s s' : State} (h : Consistent sps done s)
    (happ : s'.app = s.app) (hp : s'.pushed = s.pushed) (hu : s'.box.bUpdate = s.box.bUpdate)
    (hf : Fresh s' → Fresh s) (hb : s.app.taking = true → s'.enc.between = true) :
    Consistent sps done s' := by
  unfold Consistent at h ⊢
  rw [happ, hu]
  cases ha : s.app with
  | poll => simpa only [ha, hp] using Settled.congr (by simpa only [ha] using h) hf
  | setFrame | readType =>
    simp only [ha] at h
    exact ⟨h.1, hp ▸ h.2.congr hf⟩
  | readLens t | clearUpdate t l =>
    simp only [ha] at h
    exact ⟨h.1, h.2.congr hp (hb (by rw [ha]; rfl))⟩
  | newBuffer t l | copyFrame t l =>
    simp only [ha] at h
    exact ⟨fun hs => h.1 (hf hs), h.2.congr hp (hb (by rw [ha]; rfl))⟩
  | pushFrame f =>
    simp only [ha] at h
    exact hp ▸ h.congr hf

/-- The last store of a packet: the streamer is not in the middle of a take. -/
theorem Consistent.snoc {done : List Pack} {s s' : State} (p : Pack)
    (h : Consistent sps done s) (happ : s'.app = s.app) (hp : s'.pushed = s.pushed)
    (hu : s'.box.bUpdate = s.box.bUpdate) (ht : s.app.taking = false) :
    Consistent sps (done ++ [p]) s' := by
  unfold Consistent at h ⊢
  rw [happ, hu]
  cases ha : s.app with
  | poll =>
    simp only [ha] at h
    exact hp ▸ h.snoc p
  | setFrame | readType =>
    simp only [ha] at h
    exact ⟨h.1, hp ▸ h.2.snoc p⟩
  | readLens t | clearUpdate t l | newBuffer t l | copyFrame t l =>
    rw [ha] at ht
    simp [Streamer.taking] at ht
  | pushFrame f =>
    simp only [ha] at h
    exact hp ▸ h.snoc p

/-- `bUpdate = 1` announces the packet that was stored; nobody can be past clearing the flag. -/
theorem Consistent.announce {done : List Pack} {s s' : State} (h : Consistent sps done s)
    (happ : s'.app = s.app) (hp : s'.pushed = s.pushed) (hu : s'.box.bUpdate = true)
    (he : s.enc = .setUpdate) (hb : s'.enc.between = true) : Consistent sps done s' := by
  unfold Consistent at h ⊢
  have hfresh : Fresh s := Or.inr he
  rw [happ]
  cases ha : s.app with
  | poll =>
    simp only [ha] at h
    exact hp ▸ h.congr fun _ => hfresh
  | setFrame | readType =>
    simp only [ha] at h
    exact ⟨hu, hp ▸ h.2.congr fun _ => hfresh⟩
  | readLens t | clearUpdate t l =>
    simp only [ha] at h
    exact ⟨hu, h.2.congr hp hb⟩
  | newBuffer t l | copyFrame t l =>
    simp only [ha] at h
    exact absurd hfresh h.1
  | pushFrame f =>
    simp only [ha] at h
    exact hp ▸ h.congr fun _ => hfresh

theorem encStep_inv {s s' : State} {next : Pack} (hi : Inv sps s)
    (hg : Exclusive s (.encoder next)) (hst : encStep sps s next = some s') : Inv sps s' := by
  obtain ⟨⟨done, henc, hsto, hcon⟩⟩ := hi
  have hfree : s.enc.stores = true → s.app.taking = true → False := fun h1 h2 => by
    rw [hg h1] at h2
    exact Bool.noConfusion h2
  cases he : s.enc with
  | getStream =>
    simp only [encStep, he] at hst
    split at hst
    · simp only [Option.some.injEq] at hst
      subst hst
      rw [he] at henc hsto
      simp only [Encoder.underWay, List.append_nil] at henc
      have hlast : ∀ q, done.getLast? = some q → Holds sps s.box q := hsto
      refine ⟨done, ?_, ?_, hcon.congr rfl rfl rfl ?_ ?_⟩
      · cases next.isISlice <;> simp [Encoder.underWay, henc]
      · cases hn : next.isISlice with
        | true => exact ⟨hn, hlast⟩
        | false => simpa [Stored, hn] using hlast
      · rintro (h | h)
        · exact Or.inl h
        · cases hn : next.isISlice <;> simp [hn] at h
      · intro _
        cases hn : next.isISlice <;> simp [Encoder.between, hn]
    · simp at hst
  | copyHead p =>
    simp only [encStep, he, Option.some.injEq] at hst
    subst hst
    rw [he] at henc hsto
    refine ⟨done, henc, ?_, hcon.congr rfl rfl rfl ?_ ?_⟩
    · simpa [Stored, hsto.1] using load_memcpy_zero s.box.buffer sps
    · rintro (h | h)
      · exact Or.inl h
      · simp at h
    · intro h
      exact (hfree (by rw [he]; rfl) h).elim
  | copyData p =>
    simp only [encStep, he, Option.some.injEq] at hst
    subst hst
    rw [he] at henc hsto
    refine ⟨done, henc, ?_, hcon.congr rfl rfl rfl ?_ ?_⟩
    · cases hp : p.isISlice with
      | true =>
        have hhead : load s.box.buffer sps.length = sps := by simpa [Stored, hp] using hsto
        simpa [Stored, Pack.image, hp] using load_memcpy_append p.data hhead
      | false => simpa [Stored, Pack.image, hp] using load_memcpy_zero s.box.buffer p.data
    · rintro (h | h)
      · exact Or.inl h
      · simp at h
    · intro h
      exact (hfree (by rw [he]; rfl) h).elim
  | setLens p =>
    simp only [encStep, he, Option.some.injEq] at hst
    subst hst
    rw [he] at henc hsto
    refine ⟨done, henc, ⟨hsto, ?_⟩, hcon.congr rfl rfl rfl ?_ ?_⟩
    · cases hp : p.isISlice <;> simp [Pack.image, hp]
    · rintro (h | h)
      · exact Or.inl h
      · simp at h
    · intro h
      exact (hfree (by rw [he]; rfl) h).elim
  | setIFrame p =>
    simp only [encStep, he, Option.some.injEq] at hst
    subst hst
    rw [he] at henc hsto
    have ht : s.app.taking = false := hg (by rw [he]; rfl)
    refine ⟨done ++ [p], by simpa [Encoder.underWay] using henc, ?_, hcon.snoc p rfl rfl rfl ht⟩
    intro q hq
    rw [List.getLast?_concat, Option.some.injEq] at hq
    subst hq
    exact ⟨hsto.1, hsto.2, rfl⟩
  | setUpdate =>
    simp only [encStep, he, Option.some.injEq] at hst
    subst hst
    rw [he] at henc hsto
    exact ⟨done, henc, hsto, hcon.announce rfl rfl rfl he rfl⟩
  | releaseStream =>
    simp only [encStep, he, Option.some.injEq] at hst
    subst hst
    rw [he] at henc hsto
    refine ⟨done, henc, hsto, hcon.congr rfl rfl rfl ?_ (fun _ => rfl)⟩
    rintro (h | h)
    · exact Or.inl h
    · simp at h

/-! ## The streamer's steps -/

/-- The copy gives exactly the packet that was taken. -/
theorem Taking.frame {done : List Pack} {s : State} {t : UInt8} {l : Nat}
    (h : Taking sps done s t (some l)) (hsto : Stored sps s.box done s.enc) (hf : ¬ Fresh s)
    {s' : State} (hs' : Fresh s' → Fresh s) :
    Settled sps done s' (s.pushed ++ [⟨load s.box.buffer l, l, t⟩]) := by
  obtain ⟨hb, ds, q, hd, hsub, ht, hl⟩ := h
  have hl' := hl l rfl
  have hq : Holds sps s.box q := hsto.last hb q (by rw [hd, List.getLast?_concat])
  have hframe : (⟨load s.box.buffer l, l, t⟩ : Frame) = q.frame sps := by
    rw [hl', ht, Pack.frame, hq.1]
  refine ⟨?_, fun hs => absurd (hs' hs) hf⟩
  rw [hd, List.map_append, hframe]
  exact hsub.append (List.Sublist.refl _)

theorem appStep_inv {s : State} (hi : Inv sps s) (hg : Exclusive s .streamer) :
    Inv sps (appStep s) := by
  obtain ⟨⟨done, henc, hsto, hcon⟩⟩ := hi
  have hcon' := hcon
  unfold Consistent at hcon'
  cases ha : s.app with
  | poll =>
    simp only [ha] at hcon'
    cases hu : s.box.bUpdate with
    | true =>
      refine ⟨done, by simpa [appStep, ha, hu] using henc, by simpa [appStep, ha, hu] using hsto, ?_⟩
      simp only [appStep, ha, hu, if_true, Consistent]
      exact ⟨trivial, hcon'.congr fun h => h⟩
    | false =>
      have hs : appStep s = s := by simp [appStep, ha, hu]
      rw [hs]
      exact ⟨done, henc, hsto, hcon⟩
  | setFrame =>
    simp only [ha] at hcon'
    refine ⟨done, by simpa [appStep, ha] using henc, by simpa [appStep, ha] using hsto, ?_⟩
    simp only [appStep, ha, Consistent]
    exact ⟨hcon'.1, hcon'.2.congr fun h => h⟩
  | readType =>
    simp only [ha] at hcon'
    obtain ⟨hu, hset⟩ := hcon'
    have hb := hg.1 ha
    obtain ⟨ds, q, hd, hsub⟩ := hset.2 (Or.inl hu)
    have hq : Holds sps s.box q := hsto.last hb q (by rw [hd, List.getLast?_concat])
    refine ⟨done, by simpa [appStep, ha] using henc, by simpa [appStep, ha] using hsto, ?_⟩
    simp only [appStep, ha, Consistent]
    refine ⟨hu, hb, ds, q, hd, hsub, ?_, by simp⟩
    rw [hq.2.2, Pack.type]
  | readLens t =>
    simp only [ha] at hcon'
    obtain ⟨hu, hb, ds, q, hd, hsub, ht, -⟩ := hcon'
    have hq : Holds sps s.box q := hsto.last hb q (by rw [hd, List.getLast?_concat])
    refine ⟨done, by simpa [appStep, ha] using henc, by simpa [appStep, ha] using hsto, ?_⟩
    simp only [appStep, ha, Consistent]
    refine ⟨hu, hb, ds, q, hd, hsub, ht, ?_⟩
    intro n hn
    rw [← Option.some.inj hn, hq.2.1]
  | clearUpdate t l =>
    simp only [ha] at hcon'
    have hne := hg.2 (by rw [ha]; rfl)
    refine ⟨done, by simpa [appStep, ha] using henc, ?_, ?_⟩
    · simpa [appStep, ha, Stored, Holds] using hsto
    · simp only [appStep, ha, Consistent]
      refine ⟨?_, hcon'.2.congr rfl hcon'.2.1⟩
      rintro (h | h)
      · simp at h
      · exact hne h
  | newBuffer t l =>
    simp only [ha] at hcon'
    refine ⟨done, by simpa [appStep, ha] using henc, by simpa [appStep, ha] using hsto, ?_⟩
    simpa [appStep, ha, Consistent, Fresh, Taking] using hcon'
  | copyFrame t l =>
    simp only [ha] at hcon'
    refine ⟨done, by simpa [appStep, ha] using henc, by simpa [appStep, ha] using hsto, ?_⟩
    simp only [appStep, ha, Consistent]
    exact hcon'.2.frame hsto hcon'.1 fun h => h
  | pushFrame f =>
    simp only [ha] at hcon'
    refine ⟨done, by simpa [appStep, ha] using henc, by simpa [appStep, ha] using hsto, ?_⟩
    simpa [appStep, ha, Consistent, Settled, Fresh] using hcon'

theorem start_inv {s : State} (h : start s) : Inv sps s := by
  obtain ⟨he, ha, hu, hen, hpu⟩ := h
  refine ⟨[], by simp [he, hen, Encoder.underWay], by simp [he, Stored], ?_⟩
  have hf : ¬ Fresh s := by
    rintro (h | h)
    · simp [hu] at h
    · simp [he] at h
  simp only [Consistent, ha]
  exact ⟨by simp [hpu], fun h => absurd h hf⟩

theorem reach_inv {s : State} (hr : Reach (mailbox sps) Exclusive s) : Inv sps s := by
  refine hr.inv (fun s h => start_inv h) (fun t i u ht hg hst => ?_)
  cases i with
  | encoder p => exact encStep_inv ht hg hst
  | streamer =>
    simp only [mailbox, System.ofStep_step, step, Option.some.injEq] at hst
    exact hst ▸ appStep_inv ht hg

/-- Whatever is being taken, the frames already pushed are packets, each once, in order. -/
theorem Consistent.pushed {done : List Pack} {s : State} (h : Consistent sps done s) :
    s.pushed <+ done.map (Pack.frame sps) := by
  unfold Consistent at h
  cases ha : s.app with
  | poll =>
    simp only [ha] at h
    exact h.1
  | setFrame | readType =>
    simp only [ha] at h
    exact h.2.1
  | readLens t | clearUpdate t l | newBuffer t l | copyFrame t l =>
    simp only [ha] at h
    obtain ⟨-, -, ds, q, hd, hsub, -⟩ := h
    rw [hd, List.map_append]
    exact hsub.trans (List.sublist_append_left _ _)
  | pushFrame f =>
    simp only [ha] at h
    exact (List.sublist_append_left _ _).trans h.1

end

/-- **The mailbox delivers when takes and publishes do not overlap.** Whatever is encoded and
however the two threads interleave within the guard, the pushed frames are frames of encoded
packets: bytes, size and type of one packet each, no packet twice, in encoder order. -/
theorem mailbox_delivers (sps : Bytes) {s : State} (hr : Reach (mailbox sps) Exclusive s) :
    s.pushed <+ s.encoded.map (Pack.frame sps) := by
  obtain ⟨done, henc, -, hcon⟩ := reach_inv hr
  rw [henc, List.map_append]
  exact hcon.pushed.trans (List.sublist_append_left _ _)

/-! ## A packet taken while the next one is stored -/

/-- Zeroed memory and both threads about to start. -/
def zeroed : State := ⟨⟨fun _ => 0, 0, false, false⟩, .getStream, .poll, [], []⟩

theorem zeroed_start : start zeroed := ⟨rfl, rfl, rfl, rfl, rfl⟩

/-- Two packets. The encoder has the second one before the first is taken whole, and stores it
afterwards. -/
def turnsApart : List Turn :=
  List.replicate 6 (.encoder ⟨false, [1]⟩) ++ List.replicate 5 .streamer ++
    [.encoder ⟨false, [2, 3]⟩] ++ List.replicate 3 .streamer ++
      List.replicate 5 (.encoder ⟨false, [2, 3]⟩) ++ List.replicate 8 .streamer

theorem mailbox_delivers_two :
    ∃ s : State, s.pushed = [⟨[1], 1, 2⟩, ⟨[2, 3], 2, 2⟩] ∧
      s.pushed <+ s.encoded.map (Pack.frame [9]) := by
  obtain ⟨s, hr, hp⟩ := reach_of_runFrom (step [9]) Exclusive zeroed turnsApart State.pushed
    [⟨[1], 1, 2⟩, ⟨[2, 3], 2, 2⟩] zeroed_start (by decide)
  exact ⟨s, hp, mailbox_delivers [9] hr⟩

/-- The second packet is stored after the flag was cleared and before the first was copied. -/
def turnsMixed : List Turn :=
  List.replicate 6 (.encoder ⟨false, [1]⟩) ++ List.replicate 5 .streamer ++
    List.replicate 2 (.encoder ⟨false, [2, 3]⟩) ++ List.replicate 3 .streamer

/-- **What goes wrong without the exclusion**: the frame pushed has a byte of the second packet
and the length of the first. It is no packet's frame. -/
theorem mailbox_mixes :
    ∃ s : State, Reach (mailbox [9]) (anyStep State Turn) s ∧
      ¬ s.pushed <+ s.encoded.map (Pack.frame [9]) := by
  obtain ⟨s, hr, hp⟩ := reach_of_runFrom (step [9]) (anyStep State Turn) zeroed turnsMixed
    (fun s => (s.pushed, s.encoded)) ([⟨[2], 1, 2⟩], [⟨false, [1]⟩, ⟨false, [2, 3]⟩])
    zeroed_start (by decide)
  refine ⟨s, hr, ?_⟩
  rw [Prod.mk.injEq] at hp
  rw [hp.1, hp.2]
  decide

end Maixii.App
