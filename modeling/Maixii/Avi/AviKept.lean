import Maixii.Avi.AviHeaders

/-!
# `Avi/AviKept.lean`: what a recording keeps

What the results about closed files share. A recording writes to no stream that it does not have,
its old index has the chunks of the first section, and it accepts no more chunks than it has
reserved (`kept`). The index of a stream that has no more chunks than its slots can take fits its
room (`roomForIndexes`). `close` succeeds in every recording, with the file that the writer makes of
the streams (`file_eq`). And a field that was written in four bytes is read from them (`dword_at`).
-/

set_option autoImplicit false

namespace Maixii.Avi

open Maixii.Lib

/-! ## What a recording keeps -/

/-- The streams that are written to exist, and the old index has the chunks of the first section. -/
structure Kept (c : AviConfig) (w : AviWriter) (placed : List Placement) : Prop where
  streams : ∀ p ∈ placed, p.stream < c.streams.length
  olds : w.oldIndexEntries.map AVIOLDINDEX.dwChunkId =
    (placed.filter fun p => p.riff = 0).map fun p => c.chunkId p.stream
  reserved : placed.length ≤ w.reservedFrames

namespace Kept

variable {c : AviConfig} {w w' : AviWriter} {placed : List Placement}

theorem start : Kept c c.writer.opened [] := by
  have holds : c.writer.opened.oldIndexEntries = [] := c.fresh_writer.oldIndexEntries
  refine ⟨List.forall_mem_nil _, ?_, Nat.zero_le _⟩
  rw [holds]
  rfl

theorem newSection (h : Kept c w placed) (hw : w.newSection = some w') : Kept c w' placed := by
  have heq := AviWriter.newSection_eq hw
  rw [AviWriter.beginSection_eq] at heq
  subst heq
  exact ⟨h.streams, h.olds, h.reserved⟩

theorem writeChunk (h : Kept c w placed) (hl : Layout c w placed) {i : Nat} {s : AviStream}
    {data : Bytes} (hs : w.streams[i]? = some s) (hroom : placed.length < w.reservedFrames) :
    Kept c (w.writeChunk i s (c.chunkId i) data)
      (placed ++ [⟨i, w.riffIdx, w.f.pos + 8, data⟩]) := by
  refine ⟨?_, ?_, ?_⟩
  · intro p hp
    rcases List.mem_append.mp hp with hp | hp
    · exact h.streams p hp
    · have hlen := congrArg List.length hl.types
      rw [List.length_map, List.length_map] at hlen
      rw [List.mem_singleton.mp hp, ← hlen]
      exact (List.getElem?_eq_some_iff.mp hs).1
  · show (if w.riffIdx = 0 then w.oldIndexEntries ++ [_] else w.oldIndexEntries).map _ = _
    rw [List.filter_append, List.map_append, ← h.olds]
    by_cases hz : w.riffIdx = 0
    · simp [hz]
    · simp [hz]
  · rw [List.length_append]
    exact hroom

end Kept

/-- Every recording keeps these. -/
theorem kept {c : AviConfig} {r : Recording} {G : Recording → UInt8 × Buffer → Prop}
    (h : Reach (recordings c) G r) : Kept c r.w r.placed := by
  refine (h.inv (P := fun r => Layout c r.w r.placed ∧ Kept c r.w r.placed) ?_ ?_).2
  · intro r hr
    obtain rfl := recordings_start hr
    exact ⟨Layout.start, Kept.start⟩
  · rintro r ⟨i, data⟩ r' ⟨hl, hk⟩ _ hw
    obtain ⟨hroom, s, w₁, hs, hsec, rfl⟩ := Recording.write_cases hw
    rw [hl.total] at hroom
    rcases hsec with ⟨_, hsec⟩ | ⟨_, rfl⟩
    · obtain ⟨hl₁, _, hstreams, _⟩ := hl.newSection hsec
      have hs₁ : w₁.streams[i.toNat]? = some s := hstreams ▸ hs
      have hsettings := hl₁.settings.trans hl.settings.symm
      have hreserved : w₁.reservedFrames = r.w.reservedFrames := by
        have h := congrArg AviWriter.reservedFrames hsettings
        exact h
      rw [hl₁.chunkId hs₁]
      exact ⟨hl₁.chunkId hs₁ ▸ hl₁.writeChunk hs₁,
        (hk.newSection hsec).writeChunk hl₁ hs₁ (hreserved ▸ hroom)⟩
    · rw [hl.chunkId hs]
      exact ⟨hl.chunkId hs ▸ hl.writeChunk hs, hk.writeChunk hl hs hroom⟩

/-- A recording has no more chunks than 32 bits can count. -/
theorem Kept.length_lt {c : AviConfig} {w : AviWriter} {placed : List Placement}
    (h : Kept c w placed) (hl : Layout c w placed) : placed.length < 2 ^ 32 := by
  have hreserved : w.reservedFrames = reservation c.writer.openDML c.writer.reservedFrames :=
    congrArg AviWriter.reservedFrames hl.settings
  have hlt := reservation_lt (d := c.writer.openDML) c.reservedFrames_lt
  have hle := h.reserved
  omega

/-- The numbers of indexes begin at zero. -/
theorem keyed_nonneg {k : Nat} {gs : List (List (Placement × Bases))}
    {x : Int × List AVISTDINDEX_ENTRY} (h : x ∈ keyed k gs) : 0 ≤ x.1 := by
  induction gs generalizing k with
  | nil => simp [keyed] at h
  | cons g gs ih =>
    rw [keyed, List.mem_cons] at h
    rcases h with rfl | h
    · exact Int.natCast_nonneg k
    · exact ih h

theorem chunkCount_le (placed : List Placement) (i : Nat) : chunkCount placed i ≤ placed.length :=
  List.length_filter_le _ _

/-! ## The index of a stream -/

namespace Indexed

variable {c : AviConfig} {placed : List Placement} {i : Nat} {s : AviStream}
  {done : List (List (Placement × Bases))} {cur : List (Placement × Bases)}

theorem length_keyed (k : Nat) (gs : List (List (Placement × Bases))) :
    (keyed k gs).length = gs.length := by
  induction gs generalizing k with
  | nil => rfl
  | cons g gs ih => rw [keyed, List.length_cons, ih, List.length_cons]

/-- **The super index fits its room**, if there are not more chunks than its slots can take. -/
theorem slots_le (h : Indexed c placed i s done cur)
    (hroom : chunkCount placed i ≤ perIndex * c.slots) :
    s.stdIndexEntries.length ≤ c.slots := by
  have hcount : chunkCount placed i = perIndex * done.length + cur.length := by
    rw [← h.count, count_after, chunkCount, ← map_fst_indexedOf, List.length_map]
  rw [h.entries]
  by_cases hc : cur = []
  · rw [if_pos hc]
    exact Nat.zero_le _
  · have hpos := List.length_pos_of_ne_nil hc
    rw [if_neg hc, length_keyed, List.length_append, List.length_singleton]
    have hlt : perIndex * done.length < perIndex * c.slots := by omega
    exact Nat.lt_of_mul_lt_mul_left hlt

end Indexed

/-- The indexes of a recording fit, if no stream has more chunks than its index can take. -/
theorem roomForIndexes {c : AviConfig} {w : AviWriter} {placed : List Placement}
    (hi : c.openDML = true → Indexes c w placed)
    (hroom : c.openDML = true → ∀ i, chunkCount placed i ≤ perIndex * c.slots) :
    RoomForIndexes c w := by
  intro hd r hr
  rw [AviConfig.rows] at hr
  obtain ⟨i, hi'⟩ := List.getElem?_of_mem hr
  rw [List.getElem?_zipWith] at hi'
  cases hs₀ : c.writer.streams[i]? with
  | none => simp [hs₀] at hi'
  | some s₀ =>
    cases hs : w.streams[i]? with
    | none => simp [hs₀, hs] at hi'
    | some s =>
      rw [hs₀, hs] at hi'
      obtain rfl := Option.some.inj hi'
      obtain ⟨done, cur, hx⟩ := (hi hd).streams i s hs
      have hle := hx.slots_le (hroom hd i)
      show clearsize _ ≤ (List.replicate (reserved c.openDML c.slots) 0).length
      rw [List.length_replicate, hd]
      exact Nat.add_le_add_left (Nat.mul_le_mul_right _ hle) _

/-! ## The closed file -/

/-- The file that `close` leaves. -/
def Recording.file (r : Recording) : Option Bytes := r.o.close.map Prod.fst

/-- Every standard index that has entries is there. -/
theorem Indexed.indexed {c : AviConfig} {placed : List Placement} {i : Nat} {s : AviStream}
    {done : List (List (Placement × Bases))} {cur : List (Placement × Bases)}
    (h : Indexed c placed i s done cur) : s.indexed = true := by
  refine List.all_eq_true.mpr fun x hx => decide_eq_true ?_
  rw [h.entries] at hx
  have hge := keyed_nonneg hx
  have hlt := keyed_lt hx
  rw [h.indexes]
  refine ⟨hge, ?_⟩
  split at hlt
  · exact absurd hlt (not_lt.mpr hge)
  · rw [List.length_append, List.length_singleton, Nat.zero_add] at hlt
    exact hlt

theorem Layout.length_streams {c : AviConfig} {w : AviWriter} {placed : List Placement}
    (h : Layout c w placed) : w.streams.length = c.streams.length := by
  have htypes := congrArg List.length h.types
  rwa [List.length_map, List.length_map] at htypes

/-- No stream is declared by writing. -/
theorem declared {c : AviConfig} {r : Recording} {G : Recording → UInt8 × Buffer → Prop}
    (h : Reach (recordings c) G r) : r.o.declared = Finset.range c.streams.length := by
  refine (h.inv (P := fun r => Layout c r.w r.placed ∧
    r.o.declared = Finset.range c.streams.length) ?_ ?_).2
  · intro r hr
    obtain rfl := recordings_start hr
    exact ⟨Layout.start, c.declared_eq⟩
  · rintro r ⟨i, data⟩ r' ⟨hl, hdecl⟩ _ hw
    obtain ⟨_, s, w₁, hs, hsec, rfl⟩ := Recording.write_cases hw
    have hlt : i.toNat < c.streams.length := by
      rw [← hl.length_streams]
      exact (List.getElem?_eq_some_iff.mp hs).1
    have hsame : insert i.toNat r.o.declared = Finset.range c.streams.length := by
      rw [hdecl]
      exact Finset.insert_eq_self.mpr (Finset.mem_range.mpr hlt)
    rcases hsec with ⟨_, hsec⟩ | ⟨_, rfl⟩
    · obtain ⟨hl₁, _, hstreams, _⟩ := hl.newSection hsec
      exact ⟨hl₁.writeChunk (hstreams ▸ hs), hsame⟩
    · exact ⟨hl.writeChunk hs, hsame⟩

/-- **Every recording can be closed**, and the file is the writer's. -/
theorem file_eq {c : AviConfig} {r : Recording} {G : Recording → UInt8 × Buffer → Prop}
    (h : Reach (recordings c) G r) : r.file = some r.w.close.f.bytes := by
  have hl := layout h
  refine AviObject.close_eq ?_ fun hd => List.all_eq_true.mpr fun s hs => ?_
  · rw [declared h, ← hl.length_streams]
  · have hdml : r.w.openDML = c.openDML :=
      (congrArg AviWriter.openDML hl.settings).trans c.writer_openDML
    obtain ⟨i, hi⟩ := List.getElem?_of_mem hs
    obtain ⟨done, cur, hidx⟩ := (indexes (hdml.symm.trans hd) h).streams i s hi
    exact hidx.indexed

/-! ## Reading a field -/

/-- A field inside of a part. -/
theorem dword_inside (a b c : Bytes) {q : Nat} (h : q + 4 ≤ b.length) :
    dword (a ++ b ++ c) (a.length + q) = dword b q := by
  rw [dword, readAt_inside _ _ _ h, ← dword]

theorem dword_at {bs a b : Bytes} {n p : Nat} (h : bs = a ++ le 4 n ++ b) (hp : p = a.length)
    (hn : n < 2 ^ 32) : dword bs p = n := by
  rw [dword, h, readAt_middle _ _ _ hp (by rw [length_le_bytes])]
  exact fromLE_le_of_lt hn

theorem dwords_append (ms ns : List Nat) : dwords (ms ++ ns) = dwords ms ++ dwords ns :=
  List.flatMap_append

theorem dwords_cons (n : Nat) (ns : List Nat) : dwords (n :: ns) = le 4 n ++ dwords ns := rfl

/-! ## One recording -/

/-- The recording of these calls. -/
def AviConfig.record (c : AviConfig) (calls : List (UInt8 × Buffer)) : Option Recording :=
  runFrom Recording.write (anyStep _ _) ⟨c.object.open.2, []⟩ calls

/-- What is read off it is read off one of the recordings. -/
theorem reach_of_record {α : Type} {c : AviConfig} {calls : List (UInt8 × Buffer)}
    {g : Recording → α} {a : α} (h : (c.record calls).map g = some a) :
    ∃ r, Reach (recordings c) (anyStep _ _) r ∧ g r = a :=
  reach_of_runFrom Recording.write (anyStep _ _) _ _ _ _
    (show (recordings c).start _ from rfl) h

/-- Video and audio, with indexes. -/
def indexedSettings : List AviSetting :=
  [.setVideoProperties 0 slowVideo, .setAudioProperties 1 (stereo 48000 16), .setFrameCount 0 4]

theorem opens_indexed : (AviObject.new.configure indexedSettings).open.1 = true := rfl

def indexedConfig : AviConfig := ⟨indexedSettings, opens_indexed⟩

/-- Four chunks of both streams. -/
def bothStreams : List (UInt8 × Buffer) :=
  [(0, shortFrame), (1, shortFrame), (1, shortFrame), (0, shortFrame)]

/-- There is room for as many in any stream. -/
theorem room_of_four {placed : List Placement} (h : placed.length ≤ 4) (i : Nat) :
    chunkCount placed i ≤ perIndex * indexedConfig.slots := by
  have hslots : indexedConfig.slots = 1 := by decide +kernel
  have hle := chunkCount_le placed i
  rw [hslots]
  exact (hle.trans h).trans (by decide)

end Maixii.Avi
