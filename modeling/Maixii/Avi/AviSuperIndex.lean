import Maixii.Avi.AviKept

/-!
# `Avi/AviSuperIndex.lean`: the room of the super indexes

`open` reserves room for the super index of each stream and takes 2044 chunks to a standard index;
`write_data` begins a new one when there are 2043. **So what `close` writes stays inside its room
just when no stream has more chunks than 2043 for each slot** (`super_indexes_inside`), and then no
byte of the file changes but the headers, the size fields and the indexes.
-/

set_option autoImplicit false

namespace Maixii.Avi

open Maixii.Lib AviWriter

/-! ## What may change -/

/-- The places of a stream that `close` fills in: its header, and the room of its super index. -/
def AviStream.areas (s : AviStream) (room : Nat) : List Area :=
  [⟨s.posStreamHeader, 64⟩, ⟨s.posOdmlSuperIdx, room⟩]

/-- All that `close` is meant to fill in. -/
def AviWriter.areas (w : AviWriter) (room : Nat) : List Area :=
  [⟨w.posAviMainHeader, 64⟩, ⟨w.posOdmlExt, 4⟩, ⟨w.posMoviListSize, 4⟩, ⟨w.posRIFFSize, 4⟩] ++
    w.streams.flatMap fun s => s.areas room

/-- **The super indexes stay inside their rooms**: an entry for each standard index fits, the file
is as it was but for the places that are meant, and so is the beginning of the list that follows
each room. -/
structure SuperIndexesInside (c : AviConfig) (r : Recording) : Prop where
  fits : ∀ s ∈ r.w.streams, clearsize s.stdIndexEntries.length ≤ clearsize c.slots
  intact : Rewritten (r.w.areas (clearsize c.slots)) r.w.f.bytes r.w.close.f.bytes
  following : ∀ s ∈ r.w.streams,
    readAt r.w.close.f.bytes (s.posOdmlSuperIdx + clearsize c.slots) 12 =
      readAt r.w.f.bytes (s.posOdmlSuperIdx + clearsize c.slots) 12

/-! ## What `close` writes -/

/-- `finish_old` fills in two sizes and appends. -/
theorem finishOld_patches (w : AviWriter) : ∃ m n, w.finishOld.f.bytes =
    patch (patch w.f.bytes w.posMoviListSize (le 4 m) ++ idx1 w.oldIndexEntries)
      w.posRIFFSize (le 4 n) := by
  let f₁ := (w.f.seekEnd.seek w.posMoviListSize).write
    (le 4 (w.f.seekEnd.pos - w.posMoviListSize - 4))
  have h₁ : f₁.seekEnd.AtEnd := OutFile.atEnd_seekEnd
  have h₂ := atEnd_writeFcc h₁ "idx1"
  have h₃ := h₂.1.write (le 4 (w.oldIndexEntries.length * sizeofOldIndex))
  have hfold := OutFile.foldl_write AVIOLDINDEX.toBytes w.oldIndexEntries (Nat.le_of_eq h₃)
  have hall : (w.oldIndexEntries.foldl (fun f e => f.write e.toBytes)
      ((writeFcc f₁.seekEnd "idx1").write
        (le 4 (w.oldIndexEntries.length * sizeofOldIndex)))).bytes =
      f₁.bytes ++ idx1 w.oldIndexEntries := by
    rw [hfold, h₃.bytes_write, h₂.1.bytes_write, h₂.2, OutFile.bytes_seekEnd, idx1]
    simp only [List.append_assoc]
  refine ⟨w.f.seekEnd.pos - w.posMoviListSize - 4,
    (f₁.bytes ++ idx1 w.oldIndexEntries).length - 8, ?_⟩
  show patch (w.oldIndexEntries.foldl (fun f e => f.write e.toBytes) ((writeFcc f₁.seekEnd
      "idx1").write (le 4 (w.oldIndexEntries.length * sizeofOldIndex)))).bytes w.posRIFFSize
      (le 4 ((w.oldIndexEntries.foldl (fun f e => f.write e.toBytes) ((writeFcc f₁.seekEnd
      "idx1").write (le 4 (w.oldIndexEntries.length * sizeofOldIndex)))).bytes.length - 8)) = _
  rw [hall]
  rfl

/-- The end of another section fills in two sizes. -/
theorem closeAvix_patches (w : AviWriter) : ∃ m n, (closeAvix w).f.bytes =
    patch (patch w.f.bytes w.posMoviListSize (le 4 m)) w.posRIFFSize (le 4 n) := ⟨_, _, rfl⟩

section

variable {c : AviConfig} {w : AviWriter} {placed : List Placement} {room : Nat}

theorem mem_areas_of_stream {s : AviStream} (hs : s ∈ w.streams) {x : Area}
    (hx : x ∈ s.areas room) : x ∈ w.areas room :=
  List.mem_append_right _ (List.mem_flatMap.mpr ⟨s, hs, hx⟩)

/-- The positions that the writer has noted are in the file. -/
structure PositionsIn (w : AviWriter) (n : Nat) : Prop where
  main : w.posAviMainHeader ≤ n
  ext : w.openDML = true → w.posOdmlExt ≤ n
  movi : w.posMoviListSize ≤ n
  riff : w.posRIFFSize ≤ n
  streams : ∀ s ∈ w.streams, s.posStreamHeader ≤ n ∧ (w.openDML = true → s.posOdmlSuperIdx ≤ n)

/-- The indexes of a stream go behind the end, and the list of them into its room. -/
theorem rewritten_closeStream {areas : List Area} {f : OutFile} {s : AviStream}
    (harea : (⟨s.posOdmlSuperIdx, room⟩ : Area) ∈ areas) (hpos : s.posOdmlSuperIdx ≤ f.bytes.length)
    (hfit : clearsize s.stdIndexEntries.length ≤ room) :
    Rewritten areas f.bytes (closeStream f s).bytes := by
  rw [closeStream_bytes f s hpos]
  refine (Rewritten.append areas f.bytes _).trans (Rewritten.patch harea (Nat.le_refl _) ?_ ?_)
  · rw [length_superBytes]
    exact Nat.add_le_add_left hfit _
  · rw [List.length_append]
    exact Nat.le_trans hpos (Nat.le_add_right _ _)

/-- **The headers and the indexes.** -/
theorem rewritten_filledIn (hpos : PositionsIn w w.f.bytes.length)
    (hfit : w.openDML = true → ∀ s ∈ w.streams, clearsize s.stdIndexEntries.length ≤ room) :
    Rewritten (w.areas room) w.f.bytes (filledIn w).bytes := by
  have hmain : Rewritten (w.areas room) w.f.bytes
      ((w.f.seek w.posAviMainHeader).write w.avimHeader.toBytes).bytes := by
    refine Rewritten.patch (x := ⟨w.posAviMainHeader, 64⟩) (by simp [AviWriter.areas])
      (Nat.le_refl _) ?_ hpos.main
    rw [OutFile.pos_seek, AVIMAINHEADER.length_toBytes]
  have hfront : Rewritten (w.areas room) w.f.bytes (mainHeaders w).bytes := by
    unfold mainHeaders
    dsimp only
    split
    · rename_i hd
      refine hmain.trans (Rewritten.patch (x := ⟨w.posOdmlExt, 4⟩) (by simp [AviWriter.areas])
        (Nat.le_refl _) ?_ (Nat.le_trans (hpos.ext hd) hmain.longer))
      exact Nat.le_of_eq (congrArg (w.posOdmlExt + ·) (length_le_bytes 4 w.totalFrames))
    · exact hmain
  have hindexes : Rewritten (w.areas room) w.f.bytes
      (if w.openDML then w.streams.foldl closeStream (mainHeaders w) else mainHeaders w).bytes := by
    split
    · rename_i hd
      refine Rewritten.foldl closeStream w.streams hfront fun s hs f hlen => ?_
      exact rewritten_closeStream (mem_areas_of_stream hs (by simp [AviStream.areas]))
        (Nat.le_trans ((hpos.streams s hs).2 hd) hlen) (hfit hd s hs)
    · exact hfront
  refine Rewritten.foldl _ w.streams hindexes fun s hs f hlen => ?_
  refine Rewritten.patch (x := ⟨s.posStreamHeader, 64⟩)
    (mem_areas_of_stream hs (by simp [AviStream.areas])) (Nat.le_refl _) ?_
    (Nat.le_trans (hpos.streams s hs).1 hlen)
  rw [OutFile.pos_seek, AVISTREAMHEADER.length_toBytes]

/-- **`close` writes nowhere else.** -/
theorem rewritten_close (hpos : PositionsIn w w.f.bytes.length)
    (hfit : w.openDML = true → ∀ s ∈ w.streams, clearsize s.stdIndexEntries.length ≤ room) :
    Rewritten (w.areas room) w.f.bytes w.close.f.bytes := by
  have hfilled := rewritten_filledIn hpos hfit
  have hmovi : ∀ m, Rewritten (w.areas room) w.f.bytes
      (patch (filledIn w).bytes w.posMoviListSize (le 4 m)) := by
    intro m
    refine hfilled.trans (Rewritten.patch (x := ⟨w.posMoviListSize, 4⟩)
      (by simp [AviWriter.areas]) (Nat.le_refl _) ?_ (Nat.le_trans hpos.movi hfilled.longer))
    rw [length_le_bytes]
  have hriff : ∀ (t : Bytes) (n : Nat), Rewritten (w.areas room) w.f.bytes t →
      Rewritten (w.areas room) w.f.bytes (patch t w.posRIFFSize (le 4 n)) := by
    intro t n ht
    refine ht.trans (Rewritten.patch (x := ⟨w.posRIFFSize, 4⟩) (by simp [AviWriter.areas])
      (Nat.le_refl _) ?_ (Nat.le_trans hpos.riff ht.longer))
    rw [length_le_bytes]
  rw [close_eq]
  split
  · obtain ⟨m, n, hbytes⟩ := finishOld_patches { w with f := filledIn w }
    rw [hbytes]
    exact hriff _ n ((hmovi m).trans (Rewritten.append _ _ _))
  · obtain ⟨m, n, hbytes⟩ := closeAvix_patches { w with f := filledIn w }
    rw [hbytes]
    exact hriff _ n (hmovi m)

/-! ## Where the places are -/

/-- The rows have room for so many bytes. -/
def Roomy (room : Nat) (rows : List RowOf) : Prop := ∀ r ∈ rows, r.1.super.length = room

/-- The places of a stream are inside of its list. -/
theorem PlacedAt.inside {off : Nat} {rows : List RowOf} (h : PlacedAt true off rows)
    (hroom : Roomy room rows) : ∀ r ∈ rows, off + 12 ≤ r.2.posStreamHeader ∧
      r.2.posStreamHeader + 64 ≤ r.2.posOdmlSuperIdx ∧
        r.2.posOdmlSuperIdx + room ≤ off + (rowBytes rows).length := by
  induction rows generalizing off with
  | nil => exact fun r hr => absurd hr List.not_mem_nil
  | cons x rows ih =>
    obtain ⟨hheader, hsuper, hrest⟩ := h
    have hpos := hsuper rfl
    have hsize := hroom x (List.mem_cons_self ..)
    have hlen : (rowBytes (x :: rows)).length = x.1.length + (rowBytes rows).length := by
      rw [rowBytes, List.flatMap_cons, List.length_append, Row.length_bytes, ← rowBytes]
    have hrow : x.1.length = 80 + x.1.format.length + x.1.super.length := rfl
    intro r hr
    rcases List.mem_cons.mp hr with rfl | hr
    · omega
    · have hin := ih hrest (fun y hy => hroom y (List.mem_cons_of_mem _ hy)) r hr
      omega

/-- **Between two streams** there are the twelve bytes that begin the list of the second. -/
theorem PlacedAt.apart {off : Nat} {rows : List RowOf} (h : PlacedAt true off rows)
    (hroom : Roomy room rows) : ∀ r ∈ rows, ∀ q ∈ rows,
      q.2.posOdmlSuperIdx ≤ r.2.posOdmlSuperIdx ∨
        r.2.posOdmlSuperIdx + room + 12 ≤ q.2.posStreamHeader := by
  induction rows generalizing off with
  | nil => exact fun r hr => absurd hr List.not_mem_nil
  | cons x rows ih =>
    obtain ⟨-, hsuper, hrest⟩ := h
    have hpos := hsuper rfl
    have hsize := hroom x (List.mem_cons_self ..)
    have hroom' : Roomy room rows := fun y hy => hroom y (List.mem_cons_of_mem _ hy)
    have hin := hrest.inside hroom'
    have hrow : x.1.length = 80 + x.1.format.length + x.1.super.length := rfl
    intro r hr q hq
    rcases List.mem_cons.mp hr with rfl | hr'
    · rcases List.mem_cons.mp hq with rfl | hq'
      · exact .inl (Nat.le_refl _)
      · have hqin := hin q hq'
        exact .inr (by omega)
    · rcases List.mem_cons.mp hq with rfl | hq'
      · have hrin := hin r hr'
        exact .inl (by omega)
      · exact ih hrest hroom' r hr' q hq'

/-- The list in a row is the one that `open` has written for a stream. -/
theorem mem_rows {r : RowOf} (hr : r ∈ c.rows w) : ∃ s₀ ∈ c.streams, r.1 = c.row s₀ := by
  rw [AviConfig.rows] at hr
  obtain ⟨i, hi, rfl⟩ := List.getElem_of_mem hr
  rw [List.getElem_zipWith]
  exact ⟨_, List.getElem_mem _, rfl⟩

/-- Its room is empty. -/
theorem super_rows (hd : c.openDML = true) {r : RowOf} (hr : r ∈ c.rows w) :
    r.1.super = List.replicate (clearsize c.slots) 0 := by
  obtain ⟨s₀, -, hrow⟩ := mem_rows hr
  rw [hrow]
  show List.replicate (reserved c.openDML c.slots) 0 = _
  rw [hd]
  rfl

theorem roomy_rows (hd : c.openDML = true) (w : AviWriter) : Roomy (clearsize c.slots) (c.rows w) := by
  intro r hr
  rw [super_rows hd hr, List.length_replicate]

/-- **The positions of a recording are in its file.** -/
theorem Layout.positionsIn (h : Layout c w placed) : PositionsIn w w.f.bytes.length := by
  obtain ⟨hsnd, hrows, hplaced⟩ := h.rows_spec
  have hdml : w.openDML = c.openDML :=
    (congrArg AviWriter.openDML h.settings).trans c.writer_openDML
  have hmain : w.posAviMainHeader = 24 := congrArg AviWriter.posAviMainHeader h.settings
  have hext : w.posOdmlExt = if c.writer.openDML then 108 + c.head.strls.length
      else c.writer.posOdmlExt := congrArg AviWriter.posOdmlExt h.settings
  have hodml : c.openDML = true → c.head.odml.length = 268 := by
    intro hd
    rw [c.head_odml, hd, if_pos rfl, length_odmlList, List.length_replicate]
  have hhead := c.head.length_bytes
  have hlen := congrArg List.length h.bytes
  rw [List.length_append, List.length_append, length_headSoFar] at hlen
  have hmovi := h.posMoviListSize
  have hriff := h.posRIFFSize
  have hstreams : ∀ (rows : List RowOf) (off : Nat), PlacedAt c.openDML off rows → ∀ r ∈ rows,
      r.2.posStreamHeader ≤ off + (rowBytes rows).length ∧
        (c.openDML = true → r.2.posOdmlSuperIdx ≤ off + (rowBytes rows).length) := by
    intro rows
    induction rows with
    | nil => exact fun off _ r hr => absurd hr List.not_mem_nil
    | cons x rows ih =>
      rintro off ⟨hheader, hsuper, hrest⟩ r hr
      have hsize : (rowBytes (x :: rows)).length = x.1.length + (rowBytes rows).length := by
        rw [rowBytes, List.flatMap_cons, List.length_append, Row.length_bytes, ← rowBytes]
      have hrow : x.1.length = 80 + x.1.format.length + x.1.super.length := rfl
      rcases List.mem_cons.mp hr with rfl | hr'
      · exact ⟨by omega, fun hd => by have := hsuper hd; omega⟩
      · obtain ⟨h₁, h₂⟩ := ih _ hrest r hr'
        exact ⟨by omega, fun hd => by have := h₂ hd; omega⟩
  refine ⟨by omega, ?_, by omega, ?_, ?_⟩
  · intro hd
    rw [hdml] at hd
    have h268 := hodml hd
    rw [c.writer_openDML, hd, if_pos rfl] at hext
    omega
  · split at hriff <;> omega
  · intro s hs
    rw [← hsnd] at hs
    obtain ⟨r, hr, rfl⟩ := List.mem_map.mp hs
    obtain ⟨h₁, h₂⟩ := hstreams (c.rows w) 88 hplaced r hr
    rw [hrows] at h₁ h₂
    exact ⟨by omega, fun hd => by have := h₂ (hdml ▸ hd); omega⟩

/-- The `odml` list begins behind the last room. -/
theorem Layout.room_before_ext (h : Layout c w placed) (hd : c.openDML = true) {s : AviStream}
    (hs : s ∈ w.streams) : s.posOdmlSuperIdx + clearsize c.slots + 12 ≤ w.posOdmlExt := by
  obtain ⟨hsnd, hrows, hplaced⟩ := h.rows_spec
  have hext : w.posOdmlExt = if c.writer.openDML then 108 + c.head.strls.length
      else c.writer.posOdmlExt := congrArg AviWriter.posOdmlExt h.settings
  rw [c.writer_openDML, hd, if_pos rfl] at hext
  rw [hd] at hplaced
  rw [← hsnd] at hs
  obtain ⟨r, hr, rfl⟩ := List.mem_map.mp hs
  have hin := hplaced.inside (roomy_rows hd w) r hr
  rw [hrows] at hin
  omega

/-- **The bytes behind a room are nobody's place.** -/
theorem Layout.following_clear (h : Layout c w placed) (hd : c.openDML = true) {s : AviStream}
    (hs : s ∈ w.streams) : ∀ x ∈ w.areas (clearsize c.slots),
      s.posOdmlSuperIdx + clearsize c.slots + 12 ≤ x.pos ∨
        x.pos + x.size ≤ s.posOdmlSuperIdx + clearsize c.slots := by
  obtain ⟨hsnd, hrows, hplaced⟩ := h.rows_spec
  rw [hd] at hplaced
  have hroom := roomy_rows hd w
  have hinside := hplaced.inside hroom
  have hmem : ∀ t ∈ w.streams, ∃ r ∈ c.rows w, r.2 = t := by
    intro t ht
    rw [← hsnd] at ht
    exact List.mem_map.mp ht
  obtain ⟨r, hr, rfl⟩ := hmem s hs
  have hin := hinside r hr
  rw [hrows] at hin
  have hmain : w.posAviMainHeader = 24 := congrArg AviWriter.posAviMainHeader h.settings
  have hodml : c.head.odml.length = 268 := by
    rw [c.head_odml, hd, if_pos rfl, length_odmlList, List.length_replicate]
  have hhead := c.head.length_bytes
  have hmovi := h.posMoviListSize
  have hriff := h.posRIFFSize
  intro x hx
  rcases List.mem_append.mp hx with hx | hx
  · simp only [List.mem_cons, List.not_mem_nil, or_false] at hx
    rcases hx with rfl | rfl | rfl | rfl
    · right
      dsimp only
      omega
    · exact .inl (h.room_before_ext hd hs)
    · left
      dsimp only
      omega
    · by_cases hz : w.riffIdx = 0
      · rw [if_pos hz] at hriff
        right
        dsimp only
        omega
      · -- a later section stands behind all headers
        obtain ⟨n, hn⟩ := Nat.exists_eq_succ_of_ne_zero hz
        rw [if_neg hz, hn, openPart, List.length_append, length_avixHeader] at hriff
        left
        dsimp only
        omega
  · obtain ⟨t, ht, hx⟩ := List.mem_flatMap.mp hx
    obtain ⟨q, hq, rfl⟩ := hmem t ht
    have hqin := hinside q hq
    have hapart := hplaced.apart hroom r hr q hq
    simp only [AviStream.areas, List.mem_cons, List.not_mem_nil, or_false] at hx
    rcases hx with rfl | rfl
    · dsimp only
      omega
    · dsimp only
      omega

end

/-! ## When they stay inside -/

/-- A stream has no more chunks than its indexes can take. -/
theorem Indexed.count_le {c : AviConfig} {placed : List Placement} {i : Nat} {s : AviStream}
    {done : List (List (Placement × Bases))} {cur : List (Placement × Bases)}
    (h : Indexed c placed i s done cur) :
    chunkCount placed i ≤ perIndex * s.stdIndexEntries.length := by
  have hcount : chunkCount placed i = perIndex * done.length + cur.length := by
    rw [← h.count, count_after, chunkCount, ← map_fst_indexedOf, List.length_map]
  have hroom := h.room
  rw [hcount, h.entries]
  by_cases hc : cur = []
  · rw [h.first hc, hc]
    exact Nat.le_of_eq rfl
  · rw [if_neg hc, length_keyed, List.length_append, List.length_singleton, Nat.mul_succ]
    omega

theorem clearsize_le {m n : Nat} : clearsize m ≤ clearsize n ↔ m ≤ n := by
  unfold clearsize sizeofSuperIndex sizeofSuperIndexEntry
  omega

/-- **The super indexes fit just when no stream has more chunks than its slots can take.** -/
theorem fits_iff {c : AviConfig} {r : Recording} (hl : Layout c r.w r.placed)
    (hx : Indexes c r.w r.placed) (hk : Kept c r.w r.placed) :
    (∀ s ∈ r.w.streams, clearsize s.stdIndexEntries.length ≤ clearsize c.slots) ↔
      ∀ i, chunkCount r.placed i ≤ perIndex * c.slots := by
  have hstreams : r.w.streams.length = c.streams.length := by
    have h := congrArg List.length hl.types
    rwa [List.length_map, List.length_map] at h
  constructor
  · intro hfits i
    by_cases hi : i < r.w.streams.length
    · obtain ⟨done, cur, hidx⟩ := hx.streams i _ (List.getElem?_eq_getElem hi)
      have hle := clearsize_le.mp (hfits _ (List.getElem_mem hi))
      exact hidx.count_le.trans (Nat.mul_le_mul_left _ hle)
    · -- nothing is recorded in a stream that is not there
      have hnone : chunkCount r.placed i = 0 := by
        rw [chunkCount, List.length_eq_zero_iff, List.filter_eq_nil_iff]
        intro p hp heq
        have := hk.streams p hp
        rw [decide_eq_true_eq] at heq
        omega
      rw [hnone]
      exact Nat.zero_le _
  · intro hcount s hs
    obtain ⟨i, hi⟩ := List.getElem?_of_mem hs
    obtain ⟨done, cur, hidx⟩ := hx.streams i s hi
    exact clearsize_le.mpr (hidx.slots_le (hcount i))

/-- What fits its room fits the reservation. -/
theorem RoomForIndexes.fits {c : AviConfig} {w : AviWriter} {placed : List Placement}
    (h : RoomForIndexes c w) (hl : Layout c w placed) (hd : c.openDML = true) :
    ∀ s ∈ w.streams, clearsize s.stdIndexEntries.length ≤ clearsize c.slots := by
  intro s hs
  rw [← hl.rows_spec.1] at hs
  obtain ⟨x, hx, rfl⟩ := List.mem_map.mp hs
  exact roomy_rows hd w x hx ▸ h hd x hx

/-- **The super indexes stay inside their rooms just when no stream has more chunks than its slots
can take.** The room is reserved before the first chunk is written, from what is known of the
recording then, and used when the file is closed. Nothing in between compares the two, so the
condition counts the chunks of the recording as it was, and the same for all streams. -/
theorem super_indexes_inside {c : AviConfig} (hd : c.openDML = true) {r : Recording}
    (h : Reach (recordings c) (anyStep _ _) r) :
    SuperIndexesInside c r ↔ ∀ i, chunkCount r.placed i ≤ perIndex * c.slots := by
  have hl := layout h
  have hfits := fits_iff hl (indexes hd h) (kept h)
  have hdml : r.w.openDML = c.openDML :=
    (congrArg AviWriter.openDML hl.settings).trans c.writer_openDML
  constructor
  · exact fun hin => hfits.mp hin.fits
  · intro hcount
    have hrewritten : Rewritten (r.w.areas (clearsize c.slots)) r.w.f.bytes r.w.close.f.bytes :=
      rewritten_close hl.positionsIn fun _ => hfits.mpr hcount
    refine ⟨hfits.mpr hcount, hrewritten, fun s hs => ?_⟩
    refine hrewritten.readAt ?_ (hl.following_clear hd hs)
    -- the list that follows is in the file
    have hbefore := hl.room_before_ext hd hs
    have hext := hl.positionsIn.ext (hdml.trans hd)
    omega

/-- Two chunks of each stream. -/
theorem super_indexes_inside_both : ∃ r : Recording,
    r.placed.map Placement.stream = [0, 1, 1, 0] ∧ SuperIndexesInside indexedConfig r := by
  have hrun : (indexedConfig.record bothStreams).map (fun r => r.placed.map Placement.stream) =
      some [0, 1, 1, 0] := by decide +kernel
  obtain ⟨r, hr, hplaced⟩ := reach_of_record hrun
  have hlen := congrArg List.length hplaced
  rw [List.length_map] at hlen
  exact ⟨r, hplaced, (super_indexes_inside rfl hr).mpr (room_of_four (Nat.le_of_eq hlen))⟩

end Maixii.Avi
