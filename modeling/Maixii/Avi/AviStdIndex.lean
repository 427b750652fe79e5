import Maixii.Avi.AviIndexReader

/-!
# `Avi/AviStdIndex.lean`: where the indexes of a closed file lead

The writer has one base at a time for all streams but stores one in each standard index, and an
entry keeps 32 bits of the distance. **So the entries lead to the chunks just when each chunk was
written with the base of its own stream in force, and within 4 GB of it**
(`indexes_lead_to_chunks`), if the super indexes fit their rooms.

A stream without chunks has one entry in use that was never written. It leads to the beginning of
the file, where there is no standard index, so a reader that looks for the name finds nothing there
(`foundChunks_close`).
-/

set_option autoImplicit false

namespace Maixii.Avi

open Maixii.Lib AviWriter

/-! ## What the indexes should say -/

/-- **The indexes of a closed file are right**: the reader finds the super index of every stream;
what it says about the standard indexes of a stream that has chunks is so; and following it from
stream to stream gives the chunks of each, in order, and nothing else. -/
structure IndexesLead (c : AviConfig) (r : Recording) (file : Bytes) : Prop where
  found : ∀ i < c.streams.length, readAt file (indxAt file i) 4 = (fourcc "indx").bytes
  listed : ∀ i < c.streams.length, r.chunksOf i ≠ [] →
    ∀ e ∈ superEntries file (indxAt file i), IsListed file e
  chunks : ∀ i < c.streams.length,
    foundChunks file (indxAt file i) = (r.chunksOf i).map fun p => (p.offset, p.data.length)

/-! ## The bases of a recording -/

/-- A base is a position of the past, and that of a stream is not newer than the last one. -/
structure Dated (w : AviWriter) (placed : List Placement) : Prop where
  along : ∀ q ∈ Bases.zero.along placed, q.2.own q.1.stream ≤ q.2.last ∧
    q.2.last ≤ q.1.offset ∧ q.2.last ≤ w.f.bytes.length ∧ q.1.data.length < 2 ^ 32
  own : ∀ i, (Bases.after placed).own i ≤ (Bases.after placed).last
  last : (Bases.after placed).last ≤ w.f.bytes.length

namespace Dated

variable {c : AviConfig} {w w' : AviWriter} {placed : List Placement}

theorem start (w : AviWriter) : Dated w [] :=
  ⟨fun _ hq => absurd hq List.not_mem_nil, fun _ => Nat.le_refl 0, Nat.zero_le _⟩

theorem longer (h : Dated w placed) (hlen : w.f.bytes.length ≤ w'.f.bytes.length) :
    Dated w' placed := by
  refine ⟨fun q hq => ?_, h.own, Nat.le_trans h.last hlen⟩
  obtain ⟨h₁, h₂, h₃, h₄⟩ := h.along q hq
  exact ⟨h₁, h₂, Nat.le_trans h₃ hlen, h₄⟩

/-- **A new chunk.** -/
theorem writeChunk (h : Dated w placed) (hend : w.f.AtEnd) {i : Nat} (s : AviStream) (id : FourCC)
    {data : Bytes} (hdata : data.length < 2 ^ 32) (k : Nat) :
    Dated (w.writeChunk i s id data) (placed ++ [⟨i, k, w.f.pos + 8, data⟩]) := by
  obtain ⟨b, hb⟩ : ∃ b, b = (Bases.after placed).next ⟨i, k, w.f.pos + 8, data⟩ := ⟨_, rfl⟩
  have hpos : w.f.pos = w.f.bytes.length := hend
  have hlast := h.last
  have hlen : w.f.bytes.length ≤ (w.writeChunk i s id data).f.bytes.length := by
    have h₁ := hend.write id.bytes
    have h₂ := h₁.write (le 4 data.length)
    show _ ≤ (OutFile.write _ data).bytes.length
    rw [h₂.bytes_write, h₁.bytes_write, hend.bytes_write]
    simp only [List.length_append]
    omega
  have hbase : b.last =
      if (Bases.after placed).rolls i then w.f.pos else (Bases.after placed).last := by
    rw [hb]
    show (if (Bases.after placed).rolls i = true then w.f.pos + 8 - 8 else _) = _
    rw [Nat.add_sub_cancel]
  have hown : ∀ j, b.own j = if j = i ∧ (Bases.after placed).rolls i then w.f.pos
      else (Bases.after placed).own j := by
    intro j
    rw [hb]
    show (if j = i ∧ (Bases.after placed).rolls j = true then w.f.pos + 8 - 8 else _) = _
    rw [Nat.add_sub_cancel]
    by_cases hj : j = i
    · rw [hj]
    · rw [if_neg (fun h => hj h.1), if_neg (fun h => hj h.1)]
  have hle : ∀ j, b.own j ≤ b.last := by
    intro j
    have hj := h.own j
    rw [hown, hbase]
    split
    · rename_i hroll
      rw [if_pos hroll.2]
    · split
      · omega
      · exact hj
  have hnew : b.last ≤ w.f.bytes.length := by
    rw [hbase]
    split
    · exact Nat.le_of_eq hpos
    · exact hlast
  refine ⟨fun q hq => ?_, ?_, ?_⟩
  · rw [Bases.along_append] at hq
    rcases List.mem_append.mp hq with hq | hq
    · exact (h.longer hlen).along q hq
    · rw [List.mem_singleton.mp hq]
      have hfold : (placed.foldl Bases.next Bases.zero).next ⟨i, k, w.f.pos + 8, data⟩ = b := hb.symm
      dsimp only
      rw [hfold]
      exact ⟨hle i, by omega, Nat.le_trans hnew hlen, hdata⟩
  · rw [Bases.after_append, ← hb]
    exact hle
  · rw [Bases.after_append, ← hb]
    exact Nat.le_trans hnew hlen

end Dated

/-- `finish_avix` fills in two sizes. -/
theorem finishAvix_patches (w : AviWriter) : ∃ m n, w.finishAvix.f.bytes =
    patch (patch w.f.bytes w.posRIFFSize (le 4 m)) w.posMoviListSize (le 4 n) := ⟨_, _, rfl⟩

/-- A new section makes the file longer. -/
theorem Layout.newSection_longer {c : AviConfig} {w w' : AviWriter} {placed : List Placement}
    (h : Layout c w placed) (hw : w.newSection = some w') :
    w.f.bytes.length ≤ w'.f.bytes.length := by
  have hpos := h.positionsIn
  have heq := AviWriter.newSection_eq hw
  rw [AviWriter.beginSection_eq] at heq
  have hlen : w'.f.bytes.length = (if w.riffIdx = 0 then w.finishOld.f else
      w.finishAvix.f).bytes.length + 24 := by
    rw [heq]
    show List.length (_ ++ avixHeader 0 0) = _
    rw [List.length_append, length_avixHeader]
  have hfinished : w.f.bytes.length ≤
      (if w.riffIdx = 0 then w.finishOld.f else w.finishAvix.f).bytes.length := by
    split
    · obtain ⟨m, n, hbytes⟩ := finishOld_patches w
      have hmovi := @length_le_patch _ (le 4 m) _ hpos.movi
      rw [hbytes]
      refine Nat.le_trans ?_ (length_le_patch ?_)
      · rw [List.length_append]
        omega
      · have := hpos.riff
        rw [List.length_append]
        omega
    · obtain ⟨m, n, hbytes⟩ := finishAvix_patches w
      have hriff := @length_le_patch _ (le 4 m) _ hpos.riff
      rw [hbytes]
      exact Nat.le_trans hriff (length_le_patch (Nat.le_trans hpos.movi hriff))
  omega

/-- Every recording has its bases in order. -/
theorem dated {c : AviConfig} {r : Recording} {G : Recording → UInt8 × Buffer → Prop}
    (h : Reach (recordings c) G r) : Dated r.w r.placed := by
  refine (h.inv (P := fun r => Layout c r.w r.placed ∧ Dated r.w r.placed) ?_ ?_).2
  · intro r hr
    obtain rfl := recordings_start hr
    exact ⟨Layout.start, Dated.start _⟩
  · rintro r ⟨i, data⟩ r' ⟨hl, hx⟩ _ hw
    obtain ⟨_, s, w₁, hs, hsec, rfl⟩ := Recording.write_cases hw
    rcases hsec with ⟨_, hsec⟩ | ⟨_, rfl⟩
    · obtain ⟨hl₁, _, hstreams, _⟩ := hl.newSection hsec
      exact ⟨hl₁.writeChunk (hstreams ▸ hs),
        (hx.longer (hl.newSection_longer hsec)).writeChunk hl₁.atEnd s _ data.property _⟩
    · exact ⟨hl.writeChunk hs, hx.writeChunk hl.atEnd s _ data.property _⟩

/-! ## Where the entries lead -/

/-- Where a reader finds the chunk of an entry, and how much of it. -/
def ledTo (i : Nat) (q : Placement × Bases) : Nat × Nat :=
  (q.2.own i + (q.1.offset - q.2.last) % 2 ^ 32, q.1.data.length)

theorem getElem?_keyed (m : Nat) (gs : List (List (Placement × Bases))) (k : Nat) :
    (keyed m gs)[k]? = gs[k]?.map fun g => (((m + k : Nat) : Int), g.map entryOf) := by
  induction gs generalizing m k with
  | nil => rfl
  | cons g gs ih =>
    cases k with
    | zero => rfl
    | succ k =>
      rw [keyed, List.getElem?_cons_succ, List.getElem?_cons_succ, ih, Nat.add_right_comm]
      rfl

/-- A list made of what each of the first numbers gives. -/
theorem range_flatMap {α β : Type} {f : Nat → List β} {g : α → List β} (xs : List α)
    (h : ∀ k x, xs[k]? = some x → f k = g x) : (List.range xs.length).flatMap f = xs.flatMap g := by
  have hmap : (List.range xs.length).map f = xs.map g := by
    refine List.ext_getElem? fun k => ?_
    rw [List.getElem?_map, List.getElem?_map]
    cases hk : xs[k]? with
    | none =>
      have hge := List.getElem?_eq_none_iff.mp hk
      rw [List.getElem?_eq_none (by rw [List.length_range]; exact hge)]
      rfl
    | some x =>
      have hlt := (List.getElem?_eq_some_iff.mp hk).1
      rw [List.getElem?_range hlt, Option.map_some, Option.map_some, h k x hk]
  rw [List.flatMap_def, List.flatMap_def, hmap]

section

variable {c : AviConfig} {w : AviWriter} {placed : List Placement} {i : Nat} {s : AviStream}
  {done : List (List (Placement × Bases))} {cur : List (Placement × Bases)}

/-- The groups of chunks, one for each standard index that is written. -/
def groupsOf (done : List (List (Placement × Bases))) (cur : List (Placement × Bases)) :
    List (List (Placement × Bases)) :=
  if cur = [] then [] else done ++ [cur]

theorem flatten_groupsOf (h : Indexed c placed i s done cur) :
    (groupsOf done cur).flatten = indexedOf placed i := by
  unfold groupsOf
  split
  · rename_i hc
    rw [← h.all, hc, h.first hc]
    rfl
  · rw [← h.all, List.flatten_append, List.flatten_singleton]

/-- What is known of each group: its standard index, how many chunks, and their bases. -/
theorem group_spec (h : Indexed c placed i s done cur) {k : Nat} {g : List (Placement × Bases)}
    (hk : (groupsOf done cur)[k]? = some g) : ∃ x, s.stdIndexes[k]? = some x ∧
      IsIndexOf c i x ∧ g.length ≤ perIndex ∧ ∀ q ∈ g, q.2.own i = x.qwBaseOffset := by
  by_cases hc : cur = []
  · rw [groupsOf, if_pos hc] at hk
    cases hk
  · rw [groupsOf, if_neg hc] at hk
    have hlt := (List.getElem?_eq_some_iff.mp hk).1
    rw [List.length_append, List.length_singleton] at hlt
    have hx := List.getElem?_eq_getElem (show k < s.stdIndexes.length by rw [h.indexes]; exact hlt)
    refine ⟨_, hx, h.kind _ (List.mem_of_getElem? hx), ?_, h.bases k _ g hx hk⟩
    rcases List.mem_append.mp (List.mem_of_getElem? hk) with hg | hg
    · exact Nat.le_of_eq (h.full g hg)
    · rw [List.mem_singleton.mp hg]
      exact h.room

/-- **The standard index of a group in the closed file**, and its entry. -/
theorem group_index (hl : Layout c w placed) (hd : c.openDML = true) (hfit : RoomForIndexes c w)
    (hdate : Dated w placed) (hsize : w.close.f.bytes.length < 2 ^ 64)
    (hs : w.streams[i]? = some s) (h : Indexed c placed i s done cur) {k : Nat}
    {g : List (Placement × Bases)} (hk : (groupsOf done cur)[k]? = some g) : ∃ p x,
      IndexAt w.close.f.bytes p x (g.map entryOf) ∧
      (x.fcc = fourcc "ix00" ∨ x.fcc = fourcc "ix01") ∧
      (∀ q ∈ g, q.2.own i = x.qwBaseOffset) ∧
      superEntryAt w.close.f.bytes s.posOdmlSuperIdx k =
        ⟨p, sizeofStdIndex + sizeofStdIndexEntry * g.length, g.length⟩ := by
  obtain ⟨x, hx, hkind, hfew, hbase⟩ := group_spec h hk
  obtain ⟨pos, ⟨a, b, hroom, hpos⟩, a', b', hidx, hpos'⟩ := closed_index hl hd hfit hs
  have hent : s.stdIndexEntries[k]? = some ((k : Int), g.map entryOf) := by
    rw [h.entries, ← groupsOf, getElem?_keyed, hk, Option.map_some, Nat.zero_add]
  obtain ⟨u, v, hcut, hsuper⟩ := ixBytes_cut s.stdIndexes hent pos
  have hget : (s.stdIndexes[(k : Int).toNat]?).getD blankStdIndex = x := by
    rw [Int.toNat_natCast, hx]
    rfl
  rw [hget] at hcut
  rw [List.length_map] at hsuper
  have hin : ∀ q ∈ g, q ∈ Bases.zero.along placed ∧ q.1.stream = i := by
    intro q hq
    have hmem : q ∈ indexedOf placed i := by
      rw [← flatten_groupsOf h]
      exact List.mem_flatten.mpr ⟨g, List.mem_of_getElem? hk, hq⟩
    rw [indexedOf, List.mem_filter, decide_eq_true_eq] at hmem
    exact hmem
  have hfile : w.close.f.bytes = (a' ++ u) ++ ixChunk x (g.map entryOf) ++ (v ++ b') := by
    rw [hidx, hcut]
    simp only [List.append_assoc]
  have hplace : pos + u.length < 2 ^ 64 := by
    have hlen := congrArg List.length hfile
    simp only [List.length_append] at hlen
    omega
  refine ⟨pos + u.length, x, ⟨⟨a' ++ u, v ++ b', hfile, ?_⟩, ?_, ?_, ?_⟩, hkind.fcc, hbase, ?_⟩
  · rw [hpos', List.length_append]
  · rw [List.length_map]
    exact hfew
  · -- a base is a position in the file
    cases g with
    | nil =>
      -- no group is empty
      exfalso
      by_cases hc : cur = []
      · rw [groupsOf, if_pos hc] at hk
        cases hk
      · rw [groupsOf, if_neg hc] at hk
        rcases List.mem_append.mp (List.mem_of_getElem? hk) with hg | hg
        · exact absurd (h.full [] hg) (by decide)
        · exact hc (List.mem_singleton.mp hg).symm
    | cons q g =>
      obtain ⟨hq, hstream⟩ := hin q (List.mem_cons_self ..)
      obtain ⟨hle, -, hlen, -⟩ := hdate.along q hq
      have hlonger := (rewritten_close hl.positionsIn fun _ => hfit.fits hl hd).longer
      rw [← hbase q (List.mem_cons_self ..), ← hstream]
      omega
  · intro e he
    obtain ⟨q, hq, rfl⟩ := List.mem_map.mp he
    exact ⟨Nat.mod_lt _ (by decide), (hdate.along q (hin q hq).1).2.2.2⟩
  · have hroom' : w.close.f.bytes = a ++ superBytes pos s ++ (List.replicate (clearsize c.slots -
        clearsize s.stdIndexEntries.length) 0 ++ b) := by
      rw [hroom]
      simp only [List.append_assoc]
    refine @superEntryAt_eq _ _ _ s.superIdx.toBytes (supersFrom pos s.stdIndexEntries) _ _ _
      hroom' hpos (AVISUPERINDEX.length_toBytes _) hsuper hplace ?_ ?_
    · show sizeofStdIndex + sizeofStdIndexEntry * g.length < _
      unfold sizeofStdIndex sizeofStdIndexEntry perIndex at *
      omega
    · show g.length < _
      unfold perIndex at hfew
      omega

/-- How many entries of a super index are in use. -/
theorem dword_inUse (hl : Layout c w placed) (hd : c.openDML = true) (hfit : RoomForIndexes c w)
    (hs : w.streams[i]? = some s) (hsmall : s.superIdx.nEntriesInUse < 2 ^ 32) :
    dword w.close.f.bytes (s.posOdmlSuperIdx + 12) = s.superIdx.nEntriesInUse := by
  obtain ⟨pos, ⟨a, b, hfile, hpos⟩, -⟩ := closed_index hl hd hfit hs
  have hcut : w.close.f.bytes = a ++ s.superIdx.toBytes ++
      ((supersFrom pos s.stdIndexEntries).flatMap AVISUPERINDEX_ENTRY.toBytes ++
        List.replicate (clearsize c.slots - clearsize s.stdIndexEntries.length) 0 ++ b) := by
    rw [hfile, superBytes]
    simp only [List.append_assoc]
  rw [hcut, hpos, dword_inside _ _ _ (by rw [AVISUPERINDEX.length_toBytes]; decide),
    AVISUPERINDEX.dword_entriesInUse hsmall]

/-- The one entry of a stream without chunks was never written. -/
theorem superEntryAt_blank (hl : Layout c w placed) (hd : c.openDML = true)
    (hfit : RoomForIndexes c w) (hs : w.streams[i]? = some s) (hnone : s.stdIndexEntries = []) :
    superEntryAt w.close.f.bytes s.posOdmlSuperIdx 0 = ⟨0, 0, 0⟩ := by
  obtain ⟨pos, ⟨a, b, hfile, hpos⟩, -⟩ := closed_index hl hd hfit hs
  have hslots := c.slots_pos
  have hzeros : clearsize c.slots - clearsize s.stdIndexEntries.length =
      sizeofSuperIndexEntry + sizeofSuperIndexEntry * (c.slots - 1) := by
    rw [hnone, List.length_nil]
    unfold clearsize sizeofSuperIndex sizeofSuperIndexEntry
    omega
  have hcut : w.close.f.bytes = (a ++ s.superIdx.toBytes) ++
      List.replicate sizeofSuperIndexEntry 0 ++
        (List.replicate (sizeofSuperIndexEntry * (c.slots - 1)) 0 ++ b) := by
    rw [hfile, hzeros, List.replicate_add, superBytes, hnone, supersFrom, List.flatMap_nil]
    simp only [List.append_assoc, List.nil_append]
  have hread : readAt w.close.f.bytes (s.posOdmlSuperIdx + sizeofSuperIndex)
      sizeofSuperIndexEntry = List.replicate sizeofSuperIndexEntry 0 := by
    rw [hcut]
    refine readAt_middle _ _ _ ?_ List.length_replicate.symm
    rw [hpos, List.length_append, AVISUPERINDEX.length_toBytes]
  unfold superEntryAt
  rw [Nat.mul_zero, Nat.add_zero, hread]
  rfl

/-- **The entries in use**: one for each group of chunks, or the one that was never written. -/
theorem superEntries_close (hl : Layout c w placed) (hd : c.openDML = true)
    (hfit : RoomForIndexes c w) (hs : w.streams[i]? = some s)
    (h : Indexed c placed i s done cur) :
    superEntries w.close.f.bytes s.posOdmlSuperIdx =
      if cur = [] then [⟨0, 0, 0⟩]
      else (List.range (groupsOf done cur).length).map
        (superEntryAt w.close.f.bytes s.posOdmlSuperIdx) := by
  have huse : s.superIdx.nEntriesInUse = (done ++ [cur]).length := by
    rw [h.inUse, h.indexes, List.length_append, List.length_singleton]
  have hsmall : s.superIdx.nEntriesInUse < 2 ^ 32 := by
    have hslots := clearsize_slots_lt c
    have hpos := c.slots_pos
    by_cases hc : cur = []
    · rw [huse, h.first hc, hc]
      decide
    · have hfew := clearsize_le.mp (hfit.fits hl hd s (List.mem_of_getElem? hs))
      rw [h.entries, if_neg hc, Indexed.length_keyed] at hfew
      rw [huse]
      unfold clearsize sizeofSuperIndex sizeofSuperIndexEntry at hslots
      omega
  rw [superEntries, dword_inUse hl hd hfit hs hsmall, huse]
  split
  · rename_i hc
    have hnone : s.stdIndexEntries = [] := by
      rw [h.entries, if_pos hc]
      rfl
    rw [h.first hc, hc]
    exact congrArg (fun e => [e]) (superEntryAt_blank hl hd hfit hs hnone)
  · rename_i hc
    rw [groupsOf, if_neg hc]

/-- Each of them is right about its standard index, if the stream has chunks. -/
theorem listed_close (hl : Layout c w placed) (hd : c.openDML = true)
    (hfit : RoomForIndexes c w) (hdate : Dated w placed)
    (hsize : w.close.f.bytes.length < 2 ^ 64) (hs : w.streams[i]? = some s)
    (h : Indexed c placed i s done cur) (hc : cur ≠ []) :
    ∀ e ∈ superEntries w.close.f.bytes s.posOdmlSuperIdx, IsListed w.close.f.bytes e := by
  intro e he
  rw [superEntries_close hl hd hfit hs h, if_neg hc] at he
  obtain ⟨k, hk, rfl⟩ := List.mem_map.mp he
  have hget := List.getElem?_eq_getElem (List.mem_range.mp hk)
  obtain ⟨p, x, hat, hname, -, hsuper⟩ := group_index hl hd hfit hdate hsize hs h hget
  have hlisted := hat.isListed hname
  rw [List.length_map] at hlisted
  rw [hsuper]
  exact hlisted

/-- **Where the entries of a stream lead.** -/
theorem foundChunks_close (hl : Layout c w placed) (hd : c.openDML = true)
    (hfit : RoomForIndexes c w) (hdate : Dated w placed)
    (hsize : w.close.f.bytes.length < 2 ^ 64) (hs : w.streams[i]? = some s)
    (h : Indexed c placed i s done cur) :
    foundChunks w.close.f.bytes s.posOdmlSuperIdx = (indexedOf placed i).map (ledTo i) := by
  rw [foundChunks, superEntries_close hl hd hfit hs h]
  split
  · -- the entry that was never written leads to the beginning of the file
    rename_i hc
    obtain ⟨-, -, -, -, hriff⟩ := closed_strls hl hfit
    have hstart : isStdIndex w.close.f.bytes 0 = false := by
      unfold isStdIndex
      rw [hriff]
      decide
    rw [List.filter_cons_of_neg (by rw [hstart]; exact Bool.false_ne_true), List.filter_nil,
      ← flatten_groupsOf h, groupsOf, if_pos hc]
    rfl
  · rename_i hc
    have hall : ∀ e ∈ (List.range (groupsOf done cur).length).map
        (superEntryAt w.close.f.bytes s.posOdmlSuperIdx),
          isStdIndex w.close.f.bytes e.qwOffset = true := by
      intro e he
      have hlisted := listed_close hl hd hfit hdate hsize hs h hc e
      rw [superEntries_close hl hd hfit hs h, if_neg hc] at hlisted
      exact (hlisted he).name
    have hone : ∀ k g, (groupsOf done cur)[k]? = some g →
        indexedChunks w.close.f.bytes
          (superEntryAt w.close.f.bytes s.posOdmlSuperIdx k).qwOffset = g.map (ledTo i) := by
      intro k g hk
      obtain ⟨p, x, hidx, -, hbase, hsuper⟩ := group_index hl hd hfit hdate hsize hs h hk
      rw [hsuper, hidx.indexedChunks, List.map_map]
      refine List.map_congr_left fun q hq => ?_
      show (x.qwBaseOffset + _, _) = (q.2.own i + _, _)
      rw [hbase q hq]
      rfl
    rw [List.filter_eq_self.mpr hall, List.flatMap_map,
      range_flatMap (g := List.map (ledTo i)) _ hone, ← flatten_groupsOf h, List.flatMap_def,
      List.map_flatten]

end

/-- **The indexes lead to the chunks** just when each chunk is written within 4 GB of the base that
was set last, and that base is the one of its stream.

Both can go wrong with two streams: the base is set for all of them when one begins a new standard
index, and the others go on with an index that says the old one. With one stream the second half is
all there is to the condition. -/
theorem indexes_lead_to_chunks {c : AviConfig} (hd : c.openDML = true) {r : Recording}
    (h : Reach (recordings c) (anyStep _ _) r)
    (hroom : ∀ i, chunkCount r.placed i ≤ perIndex * c.slots) {file : Bytes}
    (hfile : r.file = some file) (hsize : file.length < 2 ^ 64) :
    IndexesLead c r file ↔ ∀ q ∈ Bases.zero.along r.placed,
      q.2.own q.1.stream = q.2.last ∧ q.1.offset < q.2.last + 2 ^ 32 := by
  obtain rfl := Option.some.inj ((file_eq h).symm.trans hfile)
  have hl := layout h
  have hx := indexes hd h
  have hdate := dated h
  have hfit := roomForIndexes (fun _ => hx) fun _ => hroom
  have hstream : ∀ i < c.streams.length, ∃ s, r.w.streams[i]? = some s ∧
      indxAt r.w.close.f.bytes i = s.posOdmlSuperIdx := by
    intro i hi
    have hs := List.getElem?_eq_getElem (hl.length_streams ▸ hi : i < r.w.streams.length)
    exact ⟨_, hs, indxAt_close hl (counted h) hd hfit hs⟩
  -- whether an entry leads to its chunk
  have hright : ∀ q ∈ Bases.zero.along r.placed,
      ledTo q.1.stream q = (q.1.offset, q.1.data.length) ↔
        q.2.own q.1.stream = q.2.last ∧ q.1.offset < q.2.last + 2 ^ 32 := by
    intro q hq
    obtain ⟨hown, hlast, -, -⟩ := hdate.along q hq
    have hmod := Nat.mod_le (q.1.offset - q.2.last) (2 ^ 32)
    rw [ledTo, Prod.mk.injEq]
    simp only [and_true]
    constructor
    · intro heq
      refine ⟨by omega, ?_⟩
      have hlt := Nat.mod_lt (q.1.offset - q.2.last) (show 0 < 2 ^ 32 by decide)
      omega
    · rintro ⟨hsame, hnear⟩
      rw [Nat.mod_eq_of_lt (by omega)]
      omega
  have hentries : ∀ i, ((indexedOf r.placed i).map (ledTo i) =
      (r.chunksOf i).map fun p => (p.offset, p.data.length)) ↔
        ∀ q ∈ Bases.zero.along r.placed, q.1.stream = i →
          q.2.own q.1.stream = q.2.last ∧ q.1.offset < q.2.last + 2 ^ 32 := by
    intro i
    have hchunks : r.chunksOf i = (indexedOf r.placed i).map Prod.fst :=
      (map_fst_indexedOf r.placed i).symm
    rw [hchunks, List.map_map, List.map_inj_left]
    constructor
    · intro hall q hq hstream
      have hmem : q ∈ indexedOf r.placed i := by
        rw [indexedOf, List.mem_filter, decide_eq_true_eq]
        exact ⟨hq, hstream⟩
      exact (hright q hq).mp (hstream ▸ hall q hmem)
    · intro hall q hmem
      rw [indexedOf, List.mem_filter, decide_eq_true_eq] at hmem
      exact hmem.2 ▸ (hright q hmem.1).mpr (hall q hmem.1 hmem.2)
  constructor
  · intro hlead q hq
    have hmem : q.1 ∈ r.placed := by
      rw [← Bases.map_fst_along Bases.zero r.placed]
      exact List.mem_map_of_mem hq
    have hlt := (kept h).streams q.1 hmem
    obtain ⟨s, hs, hindx⟩ := hstream q.1.stream hlt
    obtain ⟨done, cur, hidx⟩ := hx.streams _ _ hs
    have hfound := foundChunks_close hl hd hfit hdate hsize hs hidx
    rw [← hindx] at hfound
    exact (hentries q.1.stream).mp (hfound.symm.trans (hlead.chunks _ hlt)) q hq rfl
  · intro hall
    refine ⟨?_, ?_, ?_⟩
    · intro i hi
      obtain ⟨s, hs, hindx⟩ := hstream i hi
      obtain ⟨pos, ⟨a, b, hfile', hpos⟩, -⟩ := closed_index hl hd hfit hs
      have hfcc := ((hl.regular (counted h) hfit s (List.mem_of_getElem? hs)).super hd).1
      have hcut : r.w.close.f.bytes = a ++ (fourcc "indx").bytes ++ (le 4 s.superIdx.cb ++
          s.superIdx.body ++ (supersFrom pos s.stdIndexEntries).flatMap
            AVISUPERINDEX_ENTRY.toBytes ++ List.replicate (clearsize c.slots -
              clearsize s.stdIndexEntries.length) 0 ++ b) := by
        rw [hfile', superBytes, AVISUPERINDEX.toBytes, hfcc]
        simp only [List.append_assoc]
      rw [hindx, hcut]
      exact readAt_middle _ _ _ hpos rfl
    · intro i hi hne e he
      obtain ⟨s, hs, hindx⟩ := hstream i hi
      obtain ⟨done, cur, hidx⟩ := hx.streams i s hs
      have hc : cur ≠ [] := by
        intro hc
        refine hne ?_
        have hall := hidx.all
        rw [hc, hidx.first hc] at hall
        show List.filter _ _ = []
        rw [← map_fst_indexedOf, ← hall]
        rfl
      rw [hindx] at he
      exact listed_close hl hd hfit hdate hsize hs hidx hc e he
    · intro i hi
      obtain ⟨s, hs, hindx⟩ := hstream i hi
      obtain ⟨done, cur, hidx⟩ := hx.streams i s hs
      rw [hindx, foundChunks_close hl hd hfit hdate hsize hs hidx]
      exact (hentries i).mpr fun q hq _ => hall q hq

/-- What has been accepted, whether the base was right for it each time, and the length of the
file. -/
def Recording.outline (r : Recording) : List (Nat × Nat) × Bool × Option Nat :=
  (r.placed.map fun p => (p.stream, p.offset),
    decide (∀ q ∈ Bases.zero.along r.placed,
      q.2.own q.1.stream = q.2.last ∧ q.1.offset < q.2.last + 2 ^ 32),
    r.file.map List.length)

/-- Two chunks of each stream: the entries lead to them. -/
theorem indexes_lead_to_chunks_both : ∃ (r : Recording) (file : Bytes),
    r.placed.map (fun p => (p.stream, p.offset)) = [(0, 724), (1, 736), (1, 748), (0, 760)] ∧
      r.file = some file ∧ IndexesLead indexedConfig r file := by
  have hrun : (indexedConfig.record bothStreams).map Recording.outline =
      some ([(0, 724), (1, 736), (1, 748), (0, 760)], true, some 932) := by decide +kernel
  obtain ⟨r, hr, hsame⟩ := reach_of_record hrun
  obtain ⟨hplaced, hrest⟩ := Prod.mk.inj hsame
  obtain ⟨hbases, hlen⟩ := Prod.mk.inj hrest
  obtain ⟨file, hfile, hlen⟩ := Option.map_eq_some_iff.mp hlen
  have hfour : r.placed.length = 4 := by
    have h := congrArg List.length hplaced
    rwa [List.length_map] at h
  exact ⟨r, file, hplaced, hfile, (indexes_lead_to_chunks rfl hr
    (room_of_four (Nat.le_of_eq hfour)) hfile (by rw [hlen]; decide)).mpr
      (of_decide_eq_true hbases)⟩

end Maixii.Avi
