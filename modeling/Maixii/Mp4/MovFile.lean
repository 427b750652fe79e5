import Maixii.Mp4.MovAtoms

/-!
# `Mp4/MovFile.lean`: the file

What `mov_write_header`, the packets and `mov_write_trailer` leave in the file. It begins with a
megabyte for `ftyp`, `moov` and `free`; a longer `moov` goes behind `mdat`. `written_iff` says which
packets can be written at all, and `recorded_boxes` that the closed file is a row of boxes.
-/

set_option autoImplicit false

namespace Maixii.Mp4

open Maixii.Lib

/-! ## The boxes of the file -/

def ftypAtom : Atom :=
  .leaf (fourcc "ftyp") (ascii "isom" ++ putBe32 0x200 ++ ascii "isom" ++ ascii "iso2" ++
    ascii "mp41")

/-- What is left of the megabyte. -/
def freeAtom (n : Nat) : Atom := .leaf (fourcc "free") (List.replicate n 0)

section

variable (s : AVFormatContext) (pkts : List AVPacket) (avcc : Bytes)

def mdatAtom : Atom := .leaf (fourcc "mdat") (sampleData s pkts)

/-- Whether `moov` and the head of `free` fit into the megabyte. -/
def MoovInFront : Prop := (moovAtom s pkts avcc).bytes.length + 36 ≤ headerReserveSize

instance : Decidable (MoovInFront s pkts avcc) := inferInstanceAs (Decidable (_ ≤ _))

/-- **The boxes of a recording.** -/
def fileAtoms : List Atom :=
  if MoovInFront s pkts avcc then
    [ftypAtom, moovAtom s pkts avcc,
      freeAtom (headerReserveSize - 36 - (moovAtom s pkts avcc).bytes.length), mdatAtom s pkts]
  else [ftypAtom, freeAtom (headerReserveSize - 36), mdatAtom s pkts, moovAtom s pkts avcc]

end

/-! ## The header -/

/-- The file behind `mov_write_header`. -/
def headerFile : OutFile :=
  ((OutFile.empty.write (movWriteFtypTag ++ movWriteFreeTag (headerReserveSize - 28))).seek
    headerReserveSize).write (putBe32 0 ++ ascii "mdat")

/-- The megabyte of the header. -/
def headerBytes : Bytes :=
  ftypAtom.bytes ++ movWriteFreeTag (headerReserveSize - 28) ++
    List.replicate (headerReserveSize - 36) 0

theorem movWriteFtypTag_eq : movWriteFtypTag = ftypAtom.bytes := by decide

theorem length_ftypAtom : ftypAtom.bytes.length = 28 := by decide

@[simp] theorem length_movWriteFreeTag (n : Nat) : (movWriteFreeTag n).length = 8 := rfl

theorem length_headerBytes : headerBytes.length = headerReserveSize := by
  rw [headerBytes, List.length_append, List.length_append, length_ftypAtom, length_movWriteFreeTag,
    List.length_replicate]
  rfl

/-- A write behind the end leaves a hole of zeros. -/
theorem patch_hole {f bs : Bytes} {p : Nat} (h : f.length ≤ p) :
    patch f p bs = f ++ List.replicate (p - f.length) 0 ++ bs := by
  rw [patch, List.take_of_length_le h, List.drop_eq_nil_of_le (by omega), List.append_nil]

theorem headerFile_eq : headerFile.bytes = headerBytes ++ (putBe32 0 ++ ascii "mdat") ∧
    headerFile.pos = headerFile.bytes.length := by
  have hfront : (OutFile.empty.write
      (movWriteFtypTag ++ movWriteFreeTag (headerReserveSize - 28))).bytes =
        ftypAtom.bytes ++ movWriteFreeTag (headerReserveSize - 28) := by
    rw [OutFile.atEnd_empty.bytes_write, movWriteFtypTag_eq]
    rfl
  have hlen : (ftypAtom.bytes ++ movWriteFreeTag (headerReserveSize - 28)).length = 36 := by
    rw [List.length_append, length_ftypAtom, length_movWriteFreeTag]
  have hbytes : headerFile.bytes = headerBytes ++ (putBe32 0 ++ ascii "mdat") := by
    rw [headerFile, OutFile.bytes_write, OutFile.bytes_seek, OutFile.pos_seek, hfront,
      patch_hole (by rw [hlen]; decide), hlen]
    rfl
  refine ⟨hbytes, ?_⟩
  rw [hbytes, List.length_append, length_headerBytes]
  rfl

/-! ## When there is a file -/

section

variable {s : AVFormatContext} {pkts : List AVPacket} {addr : Nat} {avcc : Bytes}
  {mov : MovContext} (mem keys page : Nat → UInt32)

/-- Nothing is recorded yet. -/
theorem recorded_header (s : AVFormatContext) :
    Recorded s headerFile [] (movWriteHeader (opened mem keys page)) where
  caches := by
    have hnil : (fun t : Table => t.history s []) = fun _ => [] := by
      funext t
      cases t with
      | stsz st => exact ite_self _
      | stco st => rfl
      | stsc st => rfl
      | stts => rfl
    rw [hnil]
    exact (MovContext.caches_opened mem keys page).congr rfl rfl rfl rfl
  size t := by cases t <;> rfl
  last := rfl
  count := rfl
  mdat := rfl
  pb := (OutFile.write_nil (Nat.le_of_eq headerFile_eq.2)).symm
  keys := rfl
  jpegs _ := rfl

/-- **The packets that can be written**: no store leaves the array reserved for its table, however
many packets of video and audio there are and however they are mixed, but the numbers of the key
frames have an end. The rings are emptied page by page and never overrun; the array of key frames is
not, and the 32769th goes behind it. -/
theorem written_iff (hcodec : IsVideo (s.codec .video).codecId) :
    (∃ mov, movWritePackets s (movWriteHeader (opened mem keys page)) pkts = some mov) ↔
      (∀ p ∈ pkts, Sound s p) ∧ (keyNumbers s pkts).length ≤ keyframeCacheEntries := by
  have hstart : headerFile.pos ≤ headerFile.bytes.length := Nat.le_of_eq headerFile_eq.2
  have hrec := recorded_header mem keys page s
  constructor
  · rintro ⟨mov, hrun⟩
    have hsound := hrec.run_sound hstart hcodec (Nat.zero_le _) hrun
    rwa [List.nil_append] at hsound
  · rintro ⟨hsound, hroom⟩
    obtain ⟨mov, hrun, -⟩ := hrec.run hstart hcodec hsound (by rwa [List.nil_append])
    exact ⟨mov, hrun⟩

/-- **A recording that can be closed.** -/
structure Recordable (s : AVFormatContext) (pkts : List AVPacket) (addr : Nat) (avcc : Bytes) :
    Prop where
  packets : pkts ≠ []
  video : IsVideo (s.codec .video).codecId
  sound : ∀ p ∈ pkts, Sound s p
  keys_le : (keyNumbers s pkts).length ≤ keyframeCacheEntries
  pages : ¬ Swapped pkts
  described : Described s pkts addr avcc
  moov_lt : (moovAtom s pkts avcc).bytes.length < 2 ^ 31

/-- What the last packet leaves. -/
theorem Recordable.finished (h : Recordable s pkts addr avcc) :
    ∃ mov mov', movWritePackets s (movWriteHeader (opened mem keys page)) pkts = some mov ∧
      movWriteLastPacket mov = some mov' ∧ Finished s headerFile pkts mov' := by
  have hstart : headerFile.pos ≤ headerFile.bytes.length := Nat.le_of_eq headerFile_eq.2
  obtain ⟨mov, hrun, hrec⟩ := (recorded_header mem keys page s).run hstart h.video h.sound
    (by rw [List.nil_append]; exact h.keys_le)
  rw [List.nil_append] at hrec
  obtain ⟨mov', hlast, hfin⟩ := hrec.finish h.packets
  exact ⟨mov, mov', hrun, hlast, hfin⟩

/-! ## What is in it -/

/-- The file before the trailer. -/
theorem Finished.bytes (h : Finished s headerFile pkts mov) :
    mov.pb.bytes = headerBytes ++ (putBe32 0 ++ ascii "mdat") ++ sampleData s pkts ∧
      mov.pb.pos = mov.pb.bytes.length := by
  have hend : headerFile.AtEnd := headerFile_eq.2
  rw [h.pb]
  refine ⟨?_, hend.write _⟩
  rw [hend.bytes_write, headerFile_eq.1]

/-- The size of `mdat` is put in front of its name. -/
theorem mdat_bytes (s : AVFormatContext) (pkts : List AVPacket) :
    putBe32 ((sampleData s pkts).length + 8) ++ ascii "mdat" ++ sampleData s pkts =
      (mdatAtom s pkts).bytes := by
  rw [Nat.add_comm, mdatAtom, ← leaf_bytes "mdat" rfl]

/-- A `free` box of zeros. -/
theorem free_bytes (n : Nat) :
    movWriteFreeTag (8 + n) ++ List.replicate n 0 = (freeAtom n).bytes := by
  have hlen : (List.replicate n (0 : UInt8)).length = n := List.length_replicate
  rw [freeAtom, ← leaf_bytes "free" rfl, hlen]
  rfl

/-- `moov` over the head of `free`. -/
theorem patch_moov {moov rest : Bytes} (hlong : 8 ≤ moov.length)
    (hfit : moov.length + 36 ≤ headerReserveSize) :
    patch (headerBytes ++ rest) 28
        (moov ++ movWriteFreeTag (headerReserveSize - moov.length - 28)) =
      ftypAtom.bytes ++ moov ++ (freeAtom (headerReserveSize - 36 - moov.length)).bytes ++ rest := by
  have hzeros : List.replicate (headerReserveSize - 36) (0 : UInt8) =
      List.replicate moov.length 0 ++ List.replicate (headerReserveSize - 36 - moov.length) 0 := by
    rw [List.replicate_append_replicate]
    exact congrArg (fun k => List.replicate k (0 : UInt8)) (by omega)
  have hbytes : headerBytes ++ rest = ftypAtom.bytes ++
      (movWriteFreeTag (headerReserveSize - 28) ++ List.replicate moov.length 0) ++
        (List.replicate (headerReserveSize - 36 - moov.length) 0 ++ rest) := by
    rw [headerBytes, hzeros]
    simp only [List.append_assoc]
  have hlen : (moov ++ movWriteFreeTag (headerReserveSize - moov.length - 28)).length =
      (movWriteFreeTag (headerReserveSize - 28) ++ List.replicate moov.length 0).length := by
    simp only [List.length_append, length_movWriteFreeTag, List.length_replicate]
    omega
  have hfree : headerReserveSize - moov.length - 28 =
      8 + (headerReserveSize - 36 - moov.length) := by omega
  rw [hbytes, patch_middle _ _ _ length_ftypAtom.symm hlen, hfree, ← free_bytes]
  simp only [List.append_assoc]

/-- Behind a name of four characters nothing is changed. -/
theorem patch_mdat (front data : Bytes) (hfront : front.length = headerReserveSize) (size : Nat) :
    patch (front ++ (putBe32 0 ++ ascii "mdat" ++ data)) headerReserveSize (putBe32 size) =
      front ++ (putBe32 size ++ ascii "mdat" ++ data) := by
  have hbytes : front ++ (putBe32 0 ++ ascii "mdat" ++ data) =
      front ++ putBe32 0 ++ (ascii "mdat" ++ data) := by
    simp only [List.append_assoc]
  have hlen : (putBe32 size).length = (putBe32 0).length := rfl
  rw [hbytes, patch_middle _ _ _ hfront.symm hlen]
  simp only [List.append_assoc]

/-- **The trailer completes the row of boxes.** -/
theorem movWriteTrailer_file (h : Described s pkts addr avcc)
    (hfin : Finished s headerFile pkts mov) (hne : pkts ≠ []) (hswap : ¬ Swapped pkts)
    (hsmall : (moovAtom s pkts avcc).bytes.length < 2 ^ 31) :
    ∃ mov', movWriteMoovTag s mov addr = some mov' ∧ mov'.mdatSize = mov.mdatSize ∧
      ((mov'.pb.seek headerReserveSize).write (putBe32 (mov.mdatSize + 8))).bytes =
        Atom.allBytes (fileAtoms s pkts avcc) := by
  obtain ⟨hbytes, hpos⟩ := hfin.bytes
  obtain ⟨page, hmoov⟩ := h.moovBytes hfin hne hswap
  have hsize := h.moovSize hfin hne hswap
  have hlong : 8 ≤ (moovAtom s pkts avcc).bytes.length := by
    rw [Atom.length_bytes]
    exact Nat.le_add_right _ _
  generalize hm : (moovAtom s pkts avcc).bytes = moov at *
  rw [movWriteMoovTag, hsize, Option.bind_some, hmoov, Option.map_some]
  by_cases hfit : moov.length + 36 ≤ headerReserveSize
  · have hreserve : FitsReserve moov.length := Or.inr (by omega)
    have hfile : fileAtoms s pkts avcc = [ftypAtom, moovAtom s pkts avcc,
        freeAtom (headerReserveSize - 36 - moov.length), mdatAtom s pkts] := by
      rw [fileAtoms, if_pos (show MoovInFront s pkts avcc by rw [MoovInFront, hm]; exact hfit), hm]
    refine ⟨_, congrArg some (if_pos hreserve), rfl, ?_⟩
    have hmid : (((mov.pb.seek freePos).write
        (moov ++ movWriteFreeTag (headerReserveSize - moov.length - 28)))).bytes =
          ftypAtom.bytes ++ moov ++ (freeAtom (headerReserveSize - 36 - moov.length)).bytes ++
            (putBe32 0 ++ ascii "mdat" ++ sampleData s pkts) := by
      rw [OutFile.bytes_write, OutFile.bytes_seek, OutFile.pos_seek, hbytes, List.append_assoc]
      exact patch_moov hlong hfit
    have hfront : (ftypAtom.bytes ++ moov ++
        (freeAtom (headerReserveSize - 36 - moov.length)).bytes).length = headerReserveSize := by
      rw [List.length_append, List.length_append, length_ftypAtom, ← free_bytes,
        List.length_append, length_movWriteFreeTag, List.length_replicate]
      omega
    rw [hfile, Atom.allBytes_cons, Atom.allBytes_cons, allBytes_two, hm, ← mdat_bytes, hfin.mdat]
    refine Eq.trans ?_ (Eq.trans (patch_mdat _ (sampleData s pkts) hfront
      ((sampleData s pkts).length + 8)) ?_)
    · rw [← hmid]
      rfl
    · simp only [List.append_assoc]
  · have hreserve : ¬ FitsReserve moov.length := by
      rintro (hbig | hsmall')
      · omega
      · omega
    have hfile : fileAtoms s pkts avcc = [ftypAtom, freeAtom (headerReserveSize - 36),
        mdatAtom s pkts, moovAtom s pkts avcc] := by
      rw [fileAtoms, if_neg (show ¬ MoovInFront s pkts avcc by rw [MoovInFront, hm]; exact hfit)]
    refine ⟨_, congrArg some (if_neg hreserve), rfl, ?_⟩
    have hmid : (mov.pb.write moov).bytes =
        headerBytes ++ (putBe32 0 ++ ascii "mdat" ++ (sampleData s pkts ++ moov)) := by
      have hend : mov.pb.AtEnd := hpos
      rw [hend.bytes_write, hbytes]
      simp only [List.append_assoc]
    have hheader : headerBytes = ftypAtom.bytes ++ (freeAtom (headerReserveSize - 36)).bytes := by
      rw [← free_bytes, headerBytes, List.append_assoc]
      rfl
    rw [hfile, Atom.allBytes_cons, Atom.allBytes_cons, allBytes_two, hm, ← mdat_bytes, hfin.mdat]
    refine Eq.trans ?_ (Eq.trans (patch_mdat _ (sampleData s pkts ++ moov) length_headerBytes
      ((sampleData s pkts).length + 8)) ?_)
    · rw [← hmid]
      rfl
    · rw [hheader]
      simp only [List.append_assoc]

/-- The file of a recording. -/
theorem Recordable.file (h : Recordable s pkts addr avcc) :
    ∃ mov, recorded s addr mem keys page pkts = some mov ∧
      mov.pb.bytes = Atom.allBytes (fileAtoms s pkts avcc) := by
  obtain ⟨mov, mov₁, hrun, hlast, hfin⟩ := h.finished mem keys page
  obtain ⟨mov₂, hmoov, hmdat, hbytes⟩ :=
    movWriteTrailer_file h.described hfin h.packets h.pages h.moov_lt
  refine ⟨{ mov₂ with pb := (mov₂.pb.seek headerReserveSize).write (putBe32 (mov₂.mdatSize + 8)) },
    ?_, ?_⟩
  · rw [recorded, hrun, Option.bind_some, movWriteTrailer, hlast, Option.bind_some, hmoov]
    rfl
  · show ((mov₂.pb.seek headerReserveSize).write (putBe32 (mov₂.mdatSize + 8))).bytes = _
    rw [hmdat, hbytes]

/-- What is behind `mdat`. -/
def behindMdat (s : AVFormatContext) (pkts : List AVPacket) (avcc : Bytes) : List Atom :=
  if MoovInFront s pkts avcc then [] else [moovAtom s pkts avcc]

/-- **In both layouts** `mdat` lies behind the megabyte. -/
theorem fileAtoms_mdat (s : AVFormatContext) (pkts : List AVPacket) (avcc : Bytes) :
    ∃ front, fileAtoms s pkts avcc = front ++ mdatAtom s pkts :: behindMdat s pkts avcc ∧
      (Atom.allBytes front).length = headerReserveSize := by
  have hfree : ∀ n, (freeAtom n).bytes.length = 8 + n := by
    intro n
    rw [freeAtom, length_leaf, List.length_replicate]
  have hreserve : 36 ≤ headerReserveSize := by decide
  unfold fileAtoms behindMdat
  by_cases hfit : MoovInFront s pkts avcc
  · have hroom : (moovAtom s pkts avcc).bytes.length + 36 ≤ headerReserveSize := hfit
    rw [if_pos hfit, if_pos hfit]
    refine ⟨[ftypAtom, moovAtom s pkts avcc,
      freeAtom (headerReserveSize - 36 - (moovAtom s pkts avcc).bytes.length)], rfl, ?_⟩
    rw [allBytes_three, List.length_append, List.length_append, hfree, length_ftypAtom]
    omega
  · rw [if_neg hfit, if_neg hfit]
    refine ⟨[ftypAtom, freeAtom (headerReserveSize - 36)], rfl, ?_⟩
    rw [allBytes_two, List.length_append, hfree, length_ftypAtom]
    omega

/-- No box is as long as 4 GB, if the data is not. -/
theorem Recordable.lengths (h : Recordable s pkts addr avcc)
    (hdata : 8 + (sampleData s pkts).length < 2 ^ 32) :
    ∀ a ∈ fileAtoms s pkts avcc, a.bytes.length < 2 ^ 32 := by
  have hmoov := h.moov_lt
  have hmdat : (mdatAtom s pkts).bytes.length < 2 ^ 32 := by
    rw [mdatAtom, length_leaf]
    exact hdata
  have hftyp : ftypAtom.bytes.length < 2 ^ 32 := by
    rw [length_ftypAtom]
    decide
  have hfree : ∀ n ≤ headerReserveSize, (freeAtom n).bytes.length < 2 ^ 32 := by
    intro n hn
    have hreserve : headerReserveSize < 2 ^ 31 := by decide
    rw [freeAtom, length_leaf, List.length_replicate]
    omega
  intro a ha
  unfold fileAtoms at ha
  split at ha
  all_goals
    simp only [List.mem_cons, List.not_mem_nil, or_false] at ha
    rcases ha with rfl | rfl | rfl | rfl
  · exact hftyp
  · omega
  · exact hfree _ ((Nat.sub_le _ _).trans (Nat.sub_le _ _))
  · exact hmdat
  · exact hftyp
  · exact hfree _ (Nat.sub_le _ _)
  · exact hmdat
  · omega

/-- **The closed file is a row of boxes.** The sizes were written before the boxes, from what the
`movGet..TagSize` functions had told; that the bytes are those of the row says that each of them
was right, for the boxes of the row have their true sizes. Below 4 GB none of these is cut to its
four bytes, at any level, so a reader gets the boxes back; from there on `mdat` is longer than its
size can say. The data begins where the tables count from, behind the megabyte. -/
theorem recorded_boxes (h : Recordable s pkts addr avcc)
    (hdata : 8 + (sampleData s pkts).length < 2 ^ 32) :
    ∃ mov, recorded s addr mem keys page pkts = some mov ∧
      mov.pb.bytes = Atom.allBytes (fileAtoms s pkts avcc) ∧
      (∀ a ∈ fileAtoms s pkts avcc, a.Sized) ∧
      readBoxes mov.pb.bytes = some ((fileAtoms s pkts avcc).map Atom.toBox) ∧
      ∃ front, fileAtoms s pkts avcc = front ++ mdatAtom s pkts :: behindMdat s pkts avcc ∧
        (Atom.allBytes front).length = headerReserveSize := by
  obtain ⟨mov, hrec, hfile⟩ := h.file mem keys page
  have hlengths := h.lengths hdata
  have hsized : ∀ a ∈ fileAtoms s pkts avcc, a.Sized := fun a ha =>
    Atom.sized_of_lt a (hlengths a ha)
  have hread : readBoxes mov.pb.bytes = some ((fileAtoms s pkts avcc).map Atom.toBox) := by
    rw [hfile, Atom.readBoxes_row hlengths]
  exact ⟨mov, hrec, hfile, hsized, hread, fileAtoms_mdat s pkts avcc⟩

/-! A recording of two frames and some sound. -/

/-- H.264 and stereo PCM of 16 bits. -/
def cameraFormat : AVFormatContext where
  codec := fun st => if st = .video then ⟨.h264, 1280, 720, 0, 0, 0, 0, 0⟩
    else ⟨.pcm, 0, 0, 0, 2, 1024, 16, 48000⟩
  vosData := fun st => if st = .video then annexB [spsUnit, ppsUnit] else []
  createTime := 0
  trackDuration := fun _ => 40
  geoAvailable := false

def cameraPackets : List AVPacket :=
  [⟨[0, 0, 0, 1, 0x65, 0x88], [], .video, true, 40⟩,
    ⟨[1, 2, 3, 4], [5, 6, 7, 8], .audio, false, 0⟩,
    ⟨[0, 0, 0, 1, 0x41], [0x9a], .video, false, 40⟩]

/-- Memory that `malloc` has left empty. -/
def noWords : Nat → UInt32 := fun _ => 0

theorem cameraRecordable : Recordable cameraFormat cameraPackets 0
    (avccRecord spsUnit.data ppsUnit.data) where
  packets := nofun
  video := by decide
  sound := by decide +kernel
  keys_le := by decide +kernel
  pages := by decide +kernel
  described :=
    { codec := by decide
      avcc_size := fun _ => by decide +kernel
      avcc_write := fun _ => by decide +kernel
      timescale_ne := fun st _ => by cases st <;> decide }
  moov_lt := by decide +kernel

theorem written_iff_once :
    (∃ mov, movWritePackets cameraFormat (movWriteHeader (opened noWords noWords noWords))
        cameraPackets = some mov) ↔
      (∀ p ∈ cameraPackets, Sound cameraFormat p) ∧
        (keyNumbers cameraFormat cameraPackets).length ≤ keyframeCacheEntries :=
  written_iff noWords noWords noWords (by decide)

theorem recorded_boxes_once :
    ∃ mov, recorded cameraFormat 0 noWords noWords noWords cameraPackets = some mov ∧
      mov.pb.bytes = Atom.allBytes (fileAtoms cameraFormat cameraPackets
        (avccRecord spsUnit.data ppsUnit.data)) ∧
      (∀ a ∈ fileAtoms cameraFormat cameraPackets (avccRecord spsUnit.data ppsUnit.data),
        a.Sized) ∧
      readBoxes mov.pb.bytes = some ((fileAtoms cameraFormat cameraPackets
        (avccRecord spsUnit.data ppsUnit.data)).map Atom.toBox) ∧
      ∃ front, fileAtoms cameraFormat cameraPackets (avccRecord spsUnit.data ppsUnit.data) =
          front ++ mdatAtom cameraFormat cameraPackets ::
            behindMdat cameraFormat cameraPackets (avccRecord spsUnit.data ppsUnit.data) ∧
        (Atom.allBytes front).length = headerReserveSize :=
  recorded_boxes noWords noWords noWords cameraRecordable (by decide +kernel)

end

end Maixii.Mp4
