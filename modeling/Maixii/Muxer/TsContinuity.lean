import Maixii.Lib.Numbered
import Maixii.Muxer.Mpeg2tsMuxer

/-!
# `Muxer/TsContinuity.lean`: the continuity counters a demultiplexer sees

The counters of the tables live in their sections and go on from one retransmission to the next.
`mpegts_write_pes` puts the counter of its stream back to zero, so a PES always begins with 1. The
packets of a stream are numbered without a gap (`continuity_kept`) if every PES before the next has
filled a multiple of 16 packets.
-/

set_option autoImplicit false

namespace Maixii.Muxer

open Maixii.Lib

/-! ## The packets of one identifier -/

/-- The packets with payload of one identifier. -/
def onPid (pid : Nat) (ps : List TsPacket) : List TsPacket :=
  ps.filter fun p => p.hasPayload && p.pid == pid

theorem onPid_append (pid : Nat) (ps qs : List TsPacket) :
    onPid pid (ps ++ qs) = onPid pid ps ++ onPid pid qs := List.filter_append ..

section

variable {pid c : Nat} {ps qs : List TsPacket}

theorem Counted.reads (h : Counted pid c ps) {p : TsPacket} (hp : p ∈ ps) :
    ∃ cc, Reads p pid cc := by
  obtain ⟨i, hi⟩ := List.mem_iff_getElem?.mp hp
  exact ⟨_, h i p hi⟩

/-- All of them are of this identifier, -/
theorem Counted.onPid_eq (h : Counted pid c ps) : onPid pid ps = ps := by
  refine List.filter_eq_self.mpr ?_
  intro p hp
  obtain ⟨cc, hreads⟩ := h.reads hp
  rw [hreads.payload, hreads.pid, Bool.true_and, beq_self_eq_true]

/-- and of no other. -/
theorem Counted.onPid_ne (h : Counted pid c ps) {q : Nat} (hq : q ≠ pid) : onPid q ps = [] := by
  refine List.filter_eq_nil_iff.mpr ?_
  intro p hp
  obtain ⟨cc, hreads⟩ := h.reads hp
  rw [hreads.pid, Bool.and_eq_true, beq_iff_eq]
  exact fun hand => hq hand.2.symm

theorem Counted.append (h : Counted pid c ps) (h' : Counted pid (c + ps.length) qs) :
    Counted pid c (ps ++ qs) := by
  intro i p hp
  rcases Nat.lt_or_ge i ps.length with hlt | hge
  · rw [List.getElem?_append_left hlt] at hp
    exact h i p hp
  · rw [List.getElem?_append_right hge] at hp
    have hreads := h' _ p hp
    rwa [Nat.add_assoc, Nat.add_sub_of_le hge] at hreads

/-- What is numbered from somewhere on has no gap. -/
theorem Counted.consecutive (h : Counted pid c ps) : Consecutive 16 TsPacket.cc ps := by
  refine List.isChain_iff_getElem.mpr ?_
  intro i hi
  have hx := (h i _ (List.getElem?_eq_getElem (Nat.lt_of_succ_lt hi))).cc
  have hy := (h (i + 1) _ (List.getElem?_eq_getElem hi)).cc
  rw [hx, hy]
  show (c + (i + 1)) % 16 % 16 = ((c + i) % 16 + 1) % 16
  omega

end

theorem onPid_pcrPacket (pid counter : Nat) (hcounter : counter < 16) (pcr : Int) :
    onPid pid [pcrPacket counter pcr] = [] := by
  refine List.filter_eq_nil_iff.mpr ?_
  intro p hp
  obtain rfl := List.mem_singleton.mp hp
  rw [pcrPacket_hasPayload counter hcounter, Bool.false_and]
  exact Bool.false_ne_true

namespace Mpeg2tsMuxer

variable {s t u : Mpeg2tsMuxer}

/-- **No packet is missed**: on every identifier each counter is the one before plus one. -/
def Continuous (s : Mpeg2tsMuxer) : Prop :=
  ∀ pid, Consecutive 16 TsPacket.cc (onPid pid s.generated)

/-- The condition: when something is written to a stream, what it has had so far filled a multiple
of 16 packets. -/
def Aligned (s : Mpeg2tsMuxer) (pkt : AVPacket) : Prop :=
  match s.streams[s.realStrmIdx pkt.streamIndex]? with
  | none => True
  | some st =>
      (st.codec = .adpcm ∨ st.codec = .ggad) ∧ pkt.data0 = [] ∨
        16 ∣ (onPid st.pid s.generated).length

instance (s : Mpeg2tsMuxer) (pkt : AVPacket) : Decidable (Aligned s pkt) := by
  unfold Aligned
  split <;> infer_instance

/-! ## Where the numbering stands -/

/-- The tables are numbered from zero on, the streams from one. -/
def firstCc (pid : Nat) : Nat := if pid = patPid ∨ pid = pmtPid then 0 else 1

/-- **Between two steps**: everything is numbered, and the sections know where to go on. -/
structure InOrder (s : Mpeg2tsMuxer) : Prop where
  counted : ∀ pid, Counted pid (firstCc pid) (onPid pid s.generated)
  pat : s.patCc = (15 + (onPid patPid s.generated).length) % 16
  pmt : s.pmtCc = (15 + (onPid pmtPid s.generated).length) % 16
  pcr : s.pcrCounter < 16
  pids : ∀ st ∈ s.streams, st.pid < 2 ^ 13 ∧ st.pid ≠ patPid ∧ st.pid ≠ pmtPid

theorem inOrder_opened (mode : OutputMode) (para : AvPara) : InOrder (opened mode para) where
  counted pid := counted_nil pid _
  pat := rfl
  pmt := rfl
  pcr := by show 0 < 16; decide
  pids := by
    intro st hst
    show st.pid < 2 ^ 13 ∧ st.pid ≠ 0 ∧ st.pid ≠ 0x0100
    have hmem : st ∈ makeStreams para := hst
    obtain ⟨video, audio, geo⟩ := para
    have hpid : st.pid = 0x1011 ∨ st.pid = 0x1100 ∨ st.pid = 0x300 := by
      unfold makeStreams at hmem
      rcases List.mem_append.mp hmem with hmem | hmem
      · rcases List.mem_append.mp hmem with hmem | hmem
        · obtain ⟨v, -, rfl⟩ := Option.map_eq_some_iff.mp (Option.mem_toList.mp hmem)
          exact .inl rfl
        · obtain ⟨a, -, rfl⟩ := Option.map_eq_some_iff.mp (Option.mem_toList.mp hmem)
          exact .inr (.inl rfl)
      · split at hmem
        · obtain rfl := List.mem_singleton.mp hmem
          exact .inr (.inr rfl)
        · simp at hmem
    omega

/-- Numbered packets are added where the numbering stands. -/
theorem counted_grow {gen ps : List TsPacket} {pid c : Nat}
    (h : ∀ q, Counted q (firstCc q) (onPid q gen)) (hps : Counted pid c ps)
    (hc : c % 16 = (firstCc pid + (onPid pid gen).length) % 16) (q : Nat) :
    Counted q (firstCc q) (onPid q (gen ++ ps)) := by
  rw [onPid_append]
  by_cases hq : q = pid
  · subst hq
    rw [hps.onPid_eq]
    exact (h q).append (hps.congr hc)
  · rw [hps.onPid_ne hq, List.append_nil]
    exact h q

/-! ## Tables -/

/-- Only tables and clocks were made. -/
structure Tabled (s t : Mpeg2tsMuxer) : Prop where
  inOrder : InOrder t
  others : ∀ q, q ≠ patPid → q ≠ pmtPid → onPid q t.generated = onPid q s.generated
  streams : t.streams = s.streams

theorem InOrder.tabled (h : InOrder s) : Tabled s s := ⟨h, fun _ _ _ => rfl, rfl⟩

theorem Tabled.trans (h : Tabled s t) (h' : Tabled t u) : Tabled s u where
  inOrder := h'.inOrder
  others q hpat hpmt := (h'.others q hpat hpmt).trans (h.others q hpat hpmt)
  streams := h'.streams.trans h.streams

/-- Members that have nothing to do with the numbering. -/
theorem InOrder.congr (h : InOrder s) (hgen : t.generated = s.generated) (hpat : t.patCc = s.patCc)
    (hpmt : t.pmtCc = s.pmtCc) (hpcr : t.pcrCounter = s.pcrCounter) (hst : t.streams = s.streams) :
    Tabled s t where
  inOrder :=
    { counted := by rw [hgen]; exact h.counted
      pat := by rw [hgen, hpat]; exact h.pat
      pmt := by rw [hgen, hpmt]; exact h.pmt
      pcr := by rw [hpcr]; exact h.pcr
      pids := by rw [hst]; exact h.pids }
  others q _ _ := by rw [hgen]
  streams := hst

/-- A table goes on with the counter of its section. -/
theorem InOrder.table (h : InOrder s) {pid cc : Nat} (hpid : pid = patPid ∨ pid = pmtPid)
    (hcc : cc = (15 + (onPid pid s.generated).length) % 16) (buf : Bytes) :
    (∀ q, Counted q (firstCc q)
        (onPid q (s.generated ++ (sectionPackets pid buf.length true cc buf).1))) ∧
      (∀ q, q ≠ pid →
        onPid q (s.generated ++ (sectionPackets pid buf.length true cc buf).1) =
          onPid q s.generated) ∧
      (sectionPackets pid buf.length true cc buf).2 =
        (15 + (onPid pid (s.generated ++
          (sectionPackets pid buf.length true cc buf).1)).length) % 16 := by
  have hsmall : pid < 2 ^ 13 := by
    rcases hpid with rfl | rfl <;> decide
  have hlt : cc < 16 := by
    rw [hcc]
    exact Nat.mod_lt _ (by decide)
  have hfirst : firstCc pid = 0 := if_pos hpid
  obtain ⟨hps, hleft⟩ := counted_sectionPackets hsmall buf.length true cc hlt buf
  refine ⟨counted_grow h.counted hps ?_, ?_, ?_⟩
  · rw [hfirst, hcc]
    omega
  · intro q hq
    rw [onPid_append, hps.onPid_ne hq, List.append_nil]
  · rw [hleft, onPid_append, hps.onPid_eq, List.length_append, hcc]
    omega

theorem InOrder.writePat (h : InOrder s) : Tabled s s.writePat := by
  unfold Mpeg2tsMuxer.writePat
  split
  · exact h.tabled
  · rename_i buf _
    obtain ⟨hcounted, hothers, hleft⟩ := h.table (.inl rfl) h.pat buf
    refine ⟨⟨hcounted, hleft, ?_, h.pcr, h.pids⟩, fun q hpat _ => hothers q hpat, rfl⟩
    show s.pmtCc = (15 + (onPid pmtPid (s.generated ++ _)).length) % 16
    rw [hothers pmtPid (by decide)]
    exact h.pmt

theorem InOrder.writePmt (h : InOrder s) : Tabled s s.writePmt := by
  unfold Mpeg2tsMuxer.writePmt
  split
  · exact h.tabled
  · rename_i buf _
    obtain ⟨hcounted, hothers, hleft⟩ := h.table (.inr rfl) h.pmt buf
    refine ⟨⟨hcounted, ?_, hleft, h.pcr, h.pids⟩, fun q _ hpmt => hothers q hpmt, rfl⟩
    show s.patCc = (15 + (onPid patPid (s.generated ++ _)).length) % 16
    rw [hothers patPid (by decide)]
    exact h.pat

/-- The clock has no payload, so it is not counted. -/
theorem InOrder.writePcrTable (h : InOrder s) (pts : Int) : Tabled s (s.writePcrTable pts) := by
  have hsame : ∀ q, onPid q (s.generated ++ [pcrPacket s.pcrCounter pts]) = onPid q s.generated := by
    intro q
    rw [onPid_append, onPid_pcrPacket q _ h.pcr, List.append_nil]
  refine ⟨⟨?_, ?_, ?_, Nat.mod_lt _ (by decide), h.pids⟩, fun q _ _ => hsame q, rfl⟩
  · intro q
    show Counted q (firstCc q) (onPid q (s.generated ++ _))
    rw [hsame]
    exact h.counted q
  · show s.patCc = (15 + (onPid patPid (s.generated ++ _)).length) % 16
    rw [hsame]
    exact h.pat
  · show s.pmtCc = (15 + (onPid pmtPid (s.generated ++ _)).length) % 16
    rw [hsame]
    exact h.pmt

theorem InOrder.tables (h : InOrder s) : Tabled s s.writePat.writePmt :=
  h.writePat.trans h.writePat.inOrder.writePmt

theorem InOrder.retransmitSiInfo (h : InOrder s) (pts : Int) (idx : Nat) :
    Tabled s (s.retransmitSiInfo pts idx) := by
  unfold Mpeg2tsMuxer.retransmitSiInfo
  split
  · have htables : Tabled s (if s.patPmtCounter = 4 ∨ s.patPmtFlag = true then
        Mpeg2tsMuxer.writePmt (Mpeg2tsMuxer.writePat
          { s with patPmtCounter := 0, patPmtFlag := false }) else s) := by
      split
      · have h₀ : Tabled s { s with patPmtCounter := 0, patPmtFlag := false } :=
          h.congr rfl rfl rfl rfl rfl
        exact h₀.trans h₀.inOrder.tables
      · exact h.tabled
    dsimp only
    split
    · exact htables.trans (htables.inOrder.writePcrTable pts)
    · exact htables
  · split
    · have h₀ : Tabled s { s with patPacketCount := 0 } := h.congr rfl rfl rfl rfl rfl
      have htables := h₀.trans h₀.inOrder.tables
      exact htables.trans (htables.inOrder.writePcrTable pts)
    · exact h.tabled

theorem InOrder.beforePes (h : InOrder s) (pts : Int) (idx : Nat) :
    Tabled s (s.beforePes pts idx) := by
  unfold Mpeg2tsMuxer.beforePes
  split
  · have htables := h.retransmitSiInfo pts idx
    exact htables.trans (htables.inOrder.congr rfl rfl rfl rfl rfl)
  · exact h.tabled

/-! ## One call -/

/-- Making a payload makes no packet, and changes no stream's identifier. -/
theorem InOrder.payloadOf (h : InOrder s) {i : Nat} {st : AVStream} (hst : s.streams[i]? = some st)
    (pkt : AVPacket) :
    InOrder (s.payloadOf i st pkt).2.2 ∧ (s.payloadOf i st pkt).2.2.generated = s.generated := by
  have hvideo : ∀ aud b, InOrder (s.videoPayload i st pkt aud b).2.2 ∧
      (s.videoPayload i st pkt aud b).2.2.generated = s.generated := by
    intro aud b
    have hpids : ∀ st' ∈ s.streams.set i (if b then { st with firstFrame := false } else st),
        st'.pid < 2 ^ 13 ∧ st'.pid ≠ patPid ∧ st'.pid ≠ pmtPid := by
      intro st' hmem
      rcases List.mem_or_eq_of_mem_set hmem with hmem | rfl
      · exact h.pids st' hmem
      · have hpid := h.pids st (List.mem_of_getElem? hst)
        cases b <;> exact hpid
    unfold videoPayload videoPts
    dsimp only
    split <;> exact ⟨⟨h.counted, h.pat, h.pmt, h.pcr, hpids⟩, rfl⟩
  have hrest : ∀ n, InOrder { s with audioFrameNum := n } := fun n =>
    ⟨h.counted, h.pat, h.pmt, h.pcr, h.pids⟩
  unfold Mpeg2tsMuxer.payloadOf
  split
  · exact hvideo _ _
  · exact hvideo _ _
  · exact ⟨hrest _, rfl⟩
  · exact ⟨hrest _, rfl⟩
  · exact ⟨h, rfl⟩

/-- A payload is empty only where there is nothing but data. -/
theorem payloadOf_eq_nil (s : Mpeg2tsMuxer) (i : Nat) (st : AVStream) (pkt : AVPacket)
    (h : (st.codec = .adpcm ∨ st.codec = .ggad) ∧ pkt.data0 = []) :
    (s.payloadOf i st pkt).1 = [] := by
  unfold Mpeg2tsMuxer.payloadOf
  rcases h with ⟨hcodec | hcodec, hdata⟩ <;> rw [hcodec] <;> exact hdata

/-- **A PES** begins with one, which is the next number if those before filled so many packets. -/
theorem InOrder.cutPes (h : InOrder s) {i : Nat} {st : AVStream} (payload : Bytes) (pts : Int)
    (hpid : st.pid < 2 ^ 13 ∧ st.pid ≠ patPid ∧ st.pid ≠ pmtPid)
    (hmod : payload = [] ∨ 16 ∣ (onPid st.pid s.generated).length) :
    InOrder (s.cutPes i st payload pts) := by
  obtain ⟨hsmall, hpat, hpmt⟩ := hpid
  obtain ⟨hps, -⟩ := counted_pesPackets hsmall st.codec pts payload
  have hfirst : firstCc st.pid = 1 := if_neg (not_or.mpr ⟨hpat, hpmt⟩)
  have hgen := (grew_cutPes s i st payload pts).generated
  have hothers : ∀ q, q ≠ st.pid →
      onPid q (s.cutPes i st payload pts).generated = onPid q s.generated := by
    intro q hq
    rw [hgen, onPid_append, hps.onPid_ne hq, List.append_nil]
  refine ⟨?_, ?_, ?_, h.pcr, ?_⟩
  · rw [hgen]
    rcases hmod with rfl | hmod
    · rw [show (pesPackets st.pid st.codec pts []).1 = [] from rfl, List.append_nil]
      exact h.counted
    · refine counted_grow h.counted hps ?_
      rw [hfirst]
      omega
  · rw [hothers patPid hpat.symm]
    exact h.pat
  · rw [hothers pmtPid hpmt.symm]
    exact h.pmt
  · intro st' hmem
    obtain ⟨j, hj⟩ := List.mem_iff_getElem?.mp hmem
    obtain ⟨st₀, hst₀, rfl⟩ := Option.map_eq_some_iff.mp
      ((List.getElem?_modify _ i s.streams j).symm.trans hj)
    have hpid := h.pids st₀ (List.mem_of_getElem? hst₀)
    split <;> exact hpid

theorem InOrder.handOver (h : InOrder s) : InOrder s.handOver := by
  unfold Mpeg2tsMuxer.handOver
  split
  · exact ⟨h.counted, h.pat, h.pmt, h.pcr, h.pids⟩
  · exact h

/-- **One call.** -/
theorem InOrder.tsWritePacket (h : InOrder s) (pkt : AVPacket) (haligned : Aligned s pkt) :
    InOrder (s.tsWritePacket pkt) := by
  unfold Aligned at haligned
  unfold Mpeg2tsMuxer.tsWritePacket
  dsimp only
  split
  · exact h
  · rename_i st hst
    rw [hst] at haligned
    obtain ⟨hpayload, hgen⟩ := h.payloadOf hst pkt
    have htabled := hpayload.beforePes (s.payloadOf (s.realStrmIdx pkt.streamIndex) st pkt).2.1
      pkt.streamIndex
    have hpid := h.pids st (List.mem_of_getElem? hst)
    refine (htabled.inOrder.cutPes _ _ hpid ?_).handOver
    rcases haligned with hempty | hmod
    · exact .inl (payloadOf_eq_nil s _ st pkt hempty)
    · rw [htabled.others st.pid hpid.2.1 hpid.2.2, hgen]
      exact .inr hmod

/-- **The counters have no gap**, where every PES ends on the last number. A PES begins with the
number one whatever came before it on its identifier (`pesPackets`), so two in a row fit together
only if the packets so far are a multiple of sixteen. The tables have counters of their own that go
on, which is why nothing is asked of them. -/
theorem continuity_kept (s : Mpeg2tsMuxer) (hr : Reach system Aligned s) : Continuous s := by
  have hinOrder : InOrder s := by
    refine hr.inv (P := fun s => InOrder s) ?_ ?_
    · rintro s ⟨mode, para, rfl⟩
      exact inOrder_opened mode para
    · intro s pkt s' h haligned hs
      obtain rfl := Option.some.inj hs
      exact h.tsWritePacket pkt haligned
  intro pid
  exact (hinOrder.counted pid).consecutive

/-- An audio packet that fills sixteen transport packets. -/
def longAudioPacket : AVPacket := ⟨0, List.replicate 2900 0, [], 1, false⟩

/-- Sixteen packets, and one more behind them. -/
theorem continuity_kept_seventeen :
    ∃ s, (onPid 0x1100 s.generated).length = 17 ∧ Continuous s := by
  obtain ⟨s, hr, hs⟩ := reach_of_runFrom (fun s pkt => some (tsWritePacket s pkt)) Aligned
    (opened .callbackBuffer audioOnly) [longAudioPacket, audioPacket]
    (fun s => (onPid 0x1100 s.generated).length) 17 (system_start _ _) (by decide +kernel)
  exact ⟨s, hs, continuity_kept s hr⟩

/-- Two audio packets have the same counter. -/
theorem continuity_kept_repeated : ¬ ∀ s, Reach system (anyStep _ _) s → Continuous s := by
  intro hall
  have hr : Reach system (anyStep _ _)
      (((opened .callbackBuffer audioOnly).tsWritePacket audioPacket).tsWritePacket audioPacket) :=
    ((Reach.start (system_start _ _)).next (i := audioPacket) trivial rfl).next (i := audioPacket)
      trivial rfl
  have hgap : ¬ Consecutive 16 TsPacket.cc (onPid 0x1100
      (((opened .callbackBuffer audioOnly).tsWritePacket audioPacket).tsWritePacket
        audioPacket).generated) := by decide +kernel
  exact hgap (hall _ hr 0x1100)

end Mpeg2tsMuxer

end Maixii.Muxer
