import Maixii.Avi.AviRecording

/-!
# `Avi/AviCounts.lean`: what a recording counts

`write_data` counts in three places: every chunk in `m_totalFrames`, the chunks of video streams in
the main header, and those of each video stream in its own. `Counted` says what these counters are
in every recording.

The length of an audio stream is not counted but computed in `close`, from the number of frames and
in 32 bits. **It is computed without a wrap, and then is what it should be, just when three products
are below `2 ^ 32`** (`audio_length_iff`).
-/

set_option autoImplicit false

namespace Maixii.Avi

open Maixii.Lib

/-! ## Counters -/

namespace AviConfig

variable (c : AviConfig)

def isVideo (i : Nat) : Bool := c.streams[i]?.map (·.streamType) = some .video

/-- The number of chunks of video streams. -/
def videoFrames (placed : List Placement) : Nat := (placed.filter fun p => c.isVideo p.stream).length

end AviConfig

/-- The number of chunks of a stream. -/
def chunkCount (placed : List Placement) (i : Nat) : Nat :=
  (placed.filter fun p => p.stream = i).length

theorem chunkCount_append (placed : List Placement) (p : Placement) (i : Nat) :
    chunkCount (placed ++ [p]) i = chunkCount placed i + if p.stream = i then 1 else 0 := by
  rw [chunkCount, List.filter_append, List.length_append, ← chunkCount]
  by_cases h : p.stream = i
  · simp [h]
  · simp [h]

theorem AviConfig.videoFrames_append (c : AviConfig) (placed : List Placement) (p : Placement) :
    c.videoFrames (placed ++ [p]) = c.videoFrames placed + if c.isVideo p.stream then 1 else 0 := by
  rw [AviConfig.videoFrames, List.filter_append, List.length_append, ← AviConfig.videoFrames]
  cases h : c.isVideo p.stream <;> simp [h]

/-- A stream header when so many chunks have been written. -/
def AviStream.headerAt (s : AviStream) (n : Nat) : AVISTREAMHEADER :=
  { s.avisHeader with dwLength := if s.streamType = .video then n else 0 }

/-- **The counters of a recording.** -/
structure Counted (c : AviConfig) (w : AviWriter) (placed : List Placement) : Prop where
  main : w.avimHeader = { c.writer.avimHeader with dwTotalFrames := c.videoFrames placed }
  headers : ∀ (i : Nat) (s : AviStream), w.streams[i]? = some s →
    ∃ s₀ : AviStream, c.writer.streams[i]? = some s₀ ∧ s.streamType = s₀.streamType ∧
      s.avisHeader = s₀.headerAt (chunkCount placed i)

/-! ## Before `open` -/

namespace AviConfig

variable {c : AviConfig}

/-- No stream has a length yet, and no frame is counted. -/
structure Uncounted (w : AviWriter) : Prop where
  main : w.avimHeader.dwTotalFrames = 0
  headers : ∀ s ∈ w.streams, s.avisHeader.dwLength = 0

theorem uncounted_writer (c : AviConfig) : Uncounted c.writer := by
  refine ⟨c.configured.totalFrames, fun s hs => ?_⟩
  obtain ⟨p, rfl⟩ := c.declared_of_mem hs
  cases p <;> rfl

end AviConfig

theorem openedStreams_getElem? (dml : Bool) (num : Nat) (ss : List AviStream) (off i k : Nat)
    {s : AviStream} (h : (openedStreams dml num off i ss)[k]? = some s) :
    ∃ s₀, ss[k]? = some s₀ ∧ s.streamType = s₀.streamType ∧ s.avisHeader = s₀.avisHeader := by
  induction ss generalizing off i k with
  | nil => cases h
  | cons s₁ ss ih =>
    cases k with
    | zero =>
      obtain rfl := Option.some.inj h
      exact ⟨s₁, rfl, by cases dml <;> rfl, by cases dml <;> rfl⟩
    | succ k => exact ih _ _ k h

/-! ## Steps -/

namespace AviStream

variable (s : AviStream)

theorem counted_streamType : s.counted.streamType = s.streamType := by
  unfold counted
  split <;> rfl

theorem counted_avisHeader : s.counted.avisHeader =
    { s.avisHeader with
      dwLength := s.avisHeader.dwLength + if s.streamType = .video then 1 else 0 } := by
  unfold counted
  split <;> rfl

end AviStream

namespace AviWriter

/-- The stream that takes a chunk, with its entry. -/
def indexedStream (w : AviWriter) (i : Nat) (s : AviStream) (id : FourCC) (data : Bytes) :
    AviStream :=
  let t := if s.indexFull then s.newIndex i id w.f.pos else s
  t.pushEntry t.lastIndex
    ⟨(w.f.pos + 8 - if s.indexFull then w.f.pos else w.currBaseOff) % 2 ^ 32, data.length⟩

theorem writeChunk_streams (w : AviWriter) (i : Nat) (s : AviStream) (id : FourCC) (data : Bytes) :
    (w.writeChunk i s id data).streams = w.streams.set i (w.indexedStream i s id data).counted :=
  rfl

theorem indexedStream_type (w : AviWriter) (i : Nat) (s : AviStream) (id : FourCC) (data : Bytes) :
    (w.indexedStream i s id data).streamType = s.streamType := by
  unfold indexedStream
  cases s.indexFull <;> rfl

theorem indexedStream_header (w : AviWriter) (i : Nat) (s : AviStream) (id : FourCC)
    (data : Bytes) : (w.indexedStream i s id data).avisHeader = s.avisHeader := by
  unfold indexedStream
  cases s.indexFull <;> rfl

theorem writeChunk_avimHeader (w : AviWriter) (i : Nat) (s : AviStream) (id : FourCC)
    (data : Bytes) : (w.writeChunk i s id data).avimHeader = { w.avimHeader with
      dwTotalFrames := w.avimHeader.dwTotalFrames + if s.streamType = .video then 1 else 0 } := by
  have hfield : (w.writeChunk i s id data).avimHeader =
      if (w.indexedStream i s id data).streamType = .video then
        { w.avimHeader with dwTotalFrames := w.avimHeader.dwTotalFrames + 1 }
      else w.avimHeader := rfl
  rw [hfield, indexedStream_type]
  split <;> rfl

theorem newSection_avimHeader {w w' : AviWriter} (h : w.newSection = some w') :
    w'.avimHeader = w.avimHeader := by
  rw [newSection_eq h, beginSection_eq]

end AviWriter

namespace Counted

variable {c : AviConfig} {w w' : AviWriter} {placed : List Placement}

theorem start : Counted c c.writer.opened [] := by
  obtain ⟨hmain, hheaders⟩ := c.uncounted_writer
  refine ⟨?_, ?_⟩
  · show c.writer.avimHeader = { c.writer.avimHeader with dwTotalFrames := 0 }
    rw [← hmain]
  · intro i s hs
    obtain ⟨s₀, hs₀, htype, heq⟩ := openedStreams_getElem? _ _ _ _ _ i hs
    refine ⟨s₀, hs₀, htype, ?_⟩
    have hzero := hheaders s₀ (List.mem_of_getElem? hs₀)
    have hlen : (if s₀.streamType = .video then chunkCount [] i else 0) = 0 := by
      split <;> rfl
    rw [heq, AviStream.headerAt, hlen, ← hzero]

/-- The counters know nothing of sections. -/
theorem section_ (h : Counted c w placed) (hmain : w'.avimHeader = w.avimHeader)
    (hstreams : w'.streams = w.streams) : Counted c w' placed :=
  ⟨by rw [hmain, h.main], by rw [hstreams]; exact h.headers⟩

/-- **A chunk is counted**, by its stream and, if that is a video stream, in the main header. -/
theorem writeChunk (h : Counted c w placed) (hl : Layout c w placed) {i : Nat} {s : AviStream}
    {id : FourCC} {data : Bytes} {p : Placement} (hs : w.streams[i]? = some s)
    (hp : p.stream = i) : Counted c (w.writeChunk i s id data) (placed ++ [p]) := by
  have hvideo : c.isVideo i = decide (s.streamType = .video) := by
    have htypes := congrArg (fun l => l[i]?) hl.types
    simp only [List.getElem?_map, hs, Option.map_some] at htypes
    rw [AviConfig.isVideo, ← htypes]
    simp
  refine ⟨?_, ?_⟩
  · rw [AviWriter.writeChunk_avimHeader, h.main, c.videoFrames_append, hp, hvideo]
    simp
  · intro k t ht
    rw [AviWriter.writeChunk_streams] at ht
    by_cases hk : i = k
    · subst hk
      rw [List.getElem?_set_self (List.getElem?_eq_some_iff.mp hs).1] at ht
      obtain rfl := Option.some.inj ht
      obtain ⟨s₀, hs₀, htype, hheader⟩ := h.headers i s hs
      refine ⟨s₀, hs₀, ?_, ?_⟩
      · rw [AviStream.counted_streamType, AviWriter.indexedStream_type, htype]
      · rw [AviStream.counted_avisHeader, AviWriter.indexedStream_header,
          AviWriter.indexedStream_type, hheader, htype, chunkCount_append, if_pos hp]
        unfold AviStream.headerAt
        split <;> rfl
    · rw [List.getElem?_set_ne hk] at ht
      obtain ⟨s₀, hs₀, htype, hheader⟩ := h.headers k t ht
      refine ⟨s₀, hs₀, htype, ?_⟩
      rw [hheader, chunkCount_append, if_neg (by rw [hp]; exact hk), Nat.add_zero]

end Counted

/-- Every recording counts what it has accepted. -/
theorem counted {c : AviConfig} {r : Recording} {G : Recording → UInt8 × Buffer → Prop}
    (h : Reach (recordings c) G r) : Counted c r.w r.placed := by
  refine (h.inv (P := fun r => Layout c r.w r.placed ∧ Counted c r.w r.placed) ?_ ?_).2
  · intro r hr
    obtain rfl := recordings_start hr
    exact ⟨Layout.start, Counted.start⟩
  · rintro r ⟨i, data⟩ r' ⟨hl, hc⟩ _ hw
    obtain ⟨_, s, w₁, hs, hsec, rfl⟩ := Recording.write_cases hw
    rcases hsec with ⟨_, hsec⟩ | ⟨_, rfl⟩
    · obtain ⟨hl₁, _, hstreams, _⟩ := hl.newSection hsec
      have hs₁ : w₁.streams[i.toNat]? = some s := hstreams ▸ hs
      have hc₁ := hc.section_ (AviWriter.newSection_avimHeader hsec) hstreams
      exact ⟨hl₁.writeChunk hs₁, hc₁.writeChunk hl₁ hs₁ rfl⟩
    · exact ⟨hl.writeChunk hs, hc.writeChunk hl hs rfl⟩

/-! ## The length of an audio stream -/

namespace AudioLength

variable (samples bits channels frames scale rate : Nat)

/-- The whole seconds of the video. -/
def seconds : Nat := frames * scale / rate

/-- The length in unbounded numbers. -/
def ideal : Nat := samples * bits * seconds frames scale rate / bits / channels

/-- What `close` computes. -/
def computed : Nat :=
  samples * bits % 2 ^ 32 * (frames * scale % 2 ^ 32 / rate) % 2 ^ 32 / bits / channels

/-- The products fit. If there is no video rate, only one is formed. -/
def Fits : Prop :=
  samples * bits < 2 ^ 32 ∧
    (rate ≠ 0 → frames * scale < 2 ^ 32 ∧ samples * bits * seconds frames scale rate < 2 ^ 32)

variable {samples bits channels frames scale rate}

/-- **If the products fit, the length is right.** -/
theorem computed_of_fits (h : Fits samples bits frames scale rate) :
    computed samples bits channels frames scale rate =
      ideal samples bits channels frames scale rate := by
  obtain ⟨hfirst, hothers⟩ := h
  unfold computed ideal
  rw [Nat.mod_eq_of_lt hfirst]
  by_cases hrate : rate = 0
  · rw [seconds, hrate, Nat.div_zero, Nat.div_zero, Nat.mul_zero, Nat.zero_mod]
  · obtain ⟨hseconds, hall⟩ := hothers hrate
    rw [Nat.mod_eq_of_lt hseconds]
    rw [seconds] at hall ⊢
    rw [Nat.mod_eq_of_lt hall]

end AudioLength

/-- **Video and audio**, whatever calls have led there: the video stream is the last that was
declared one, with `p`, and all audio streams were declared with `q`, whose channels are those of
the format. -/
structure AviConfig.HasBoth (c : AviConfig) (p : VideoProperties) (q : AudioProperties) : Prop where
  video : ∃ v, c.writer.videoStreamIdx = some v ∧ c.streams[v]? = some (declaredStream (.video p))
  audio : ∀ s ∈ c.streams, s.streamType = .audio → s = declaredStream (.audio q)
  nChannels : c.writer.waveFormat.nChannels = q.channels

namespace AviWriter

/-- Whether `close` computes the length of a stream, and from which rate and scale of the video. -/
def lengthFrom (w : AviWriter) (s : AviStream) : Option (Nat × Nat) := do
  let video ← w.videoStreamIdx.bind fun v => w.streams[v]?
  if s.streamType = .audio ∧ video.avisHeader.dwRate ≠ 0 ∧ s.avisHeader.dwScale ≠ 0 ∧
      w.waveFormat.nChannels ≠ 0 then
    some (video.avisHeader.dwRate, video.avisHeader.dwScale)
  else none

/-- The products that `close` forms then, before they are cut to 32 bits. -/
def products (w : AviWriter) (s : AviStream) : List Nat :=
  match w.lengthFrom s with
  | some (vrate, vscal) => [w.avimHeader.dwTotalFrames * vscal,
      s.avisHeader.dwRate * (w.avimHeader.dwTotalFrames * vscal % 2 ^ 32 / vrate)]
  | none => []

/-- What it divides by. -/
def divisors (w : AviWriter) (s : AviStream) : List Nat :=
  match w.lengthFrom s with
  | some (vrate, _) => [vrate, s.avisHeader.dwScale, w.waveFormat.nChannels]
  | none => []

/-- It never divides by zero. -/
theorem divisors_ne_zero (w : AviWriter) (s : AviStream) : ∀ d ∈ w.divisors s, d ≠ 0 := by
  intro d hd
  unfold divisors lengthFrom at hd
  cases hv : w.videoStreamIdx.bind fun v => w.streams[v]? with
  | none =>
    rw [hv] at hd
    cases hd
  | some video =>
    rw [hv, Option.bind_eq_bind, Option.bind_some] at hd
    by_cases hguard : s.streamType = .audio ∧ video.avisHeader.dwRate ≠ 0 ∧
        s.avisHeader.dwScale ≠ 0 ∧ w.waveFormat.nChannels ≠ 0
    · rw [if_pos hguard] at hd
      obtain ⟨-, hrate, hscale, hchannels⟩ := hguard
      simp only [List.mem_cons, List.not_mem_nil, or_false] at hd
      rcases hd with rfl | rfl | rfl
      · exact hrate
      · exact hscale
      · exact hchannels
    · rw [if_neg hguard] at hd
      cases hd

end AviWriter

section

variable {c : AviConfig} {p : VideoProperties} {q : AudioProperties}

/-- What `close` fills in, and the products it takes. -/
theorem Counted.closedHeader_length {w : AviWriter} {placed : List Placement}
    (h : Counted c w placed) (hl : Layout c w placed) (hc : c.HasBoth p q)
    (hbits : q.bitsPerSample ≠ 0) (hchannels : q.channels ≠ 0) {s : AviStream} (hs : s ∈ w.streams)
    (haudio : s.streamType = .audio) :
    (w.closedHeader s).dwLength = AudioLength.computed q.samplesPerSecond q.bitsPerSample q.channels
        (c.videoFrames placed) p.scale p.rate ∧
      w.products s = if p.rate = 0 then [] else [c.videoFrames placed * p.scale,
        q.samplesPerSecond * q.bitsPerSample % 2 ^ 32 *
          (c.videoFrames placed * p.scale % 2 ^ 32 / p.rate)] := by
  obtain ⟨i, hi⟩ := List.getElem?_of_mem hs
  obtain ⟨s₀, hs₀, htype, hheader⟩ := h.headers i s hi
  obtain rfl := hc.audio s₀ (List.mem_of_getElem? hs₀) (htype.symm.trans haudio)
  -- the video stream
  obtain ⟨v, hv, hvs⟩ := hc.video
  have hidx : w.videoStreamIdx = some v :=
    (congrArg AviWriter.videoStreamIdx hl.settings).trans hv
  have hwave : w.waveFormat.nChannels = q.channels :=
    (congrArg (fun w => w.waveFormat.nChannels) hl.settings).trans hc.nChannels
  have hlen : w.streams.length = c.streams.length := by
    have htypes := congrArg List.length hl.types
    rwa [List.length_map, List.length_map] at htypes
  have hlt : v < w.streams.length := hlen ▸ (List.getElem?_eq_some_iff.mp hvs).1
  obtain ⟨s₁, hs₁, -, hvideo⟩ := h.headers v _ (List.getElem?_eq_getElem hlt)
  obtain rfl := Option.some.inj (hvs.symm.trans hs₁)
  have hrate : (w.streams[v]).avisHeader.dwRate = p.rate := by rw [hvideo]; rfl
  have hscale : (w.streams[v]).avisHeader.dwScale = p.scale := by rw [hvideo]; rfl
  have harate : s.avisHeader.dwRate = q.samplesPerSecond * q.bitsPerSample % 2 ^ 32 := by
    rw [hheader]
    rfl
  have hascale : s.avisHeader.dwScale = q.bitsPerSample := by rw [hheader]; rfl
  have halen : s.avisHeader.dwLength = 0 := by rw [hheader]; rfl
  have hframes : w.avimHeader.dwTotalFrames = c.videoFrames placed := by rw [h.main]
  unfold AviWriter.closedHeader AviWriter.products AviWriter.lengthFrom
  rw [hidx, Option.bind_some, List.getElem?_eq_getElem hlt, Option.bind_eq_bind, Option.bind_some]
  dsimp only
  rw [hrate, hscale, harate, hascale, hwave, hframes]
  by_cases hzero : p.rate = 0
  · -- the guard of the division
    have hguard : ¬ (s.streamType = .audio ∧ p.rate ≠ 0 ∧ q.bitsPerSample ≠ 0 ∧ q.channels ≠ 0) :=
      fun h => h.2.1 hzero
    rw [if_neg hguard, if_neg hguard, if_pos hzero, halen, AudioLength.computed, hzero,
      Nat.div_zero, Nat.mul_zero, Nat.zero_mod, Nat.zero_div, Nat.zero_div]
    exact ⟨rfl, rfl⟩
  · have hguard : s.streamType = .audio ∧ p.rate ≠ 0 ∧ q.bitsPerSample ≠ 0 ∧ q.channels ≠ 0 :=
      ⟨haudio, hzero, hbits, hchannels⟩
    rw [if_pos hguard, if_pos hguard, if_neg hzero]
    exact ⟨rfl, rfl⟩

end

/-- **The length of an audio stream is computed exactly**: it is what it should be, no product has
been cut, neither that of `setAudioProperties` nor one of `close`, and nothing is divided by
zero. -/
structure AviWriter.ExactLength (w : AviWriter) (s : AviStream) (p : VideoProperties)
    (q : AudioProperties) (frames : Nat) : Prop where
  length : (w.closedHeader s).dwLength = AudioLength.ideal q.samplesPerSecond q.bitsPerSample
    q.channels frames p.scale p.rate
  rate : q.samplesPerSecond * q.bitsPerSample < 2 ^ 32
  products : ∀ n ∈ w.products s, n < 2 ^ 32
  divisors : ∀ n ∈ w.divisors s, n ≠ 0

/-- **The length of an audio stream is computed exactly just when the products fit.** The frames are
those of the whole recording, for `close` computes from what the main header has counted then; the
three products are named in terms of the configuration, not of what the writer holds. -/
theorem audio_length_iff {c : AviConfig} {p : VideoProperties} {q : AudioProperties}
    (hc : c.HasBoth p q) (hbits : q.bitsPerSample ∈ [8, 16, 24]) (hchannels : 1 ≤ q.channels)
    {r : Recording} (h : Reach (recordings c) (anyStep _ _) r)
    {s : AviStream} (hs : s ∈ r.w.streams) (haudio : s.streamType = .audio) :
    r.w.ExactLength s p q (c.videoFrames r.placed) ↔
      AudioLength.Fits q.samplesPerSecond q.bitsPerSample (c.videoFrames r.placed) p.scale
        p.rate := by
  have hb : q.bitsPerSample ≠ 0 := by
    intro hzero
    rw [hzero] at hbits
    exact absurd hbits (by decide)
  obtain ⟨hlength, hproducts⟩ := (counted h).closedHeader_length (layout h) hc hb
    (Nat.ne_of_gt hchannels) hs haudio
  constructor
  · intro hexact
    refine ⟨hexact.rate, fun hrate => ?_⟩
    have hall := hexact.products
    rw [hproducts, if_neg hrate, Nat.mod_eq_of_lt hexact.rate] at hall
    have hfirst := hall _ (List.mem_cons_self ..)
    refine ⟨hfirst, ?_⟩
    have hsecond := hall _ (List.mem_cons_of_mem _ (List.mem_singleton.mpr rfl))
    rwa [Nat.mod_eq_of_lt hfirst] at hsecond
  · intro hfits
    refine ⟨hlength.trans (AudioLength.computed_of_fits hfits), hfits.1, ?_,
      r.w.divisors_ne_zero s⟩
    rw [hproducts]
    by_cases hrate : p.rate = 0
    · rw [if_pos hrate]
      exact List.forall_mem_nil _
    · obtain ⟨hfirst, hsecond⟩ := hfits.2 hrate
      rw [if_neg hrate, Nat.mod_eq_of_lt hfits.1, Nat.mod_eq_of_lt hfirst]
      exact List.forall_mem_cons.mpr ⟨hfirst, List.forall_mem_singleton.mpr hsecond⟩

/-- A frame in 1000 seconds. -/
def slowVideo : VideoProperties := ⟨16, 16, fourcc "MJPG", 512, 1000000000, 0, 1000, 1⟩

def stereo (samplesPerSecond bitsPerSample : Nat) : AudioProperties :=
  ⟨1, 2, samplesPerSecond, samplesPerSecond * (bitsPerSample / 8) * 2, bitsPerSample,
    bitsPerSample / 8 * 2⟩

/-- Both streams, without the extended index. -/
def slowSettings (q : AudioProperties) : List AviSetting :=
  [.setVideoProperties 0 slowVideo, .setAudioProperties 1 q, .setFrameCount 0 1, .openDML false]

theorem opens_slow (q : AudioProperties) :
    (AviObject.new.configure (slowSettings q)).open.1 = true := rfl

def slowConfig (q : AudioProperties) : AviConfig := ⟨slowSettings q, opens_slow q⟩

theorem hasBoth_slow (q : AudioProperties) : (slowConfig q).HasBoth slowVideo q where
  video := ⟨0, rfl, rfl⟩
  audio s hs haudio := by
    rcases List.mem_pair.mp hs with rfl | rfl
    · exact absurd haudio (by decide)
    · rfl
  nChannels := rfl

/-- One frame is written; what `close` makes of it. -/
def slowRun (q : AudioProperties) : Option (Nat × Option (StreamType × Nat)) :=
  (runFrom Recording.write (anyStep _ _) ⟨(slowConfig q).object.open.2, []⟩ [(0, shortFrame)]).map
    fun r => ((slowConfig q).videoFrames r.placed,
      r.w.streams[1]?.map fun s => (s.streamType, (r.w.closedHeader s).dwLength))

/-- What `slowRun` reads is read off a recording. -/
theorem reach_of_slowRun {q : AudioProperties} {frames n : Nat}
    (h : slowRun q = some (frames, some (.audio, n))) :
    ∃ r, Reach (recordings (slowConfig q)) (anyStep _ _) r ∧
      (slowConfig q).videoFrames r.placed = frames ∧
      ∃ s ∈ r.w.streams, s.streamType = .audio ∧ (r.w.closedHeader s).dwLength = n := by
  obtain ⟨r, hr, hread⟩ := reach_of_runFrom Recording.write (anyStep _ _) _ _ _ _
    (show (recordings (slowConfig q)).start _ from rfl) h
  obtain ⟨hframes, hs⟩ := Prod.mk.inj hread
  obtain ⟨s, hs, hpair⟩ := Option.map_eq_some_iff.mp hs
  obtain ⟨htype, hlen⟩ := Prod.mk.inj hpair
  exact ⟨r, hr, hframes, s, List.mem_of_getElem? hs, htype, hlen⟩

/-- 1000 seconds at 48 kHz fit. -/
theorem audio_length_iff_fits : ∃ r : Recording, ∃ s ∈ r.w.streams,
    (r.w.closedHeader s).dwLength = 24000000 ∧
      (r.w.ExactLength s slowVideo (stereo 48000 16) 1 ↔
        AudioLength.Fits 48000 16 1 1000 1) := by
  have hrun : slowRun (stereo 48000 16) = some (1, some (.audio, 24000000)) := by decide +kernel
  obtain ⟨r, hr, hframes, s, hs, haudio, hlen⟩ := reach_of_slowRun hrun
  have hiff := audio_length_iff (hasBoth_slow _) (by decide) (by decide) hr hs haudio
  rw [hframes] at hiff
  exact ⟨r, s, hs, hlen, hiff⟩

/-- 1000 seconds at 192 kHz do not. -/
theorem audio_length_overflows : ¬ ∀ (c : AviConfig) (p : VideoProperties) (q : AudioProperties),
    c.HasBoth p q → q.bitsPerSample ∈ [8, 16, 24] → 1 ≤ q.channels →
      ∀ r, Reach (recordings c) (anyStep _ _) r → ∀ s ∈ r.w.streams, s.streamType = .audio →
        r.w.ExactLength s p q (c.videoFrames r.placed) := by
  intro hall
  have hrun : slowRun (stereo 192000 24) = some (1, some (.audio, 6521514)) := by decide +kernel
  obtain ⟨r, hr, hframes, s, hs, haudio, hlen⟩ := reach_of_slowRun hrun
  have hideal := (hall _ _ _ (hasBoth_slow _) (by decide) (by decide) r hr s hs haudio).length
  rw [hlen, hframes] at hideal
  exact absurd hideal (by decide)

end Maixii.Avi
