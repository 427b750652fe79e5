import Maixii.Lib.Run
import Maixii.Xop.ParserBounds
import Maixii.Xop.Sdp

/-!
# `Xop/SdpRuns.lean`: the description and the session

Runs of `AddSource`, `RemoveSource`, `StartMulticast` and `GetSdpMessage` on one session. A
description that is made when it is asked for says what the session has (`reflects_lines`); the one
that `sdp_` keeps is returned whatever has become of the sources. **As long as a description is
only asked for while the session is what it was when the description was made, every one that is
returned is right, and the URLs of its tracks lead back to their channels** (`sdp_reflects`).
-/

set_option autoImplicit false

namespace Maixii.Xop

open Maixii.Lib

/-! ## What a description should be -/

/-- `m=`. -/
def isMedia (l : Bytes) : Bool := startsWith (ascii "m=") l

/-- `c=`. -/
def isAddress (l : Bytes) : Bool := startsWith (ascii "c=") l

/-- A section for a source of the session. -/
structure IsSection (s : SdpSession) (m : MediaChannelId × SdpSource) (ls : List Bytes) : Prop where
  /-- It begins with the description of the source, which is its one `m=` line. -/
  media : ls.head? = some (m.2.getMediaDescription (s.mediaPort m.1))
  single : ls.filter isMedia = [m.2.getMediaDescription (s.mediaPort m.1)]
  /-- It ends with the address of the track. -/
  control : ls.getLast? = some (SdpSession.controlLine m.1)
  /-- It has the line with the multicast address exactly when the session is multicast. -/
  address : ls.filter isAddress = if s.isMulticast then [s.addressLine] else []

/-- A description that says what the session has: whole lines, with one section for each source, in
channel order. -/
structure Reflects (s : SdpSession) (sdp : Bytes) : Prop where
  whole : unlines (linesOf sdp) = sdp
  sections : List.Forall₂ (IsSection s) s.present (sectionsOf isMedia (linesOf sdp))

/-- `rtsp://host/<suffix>/track<chn>`. -/
def trackUrl (host suffix : Bytes) (chn : MediaChannelId) : Bytes :=
  scheme ++ (host ++ 47 :: (suffix ++ 47 :: (ascii "track" ++ decimal chn.index)))

/-- The channel that a SETUP of `url` is parsed to: the request line and `ParseMediaChannel`, on a
parser that waits for a request. -/
def setupChannel (r : RtspRequest) (url : Bytes) : Option MediaChannelId :=
  match r.reset.parseRequestLine (ascii "SETUP " ++ url ++ ascii " RTSP/1.0") with
  | some (true, r) =>
      if r.state = .parseHeadersLine then some r.parseMediaChannel.channelId else none
  | _ => none

/-- What a host and a suffix have to be for the parser: its URL is one word without a slash in the
host, it fits the parser's arrays, and `track1` stands nowhere but at its end. -/
structure Addressable (host suffix : Bytes) (chn : MediaChannelId) : Prop where
  host_ne : host ≠ []
  host_slash : 47 ∉ host
  visible : Visible (host ++ suffix)
  length : (trackUrl host suffix chn).length < 512
  fits : UrlFits ((trackUrl host suffix chn).drop 7)
  plain : chn = .channel0 → ¬ ascii "track1" <:+: host ∧ ¬ ascii "track1" <:+: suffix

/-! ## Runs -/

inductive SdpCall
  | addSource (chn : MediaChannelId) (source : SdpSource)
  | removeSource (chn : MediaChannelId)
  | startMulticast (addr : Option (UInt8 × UInt8 × UInt8 × UInt8)) (port0 port1 : UInt16)
  | getSdpMessage (now : Nat) (ip sessionName : Bytes)

/-- The session; what it was when its description was made; and what the last call returned, if it
was `GetSdpMessage`. -/
structure SdpRun where
  session : SdpSession
  made : SdpSession
  returned : Option Bytes

namespace SdpRun

def new (suffix : Bytes) : SdpRun := ⟨.new suffix, .new suffix, none⟩

def step (s : SdpRun) : SdpCall → SdpRun
  | .addSource chn source => ⟨s.session.addSource chn source, s.made, none⟩
  | .removeSource chn => ⟨s.session.removeSource chn, s.made, none⟩
  | .startMulticast addr port0 port1 =>
      ⟨(s.session.startMulticast addr port0 port1).2, s.made, none⟩
  | .getSdpMessage now ip sessionName =>
      ⟨(s.session.getSdpMessage now ip sessionName).2,
        if s.session.sdp = [] then s.session else s.made,
        some (s.session.getSdpMessage now ip sessionName).1⟩

def system (suffix : Bytes) : System SdpRun SdpCall :=
  System.ofStep (fun s => s = new suffix) fun s c => some (s.step c)

/-- A description is asked for while the session has the sources, and is multicast or not, as when
it was made; and when it is made it fits its array, and neither the address nor the name has a line
end in it. -/
def Steady (s : SdpRun) : SdpCall → Prop
  | .getSdpMessage now ip sessionName =>
      if s.session.sdp = [] then
        (unlines (s.session.sdpLines now ip sessionName)).length < sdpSize ∧
          CleanLine (cstr ip) ∧ CleanLine (cstr sessionName)
      else s.session.present = s.made.present ∧ s.session.isMulticast = s.made.isMulticast
  | _ => True

instance (s : SdpRun) (c : SdpCall) : Decidable (s.Steady c) := by
  cases c <;> unfold Steady <;> infer_instance

end SdpRun

/-! ## The lines -/

section Lines

variable {s : SdpSession} {m : MediaChannelId × SdpSource}

theorem cleanLine_append {a b : Bytes} (ha : CleanLine a) (hb : CleanLine b) : CleanLine (a ++ b) :=
  ⟨by simpa using ⟨ha.1, hb.1⟩, by simpa using ⟨ha.2, hb.2⟩⟩

theorem cleanLine_decimal (n : Nat) : CleanLine (decimal n) :=
  ⟨not_mem_decimal (by decide), not_mem_decimal (by decide)⟩

theorem cleanLine_decimal4 (n : Nat) : CleanLine (SdpSource.decimal4 n) := by
  refine cleanLine_append ?_ (cleanLine_decimal n)
  constructor
  · intro hm
    exact absurd (List.eq_of_mem_replicate hm) (by decide)
  · intro hm
    exact absurd (List.eq_of_mem_replicate hm) (by decide)

theorem cleanLine_inetNtoa (addr : UInt8 × UInt8 × UInt8 × UInt8) : CleanLine (inetNtoa addr) := by
  have hdot : ∀ {a b : Bytes}, CleanLine a → CleanLine b → CleanLine (a ++ 46 :: b) := by
    intro a b ha hb
    exact ⟨by simpa using ⟨ha.1, hb.1⟩, by simpa using ⟨ha.2, hb.2⟩⟩
  exact hdot (cleanLine_decimal _) (hdot (cleanLine_decimal _)
    (hdot (cleanLine_decimal _) (cleanLine_decimal _)))

theorem description_spec (source : SdpSource) (port : Nat) :
    CleanLine (source.getMediaDescription port) ∧ isMedia (source.getMediaDescription port) = true ∧
      isAddress (source.getMediaDescription port) = false := by
  have hclean : ∀ {a b : Bytes}, CleanLine a → CleanLine b → CleanLine (a ++ decimal port ++ b) :=
    fun ha hb => cleanLine_append (cleanLine_append ha (cleanLine_decimal port)) hb
  cases source with
  | _ => exact ⟨hclean (by decide) (by decide), rfl, rfl⟩

/-- The lines of an attribute are neither `m=` nor `c=`. -/
theorem attributeLines_spec (source : SdpSource) : ∀ l ∈ SdpSession.attributeLines source,
    CleanLine l ∧ isMedia l = false ∧ isAddress l = false := by
  intro l hl
  cases source with
  | aac samplerate channels =>
    unfold SdpSession.attributeLines at hl
    dsimp only at hl
    cases hindex : aacSampleRate.findIdx? (· = samplerate.toNat) with
    | none =>
      rw [hindex] at hl
      obtain rfl := List.mem_singleton.mp hl
      exact ⟨by decide, rfl, rfl⟩
    | some index =>
      rw [hindex] at hl
      simp only [List.mem_cons, List.not_mem_nil, or_false] at hl
      rcases hl with rfl | rfl
      · refine ⟨?_, rfl, rfl⟩
        exact cleanLine_append (cleanLine_append (cleanLine_append (by decide)
          (cleanLine_decimal _)) (by decide)) (cleanLine_decimal _)
      · refine ⟨?_, rfl, rfl⟩
        exact cleanLine_append (cleanLine_append (by decide) (by decide)) (cleanLine_decimal4 _)
  | _ =>
    obtain rfl := List.mem_singleton.mp hl
    exact ⟨by decide, rfl, rfl⟩

theorem controlLine_spec (chn : MediaChannelId) :
    CleanLine (SdpSession.controlLine chn) ∧ isMedia (SdpSession.controlLine chn) = false ∧
      isAddress (SdpSession.controlLine chn) = false :=
  ⟨cleanLine_append (by decide) (cleanLine_decimal _), rfl, rfl⟩

theorem addressLine_spec (hip : CleanLine s.multicastIp) :
    CleanLine s.addressLine ∧ isMedia s.addressLine = false ∧ isAddress s.addressLine = true :=
  ⟨cleanLine_append (cleanLine_append (by decide) hip) (by decide), rfl, rfl⟩

/-- **The lines of a source are a section**, and clean. -/
theorem mediaLines_spec (hip : CleanLine s.multicastIp) :
    IsSection s m (s.mediaLines m) ∧ (∀ l ∈ s.mediaLines m, CleanLine l) ∧
      ∃ l ls, s.mediaLines m = l :: ls ∧ isMedia l = true ∧ ∀ l ∈ ls, isMedia l = false := by
  obtain ⟨hdesc, hmedia, hno⟩ := description_spec m.2 (s.mediaPort m.1)
  have hattr := attributeLines_spec m.2
  obtain ⟨hctl, hctl', hctl''⟩ := controlLine_spec m.1
  obtain ⟨haddr, haddr', haddr''⟩ := addressLine_spec hip
  have hattrMedia : (SdpSession.attributeLines m.2).filter isMedia = [] :=
    List.filter_eq_nil_iff.mpr fun l hl => by simp [(hattr l hl).2.1]
  have hattrAddr : (SdpSession.attributeLines m.2).filter isAddress = [] :=
    List.filter_eq_nil_iff.mpr fun l hl => by simp [(hattr l hl).2.2]
  unfold SdpSession.mediaLines
  refine ⟨⟨rfl, ?_, ?_, ?_⟩, ?_, _, _, rfl, hmedia, ?_⟩
  · cases s.isMulticast <;> simp [hmedia, haddr', hattrMedia, hctl']
  · rw [List.getLast?_cons, List.getLast?_append]
    rfl
  · cases s.isMulticast <;> simp [hno, haddr'', hattrAddr, hctl'']
  · intro l hl
    rcases List.mem_cons.mp hl with rfl | hl
    · exact hdesc
    · simp only [List.mem_append, List.mem_singleton] at hl
      rcases hl with (hl | hl) | rfl
      · split at hl
        · obtain rfl := List.mem_singleton.mp hl
          exact haddr
        · simp at hl
      · exact (hattr l hl).1
      · exact hctl
  · intro l hl
    simp only [List.mem_append, List.mem_singleton] at hl
    rcases hl with (hl | hl) | rfl
    · split at hl
      · obtain rfl := List.mem_singleton.mp hl
        exact haddr'
      · simp at hl
    · exact (hattr l hl).2.1
    · exact hctl'

/-- The head has clean lines, and no section begins in it. -/
theorem headLines_spec {now : Nat} {ip sessionName : Bytes} (hip : CleanLine (cstr ip))
    (hname : CleanLine (cstr sessionName)) :
    ∀ l ∈ s.headLines now ip sessionName, CleanLine l ∧ isMedia l = false := by
  intro l hl
  unfold SdpSession.headLines at hl
  simp only [List.mem_append, List.mem_cons, List.not_mem_nil, or_false] at hl
  rcases hl with ((rfl | rfl | rfl | rfl) | hl) | hl
  · exact ⟨by decide, rfl⟩
  · refine ⟨?_, rfl⟩
    exact cleanLine_append (cleanLine_append (cleanLine_append (by decide) (cleanLine_decimal _))
      (by decide)) hip
  · exact ⟨by decide, rfl⟩
  · exact ⟨by decide, rfl⟩
  · split at hl
    · obtain rfl := List.mem_singleton.mp hl
      exact ⟨cleanLine_append (by decide) hname, rfl⟩
    · simp at hl
  · split at hl
    · simp only [List.mem_cons, List.not_mem_nil, or_false] at hl
      rcases hl with rfl | rfl <;> exact ⟨by decide, rfl⟩
    · simp at hl

/-- **The lines of the session reflect it.** -/
theorem reflects_lines (hmulti : CleanLine s.multicastIp) {now : Nat} {ip sessionName : Bytes}
    (hip : CleanLine (cstr ip)) (hname : CleanLine (cstr sessionName)) :
    Reflects s (unlines (s.sdpLines now ip sessionName)) := by
  have hhead : ∀ l ∈ s.headLines now ip sessionName, CleanLine l ∧ isMedia l = false :=
    headLines_spec hip hname
  have hsections : ∀ ls ∈ s.present.map s.mediaLines, ∃ l ls', ls = l :: ls' ∧
      isMedia l = true ∧ ∀ m ∈ ls', isMedia m = false := by
    intro ls hls
    obtain ⟨m, -, rfl⟩ := List.mem_map.mp hls
    exact (mediaLines_spec hmulti).2.2
  have hclean : ∀ l ∈ s.sdpLines now ip sessionName, CleanLine l := by
    intro l hl
    rcases List.mem_append.mp hl with hl | hl
    · exact (hhead l hl).1
    · obtain ⟨ls, hls, hl⟩ := List.mem_flatten.mp hl
      obtain ⟨m, -, rfl⟩ := List.mem_map.mp hls
      exact (mediaLines_spec hmulti).2.1 l hl
  have hlines := linesOf_unlines hclean
  refine ⟨by rw [hlines], ?_⟩
  rw [hlines]
  unfold SdpSession.sdpLines
  rw [sectionsOf_skip (fun l hl => (hhead l hl).2), sectionsOf_flatten hsections,
    List.forall₂_map_right_iff]
  exact List.forall₂_same.mpr fun m _ => (mediaLines_spec hmulti).1

end Lines

/-! ## The tracks -/

section Tracks

variable {host suffix : Bytes} {chn : MediaChannelId}

theorem Addressable.visibleUrl (h : Addressable host suffix chn) :
    Visible (trackUrl host suffix chn) := by
  have hscheme : Visible scheme := forall_mem_of_all (by decide)
  have htrack : Visible (ascii "track" ++ decimal chn.index) := by
    cases chn <;> exact forall_mem_of_all (by decide)
  have hslash : isSpace 47 = false ∧ (47 : UInt8) ≠ 0 := by decide
  intro b hb
  unfold trackUrl at hb
  simp only [List.mem_append, List.mem_cons] at hb
  rcases hb with hb | hb | rfl | hb | rfl | hb
  · exact hscheme b hb
  · exact h.visible b (by simp [hb])
  · exact hslash
  · exact h.visible b (by simp [hb])
  · exact hslash
  · exact htrack b (by simpa using hb)

/-- **`track1` is found in the URL of the second track only.** -/
theorem Addressable.track1 (h : Addressable host suffix chn) :
    (findFirst (ascii "track1") (trackUrl host suffix chn)).isSome = decide (chn = .channel1) := by
  show occurs _ _ = _
  cases chn with
  | channel0 =>
    obtain ⟨hhost, hsuffix⟩ := h.plain rfl
    rw [decide_eq_false (by decide), ← Bool.not_eq_true, occurs_iff]
    have hsplit : trackUrl host suffix .channel0 = ascii "rtsp:" ++
        47 :: ([] ++ 47 :: (host ++ 47 :: (suffix ++ 47 :: ascii "track0"))) := rfl
    have hslash : (47 : UInt8) ∉ ascii "track1" := by decide
    rw [hsplit, infix_cut hslash, infix_cut hslash, infix_cut hslash, infix_cut hslash]
    simp only [hhost, hsuffix, false_or, not_or]
    exact ⟨by decide, by decide, by decide⟩
  | channel1 =>
    rw [decide_eq_true rfl, occurs_iff]
    refine ⟨scheme ++ (host ++ 47 :: (suffix ++ [47])), [], ?_⟩
    have hlast : ascii "track" ++ decimal MediaChannelId.channel1.index = ascii "track1" := by decide
    unfold trackUrl
    rw [hlast]
    simp

/-- The parser takes the URL apart. -/
theorem Addressable.parsed (h : Addressable host suffix chn) :
    ∃ place, RtspRequest.parseUrl ((trackUrl host suffix chn).drop 7) = some (some place) := by
  have hclean : cstr ((trackUrl host suffix chn).drop 7) = (trackUrl host suffix chn).drop 7 :=
    cstr_of_no_nul fun hm => h.visibleUrl.no_nul (List.mem_of_mem_drop hm)
  have hfits := h.fits
  rw [← hclean, ← RtspRequest.urlFits_iff] at hfits
  cases hparse : RtspRequest.parseUrl ((trackUrl host suffix chn).drop 7) with
  | none => exact absurd hparse hfits
  | some parts =>
    cases parts with
    | some place => exact ⟨place, rfl⟩
    | none =>
      -- There is a host, and there is something behind it.
      rw [parseUrl_eq, parseUrlInto_none_iff (by omega), hclean] at hparse
      have hrest : (trackUrl host suffix chn).drop 7 =
          host ++ 47 :: (suffix ++ 47 :: (ascii "track" ++ decimal chn.index)) := rfl
      have hhead := hparse.headless
      rw [hrest] at hhead
      rcases hhead with hno | ⟨x, y, heq, hx, hxy⟩
      · exact absurd (by simp) hno
      · obtain ⟨rfl, rfl⟩ := cut_unique h.host_slash hx heq
        rcases hxy with hnil | hblank
        · exact absurd hnil h.host_ne
        · have hslash := hblank 47 (by simp)
          exact absurd hslash (by decide)

/-- `ParseMediaChannel` looks at the URL of the request line. -/
theorem parseMediaChannel_url {r : RtspRequest} {u : Bytes} {n : Nat}
    (h : r.requestLineParam.find .url = some (u, n)) :
    r.parseMediaChannel.channelId =
      if (findFirst (ascii "track1") u).isSome then .channel1 else .channel0 := by
  unfold RtspRequest.parseMediaChannel
  rw [h]
  dsimp only
  split <;> rfl

/-- **A SETUP of a track's URL is parsed to its channel.** -/
theorem setupChannel_track (r : RtspRequest) (h : Addressable host suffix chn) :
    setupChannel r (trackUrl host suffix chn) = some chn := by
  have htrack := h.track1
  have hlen := h.length
  have hvisible := h.visibleUrl
  obtain ⟨place, hplace⟩ := h.parsed
  have hscheme : startsWith (ascii "rtsp://") (trackUrl host suffix chn) = true :=
    List.isPrefixOf_iff_prefix.mpr (List.prefix_append _ _)
  have hne : trackUrl host suffix chn ≠ [] := by
    intro hnil
    rw [hnil] at hscheme
    exact absurd hscheme (by decide)
  generalize trackUrl host suffix chn = url at *
  have hline : ascii "SETUP " ++ url ++ ascii " RTSP/1.0" =
      Method.setup.toBytes ++ 32 :: url ++ 32 :: Request.version := by
    have hs : ascii "SETUP " = Method.setup.toBytes ++ [32] := by decide
    have hv : ascii " RTSP/1.0" = 32 :: Request.version := by decide
    rw [hs, hv]
    simp
  have hscan := scan_line (visible_method .setup) hvisible visible_version (toBytes_ne_nil .setup) hne
    (by decide)
  have hfits : RtspRequest.fits [.text Method.setup.toBytes, .text url, .text Request.version]
      [64, 512, 64] = true := by
    simp only [RtspRequest.fits, hlen, decide_true, Bool.true_and, Bool.and_true]
    decide
  have hmethod : RtspRequest.methodOf Method.setup.toBytes = some .setup := by decide
  unfold setupChannel RtspRequest.parseRequestLine
  rw [hline, hscan]
  simp only [hfits, hmethod, hscheme, hplace, Bool.not_true, Bool.false_eq_true, if_false]
  show some (RtspRequest.parseMediaChannel _).channelId = _
  rw [parseMediaChannel_url (u := url) (n := 0) ?_, htrack]
  · cases chn <;> rfl
  · simp only [Params.find_emplace, RtspRequest.reset, reduceCtorEq, if_false, if_true]
    rfl

end Tracks

/-! ## What holds in every run -/

section Runs

variable {s t : SdpSession} {sdp : Bytes}

/-- A section depends on the session's addresses only. -/
theorem IsSection.congr {m : MediaChannelId × SdpSource} {ls : List Bytes}
    (hmulti : t.isMulticast = s.isMulticast)
    (haddr : s.isMulticast = true → t.multicastIp = s.multicastIp ∧ t.multicastPort = s.multicastPort)
    (h : IsSection s m ls) : IsSection t m ls := by
  have hport : t.mediaPort m.1 = s.mediaPort m.1 := by
    unfold SdpSession.mediaPort
    rw [hmulti]
    split
    · rename_i hs
      rw [(haddr hs).2]
    · rfl
  refine ⟨by rw [hport]; exact h.media, by rw [hport]; exact h.single, h.control, ?_⟩
  rw [h.address, hmulti]
  split
  · rename_i hs
    unfold SdpSession.addressLine
    rw [(haddr hs).1]
  · rfl

theorem Reflects.congr (hpresent : t.present = s.present) (hmulti : t.isMulticast = s.isMulticast)
    (haddr : s.isMulticast = true → t.multicastIp = s.multicastIp ∧ t.multicastPort = s.multicastPort)
    (h : Reflects s sdp) : Reflects t sdp := by
  refine ⟨h.whole, ?_⟩
  rw [hpresent]
  exact h.sections.imp fun _ _ hsection => hsection.congr hmulti haddr

namespace SdpRun

/-- The invariant: `sdp_` is right for the session it was made for, and a session that is multicast
stays what it is. -/
structure Inv (s : SdpRun) : Prop where
  clean : CleanLine s.session.multicastIp
  cached : s.session.sdp ≠ [] → Reflects s.made s.session.sdp
  multicast : s.made.isMulticast = true → s.session.isMulticast = true ∧
    s.session.multicastIp = s.made.multicastIp ∧ s.session.multicastPort = s.made.multicastPort
  returned : ∀ sdp, s.returned = some sdp → Reflects s.session sdp

theorem inv_new (suffix : Bytes) : (new suffix).Inv where
  clean := ⟨List.not_mem_nil, List.not_mem_nil⟩
  cached h := absurd rfl h
  multicast h := by simp [new, SdpSession.new] at h
  returned sdp h := by simp [new] at h

/-- **One call.** -/
theorem inv_step {s : SdpRun} {c : SdpCall} (h : s.Inv) (hg : s.Steady c) : (s.step c).Inv := by
  cases c with
  | addSource chn source => exact ⟨h.clean, h.cached, h.multicast, fun sdp hsdp => by cases hsdp⟩
  | removeSource chn => exact ⟨h.clean, h.cached, h.multicast, fun sdp hsdp => by cases hsdp⟩
  | startMulticast addr port0 port1 =>
    unfold step SdpSession.startMulticast
    dsimp only
    by_cases hm : s.session.isMulticast = true
    · rw [if_pos hm]
      exact ⟨h.clean, h.cached, h.multicast, fun sdp hsdp => by cases hsdp⟩
    · rw [if_neg hm]
      -- The description, if there is one, was made without multicast.
      have hmade : s.made.isMulticast ≠ true := fun hmade => hm (h.multicast hmade).1
      cases addr with
      | none =>
        exact ⟨⟨by simp, by simp⟩, h.cached, fun hmade' => absurd hmade' hmade,
          fun sdp hsdp => by cases hsdp⟩
      | some addr =>
        exact ⟨cleanLine_inetNtoa addr, h.cached, fun hmade' => absurd hmade' hmade,
          fun sdp hsdp => by cases hsdp⟩
  | getSdpMessage now ip sessionName =>
    unfold Steady at hg
    unfold step
    dsimp only at hg ⊢
    by_cases hsdp : s.session.sdp = []
    · rw [if_pos hsdp] at hg ⊢
      obtain ⟨hlen, hip, hname⟩ := hg
      have htake : (unlines (s.session.sdpLines now ip sessionName)).take (sdpSize - 1) =
          unlines (s.session.sdpLines now ip sessionName) :=
        List.take_of_length_le (by omega)
      rw [SdpSession.getSdpMessage_fresh hsdp, htake]
      have hreflects : Reflects s.session (unlines (s.session.sdpLines now ip sessionName)) :=
        reflects_lines h.clean hip hname
      refine ⟨h.clean, fun _ => hreflects, fun hm => ⟨hm, rfl, rfl⟩, ?_⟩
      rintro sdp ⟨⟩
      exact Reflects.congr (s := s.session) rfl rfl (fun _ => ⟨rfl, rfl⟩) hreflects
    · rw [if_neg hsdp] at hg ⊢
      obtain ⟨hpresent, hmulti⟩ := hg
      have hsame : s.session.getSdpMessage now ip sessionName = (s.session.sdp, s.session) :=
        if_pos hsdp
      rw [hsame]
      refine ⟨h.clean, h.cached, h.multicast, ?_⟩
      rintro sdp ⟨⟩
      exact (h.cached hsdp).congr hpresent hmulti fun hm => (h.multicast hm).2

end SdpRun

/-- **Every description that is returned says what the session has, and the URLs of its tracks lead
back to their channels**, in every run in which descriptions are asked for while they are true. -/
theorem sdp_reflects (suffix : Bytes) (s : SdpRun)
    (h : Reach (SdpRun.system suffix) SdpRun.Steady s) (sdp : Bytes) (hsdp : s.returned = some sdp) :
    Reflects s.session sdp ∧ ∀ m ∈ s.session.present, ∀ (r : RtspRequest) (host : Bytes),
      Addressable host s.session.suffix m.1 →
        setupChannel r (trackUrl host s.session.suffix m.1) = some m.1 := by
  have hinv : s.Inv := by
    refine h.inv (P := SdpRun.Inv) ?_ ?_
    · rintro s rfl
      exact SdpRun.inv_new suffix
    · intro s c s' hs hg hstep
      obtain rfl := Option.some.inj hstep
      exact SdpRun.inv_step hs hg
  exact ⟨hinv.returned sdp hsdp, fun m _ r host haddr => setupChannel_track r haddr⟩

/-- A session with a video source is described, and its track is found. -/
theorem sdp_reflects_live : ∃ (s : SdpRun) (sdp : Bytes), s.returned = some sdp ∧
    Reflects s.session sdp ∧
      setupChannel newRequest (trackUrl (ascii "h") (ascii "live") .channel0) = some .channel0 := by
  have hstart : (SdpRun.system (ascii "live")).start (.new (ascii "live")) := rfl
  obtain ⟨s, hs, hg⟩ := reach_of_runFrom (fun s c => some (SdpRun.step s c)) SdpRun.Steady
    (.new (ascii "live")) [.addSource .channel0 .h264, .getSdpMessage 7 (ascii "10.0.0.1") []]
    (fun s => (s.session.suffix, s.session.present, s.returned))
    (ascii "live", [(.channel0, .h264)], some (ascii ("v=0\r\no=- 97 1 IN IP4 10.0.0.1\r\n" ++
      "t=0 0\r\na=control:*\r\nm=video 0 RTP/AVP 96\r\na=rtpmap:96 H264/90000\r\n" ++
      "a=control:track0\r\n"))) hstart (by decide +kernel)
  obtain ⟨hsuffix, hpresent, hsdp⟩ : s.session.suffix = ascii "live" ∧
      s.session.present = [(.channel0, .h264)] ∧ s.returned = some _ := by
    simpa only [Prod.mk.injEq] using hg
  have hfits : UrlFits (ascii "h/live/track0") :=
    (RtspRequest.urlFits_iff (ascii "h/live/track0")).mp (by decide +kernel)
  have haddr : Addressable (ascii "h") (ascii "live") .channel0 :=
    ⟨by decide, by decide, forall_mem_of_all (by decide), by decide, hfits,
      fun _ => ⟨by decide, by decide⟩⟩
  obtain ⟨hreflects, htracks⟩ := sdp_reflects (ascii "live") s hs _ hsdp
  refine ⟨s, _, hsdp, hreflects, ?_⟩
  have hmem : (MediaChannelId.channel0, SdpSource.h264) ∈ s.session.present := by
    rw [hpresent]
    exact List.mem_singleton.mpr rfl
  have htrack := htracks _ hmem newRequest (ascii "h")
  rw [hsuffix] at htrack
  exact htrack haddr

/-- A source that is added after the first description is in none. -/
theorem sdp_stale : ∃ s sdp, Reach (SdpRun.system (ascii "live")) (anyStep _ _) s ∧
    s.returned = some sdp ∧ ¬ Reflects s.session sdp := by
  have hstart : (SdpRun.system (ascii "live")).start (.new (ascii "live")) := rfl
  obtain ⟨s, hs, hg⟩ := reach_of_runFrom (fun s c => some (SdpRun.step s c)) (anyStep _ _)
    (.new (ascii "live")) [.addSource .channel0 .h264, .getSdpMessage 7 [] [],
      .addSource .channel1 .g711a, .getSdpMessage 8 [] []]
    (fun s => (s.session.present.length, s.returned.map fun sdp =>
      (sectionsOf isMedia (linesOf sdp)).length)) (2, some 1) hstart (by decide +kernel)
  obtain ⟨hpresent, hsections⟩ := Prod.mk.inj hg
  obtain ⟨sdp, hsdp, hone⟩ := Option.map_eq_some_iff.mp hsections
  refine ⟨s, sdp, hs, hsdp, fun hreflects => ?_⟩
  have hlen := hreflects.sections.length_eq
  rw [hpresent, hone] at hlen
  exact absurd hlen (by decide)

end Runs

end Maixii.Xop
