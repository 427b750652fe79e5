import Maixii.Lib.Lines
import Maixii.Xop.RtspMessage

/-!
# `Xop/Sdp.lean`: the session description

`AddSource`, `RemoveSource`, `StartMulticast` and `GetSdpMessage` of `xop/MediaSession.cpp`, with
the description and the attribute of the media sources. The text is put together piece by piece in
an array of 2048 bytes, every `snprintf` at the end of what is there, so it is cut when it does not
fit; and it is made once: the next calls return `sdp_` as it is, whatever has happened to the
sources in between.
-/

set_option autoImplicit false

namespace Maixii.Xop

open Maixii.Lib

/-! ## The sources -/

/-- What a description says of a source; AAC with `samplerate_` and `channels_`. -/
inductive SdpSource
  | h264 | h265 | vp8 | g711a
  | aac (samplerate channels : UInt32)
  deriving DecidableEq

/-- `"%02x"` of a byte. -/
def hexByte (n : Nat) : Bytes :=
  let hex (d : Nat) : UInt8 := if d < 10 then UInt8.ofNat (48 + d) else UInt8.ofNat (87 + d)
  [hex (n / 16 % 16), hex (n % 16)]

/-- `AACSampleRate`. -/
def aacSampleRate : List Nat :=
  [96000, 88200, 64000, 48000, 44100, 32000, 24000, 22050, 16000, 12000, 11025, 8000, 7350, 0, 0, 0]

namespace SdpSource

/-- `GetMediaDescription`. -/
def getMediaDescription : SdpSource → Nat → Bytes
  | h264, port | h265, port | vp8, port => ascii "m=video " ++ decimal port ++ ascii " RTP/AVP 96"
  | g711a, port => ascii "m=audio " ++ decimal port ++ ascii " RTP/AVP 8"
  | aac _ _, port => ascii "m=audio " ++ decimal port ++ ascii " RTP/AVP 97"

/-- `config` of the AAC source, as `atoi` reads its hexadecimal digits: up to the first letter. -/
def aacConfig (index channels : Nat) : Nat :=
  let text := hexByte (16 ||| index / 2) ++ hexByte ((index * 128 ||| channels * 8) % 256)
  digitsValue 0 (text.takeWhile isDigit)

/-- `"%04u"`. -/
def decimal4 (n : Nat) : Bytes := List.replicate (4 - (decimal n).length) 48 ++ decimal n

/-- `GetAttribute`. -/
def getAttribute : SdpSource → Bytes
  | h264 => ascii "a=rtpmap:96 H264/90000"
  | h265 => ascii "a=rtpmap:96 H265/90000"
  | vp8 => ascii "a=rtpmap:96 VP8/90000"
  | g711a => ascii "a=rtpmap:8 PCMA/8000/1"
  | aac samplerate channels =>
      match aacSampleRate.findIdx? (· = samplerate.toNat) with
      | none => []
      | some index =>
          ascii "a=rtpmap:97 MPEG4-GENERIC/" ++ decimal samplerate.toNat ++ [47] ++
            decimal channels.toNat ++ crlf ++
          (ascii "a=fmtp:97 profile-level-id=1;mode=AAC-hbr;sizelength=13;indexlength=3;" ++
            ascii "indexdeltalength=3;config=" ++ decimal4 (aacConfig index channels.toNat))

end SdpSource

/-! ## The session -/

/-- The fields of a `MediaSession` that its description is made of. -/
structure SdpSession where
  suffix : Bytes
  sdp : Bytes
  source : MediaChannelId → Option SdpSource
  isMulticast : Bool
  multicastIp : Bytes
  multicastPort : MediaChannelId → Nat

/-- `inet_ntoa`. -/
def inetNtoa (addr : UInt8 × UInt8 × UInt8 × UInt8) : Bytes :=
  decimal addr.1.toNat ++ 46 :: (decimal addr.2.1.toNat ++ 46 :: (decimal addr.2.2.1.toNat ++
    46 :: decimal addr.2.2.2.toNat))

/-- The number of a channel. -/
def MediaChannelId.index : MediaChannelId → Nat
  | .channel0 => 0
  | .channel1 => 1

/-- `buf`. -/
def sdpSize : Nat := 2048

/-- `snprintf(buf+strlen(buf), sizeof(buf)-strlen(buf), ..)`. -/
def appendText (buf s : Bytes) : Bytes := buf ++ s.take (sdpSize - buf.length - 1)

namespace SdpSession

/-- `MediaSession(url_suffix)`. -/
def new (suffix : Bytes) : SdpSession := ⟨suffix, [], fun _ => none, false, [], fun _ => 0⟩

/-- `AddSource`, of which the description sees the assignment. -/
def addSource (s : SdpSession) (chn : MediaChannelId) (source : SdpSource) : SdpSession :=
  { s with source := Function.update s.source chn (some source) }

/-- `RemoveSource`. -/
def removeSource (s : SdpSession) (chn : MediaChannelId) : SdpSession :=
  { s with source := Function.update s.source chn none }

/-- `StartMulticast`, with the address `GetAddr` has found, if any, and the two port numbers that
are drawn. -/
def startMulticast (s : SdpSession) (addr : Option (UInt8 × UInt8 × UInt8 × UInt8))
    (port0 port1 : UInt16) : Bool × SdpSession :=
  if s.isMulticast then (true, s)
  else match addr with
    | none => (false, { s with multicastIp := [] })
    | some addr =>
        (true, { s with
          multicastIp := inetNtoa addr
          multicastPort := fun
            | .channel0 => port0.toNat
            | .channel1 => port1.toNat
          isMulticast := true })

/-- One round of the loop over the channels. -/
def appendMedia (s : SdpSession) (buf : Bytes) (chn : MediaChannelId) : Bytes :=
  match s.source chn with
  | none => buf
  | some source =>
      let buf :=
        if s.isMulticast then
          let buf := appendText buf (source.getMediaDescription (s.multicastPort chn) ++ crlf)
          appendText buf (ascii "c=IN IP4 " ++ s.multicastIp ++ ascii "/255" ++ crlf)
        else appendText buf (source.getMediaDescription 0 ++ crlf)
      let buf := appendText buf (source.getAttribute ++ crlf)
      appendText buf (ascii "a=control:track" ++ decimal chn.index ++ crlf)

/-- `GetSdpMessage(ip, session_name)`, at the time `now`. -/
def getSdpMessage (s : SdpSession) (now : Nat) (ip sessionName : Bytes) : Bytes × SdpSession :=
  if s.sdp ≠ [] then (s.sdp, s)
  else
    let buf := appendText [] (ascii "v=0\r\no=- 9" ++ decimal now ++ ascii " 1 IN IP4 " ++ cstr ip ++
      ascii "\r\nt=0 0\r\na=control:*\r\n")
    let buf := if sessionName ≠ [] then appendText buf (ascii "s=" ++ cstr sessionName ++ crlf)
      else buf
    let buf := if s.isMulticast then
        appendText buf (ascii "a=type:broadcast\r\na=rtcp-unicast: reflection\r\n")
      else buf
    let buf := s.appendMedia buf .channel0
    let buf := s.appendMedia buf .channel1
    (buf, { s with sdp := buf })

/-! ## The text as lines -/

/-- The sources that are there, in channel order. -/
def present (s : SdpSession) : List (MediaChannelId × SdpSource) :=
  [MediaChannelId.channel0, .channel1].filterMap fun chn => (s.source chn).map fun source =>
    (chn, source)

/-- The port in the description of a source. -/
def mediaPort (s : SdpSession) (chn : MediaChannelId) : Nat :=
  if s.isMulticast then s.multicastPort chn else 0

/-- The line with the multicast address. -/
def addressLine (s : SdpSession) : Bytes := ascii "c=IN IP4 " ++ s.multicastIp ++ ascii "/255"

/-- The line with the address of a track. -/
def controlLine (chn : MediaChannelId) : Bytes := ascii "a=control:track" ++ decimal chn.index

/-- The lines of an attribute. -/
def attributeLines : SdpSource → List Bytes
  | .aac samplerate channels =>
      match aacSampleRate.findIdx? (· = samplerate.toNat) with
      | none => [[]]
      | some index =>
          [ascii "a=rtpmap:97 MPEG4-GENERIC/" ++ decimal samplerate.toNat ++ [47] ++
              decimal channels.toNat,
            ascii "a=fmtp:97 profile-level-id=1;mode=AAC-hbr;sizelength=13;indexlength=3;" ++
              ascii "indexdeltalength=3;config=" ++
              SdpSource.decimal4 (SdpSource.aacConfig index channels.toNat)]
  | source => [source.getAttribute]

/-- The lines of one source. -/
def mediaLines (s : SdpSession) (m : MediaChannelId × SdpSource) : List Bytes :=
  m.2.getMediaDescription (s.mediaPort m.1) ::
    ((if s.isMulticast then [s.addressLine] else []) ++ attributeLines m.2 ++ [controlLine m.1])

/-- The lines before the first source. -/
def headLines (s : SdpSession) (now : Nat) (ip sessionName : Bytes) : List Bytes :=
  [ascii "v=0", ascii "o=- 9" ++ decimal now ++ ascii " 1 IN IP4 " ++ cstr ip, ascii "t=0 0",
    ascii "a=control:*"] ++
    (if sessionName ≠ [] then [ascii "s=" ++ cstr sessionName] else []) ++
    (if s.isMulticast then [ascii "a=type:broadcast", ascii "a=rtcp-unicast: reflection"] else [])

/-- All of them. -/
def sdpLines (s : SdpSession) (now : Nat) (ip sessionName : Bytes) : List Bytes :=
  s.headLines now ip sessionName ++ (s.present.map s.mediaLines).flatten

theorem appendText_take (a b : Bytes) :
    appendText (a.take (sdpSize - 1)) b = (a ++ b).take (sdpSize - 1) := by
  unfold appendText
  rw [List.take_append, List.length_take]
  congr 2
  omega

theorem attribute_unlines (source : SdpSource) :
    source.getAttribute ++ crlf = unlines (attributeLines source) := by
  cases source with
  | aac samplerate channels =>
    unfold SdpSource.getAttribute attributeLines
    dsimp only
    cases aacSampleRate.findIdx? (· = samplerate.toNat) with
    | none => rfl
    | some index => simp [unlines, List.append_assoc]
  | _ => simp [SdpSource.getAttribute, attributeLines, unlines]

/-- **A round of the loop appends the lines of the channel's source**, as far as they fit. -/
theorem appendMedia_eq (s : SdpSession) (a : Bytes) (chn : MediaChannelId) :
    s.appendMedia (a.take (sdpSize - 1)) chn =
      (a ++ unlines (((s.source chn).map fun source => s.mediaLines (chn, source)).getD [])).take
        (sdpSize - 1) := by
  unfold appendMedia
  cases s.source chn with
  | none => simp
  | some source =>
    dsimp only [Option.map_some, Option.getD_some]
    unfold mediaLines mediaPort addressLine controlLine
    rw [attribute_unlines]
    cases s.isMulticast with
    | true =>
      simp only [if_true, appendText_take, unlines_cons, unlines_append, unlines_nil,
        List.append_assoc, List.append_nil]
    | false =>
      simp only [Bool.false_eq_true, if_false, appendText_take, unlines_cons, unlines_append,
        unlines_nil, List.append_assoc, List.append_nil, List.nil_append]

/-- The loop goes over the sources that are there. -/
theorem present_unlines (s : SdpSession) :
    unlines (((s.source .channel0).map fun source => s.mediaLines (.channel0, source)).getD []) ++
      unlines (((s.source .channel1).map fun source => s.mediaLines (.channel1, source)).getD []) =
      unlines (s.present.map s.mediaLines).flatten := by
  unfold present
  cases h₀ : s.source .channel0 <;> cases h₁ : s.source .channel1 <;>
    simp [List.filterMap, h₀, h₁]

/-- **A fresh description is its lines**, cut after 2047 bytes. -/
theorem getSdpMessage_fresh {s : SdpSession} (h : s.sdp = []) (now : Nat) (ip sessionName : Bytes) :
    s.getSdpMessage now ip sessionName =
      let text := (unlines (s.sdpLines now ip sessionName)).take (sdpSize - 1)
      (text, { s with sdp := text }) := by
  have hhead : ascii "v=0\r\no=- 9" ++ decimal now ++ ascii " 1 IN IP4 " ++ cstr ip ++
      ascii "\r\nt=0 0\r\na=control:*\r\n" =
      unlines [ascii "v=0", ascii "o=- 9" ++ decimal now ++ ascii " 1 IN IP4 " ++ cstr ip,
        ascii "t=0 0", ascii "a=control:*"] := by
    have h₁ : ascii "v=0\r\no=- 9" = ascii "v=0" ++ crlf ++ ascii "o=- 9" := by decide
    have h₂ : ascii "\r\nt=0 0\r\na=control:*\r\n" =
        crlf ++ ascii "t=0 0" ++ crlf ++ ascii "a=control:*" ++ crlf := by decide
    rw [h₁, h₂]
    simp only [unlines_cons, unlines_nil, List.append_assoc, List.append_nil]
  have hmulti : ascii "a=type:broadcast\r\na=rtcp-unicast: reflection\r\n" =
      unlines [ascii "a=type:broadcast", ascii "a=rtcp-unicast: reflection"] := by decide
  have hstart : ∀ b, appendText [] b = b.take (sdpSize - 1) := fun b => appendText_take [] b
  have hcond : ∀ (c : Prop) [Decidable c] (a : Bytes) (ls : List Bytes),
      (if c then appendText (a.take (sdpSize - 1)) (unlines ls) else a.take (sdpSize - 1)) =
        (a ++ unlines (if c then ls else [])).take (sdpSize - 1) := by
    intro c _ a ls
    split
    · exact appendText_take a _
    · simp
  have hname : ascii "s=" ++ cstr sessionName ++ crlf = unlines [ascii "s=" ++ cstr sessionName] := by
    simp [unlines]
  have htext : s.getSdpMessage now ip sessionName =
      ((unlines (s.sdpLines now ip sessionName)).take (sdpSize - 1),
        { s with sdp := (unlines (s.sdpLines now ip sessionName)).take (sdpSize - 1) }) := by
    unfold getSdpMessage
    rw [if_neg (fun hne => hne h), hhead, hmulti, hname]
    dsimp only
    rw [hstart, hcond, hcond, appendMedia_eq, appendMedia_eq]
    have hlines : ∀ a b c d : Bytes,
        a ++ b ++ c ++ (unlines (((s.source .channel0).map fun source =>
          s.mediaLines (.channel0, source)).getD [])) ++ (unlines (((s.source .channel1).map
          fun source => s.mediaLines (.channel1, source)).getD [])) =
        a ++ b ++ c ++ unlines (s.present.map s.mediaLines).flatten := by
      intro a b c d
      rw [List.append_assoc _ (unlines _) (unlines _), present_unlines]
    rw [hlines _ _ _ []]
    simp only [sdpLines, headLines, unlines_append]
  exact htext

end SdpSession

end Maixii.Xop
