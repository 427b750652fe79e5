import Maixii.Muxer.Mpeg2tsMuxer

/-!
# `Muxer/Adts.lean`: the header of an AAC frame

A transport stream carries AAC as ADTS frames, each with seven bytes before it that say how the
frame is to be decoded. `readAdts` takes such a frame apart the way a decoder does: it looks for the
syncword, needs layer zero and no checksum, looks the sampling frequency up, and wants the length in
the header to be the length there is. It knows nothing of `ts_write_packet`.

* `readAdts_adtsHeader`: what `ts_write_packet` puts before the data is read back as AAC-LC with the
  sample rate and the channels the stream was declared with, up to the thirteen bits of the length;
* `readAdts_short`: a frame of less than 1024 bytes says that it is one block. From there on the
  source counts a block for every 1024 bytes, although its comment says one.
-/

set_option autoImplicit false

namespace Maixii.Muxer

/-- The sampling frequencies, in the order of their index. -/
def samplingFrequencies : List Nat :=
  [96000, 88200, 64000, 48000, 44100, 32000, 24000, 22050, 16000, 12000, 11025, 8000, 7350]

/-- A frame as its header tells of it. -/
structure AdtsFrame where
  /-- `1` is LC. -/
  profile : Nat
  samplingFrequency : Nat
  channels : Nat
  /-- The raw data blocks in the frame. -/
  blocks : Nat
  data : Bytes
  deriving DecidableEq

/-- A frame without checksum. -/
def readAdts : Bytes → Option AdtsFrame
  | b₀ :: b₁ :: b₂ :: b₃ :: b₄ :: b₅ :: b₆ :: data =>
      let syncword := b₀.toNat * 16 + b₁.toNat / 16
      let layer := b₁.toNat / 2 % 4
      let length := b₃.toNat % 4 * 2048 + b₄.toNat * 8 + b₅.toNat / 32
      if syncword = 0xfff ∧ layer = 0 ∧ b₁.toNat % 2 = 1 ∧ length = 7 + data.length then
        (samplingFrequencies[b₂.toNat / 4 % 16]?).map fun frequency =>
          ⟨b₂.toNat / 64, frequency, b₂.toNat % 2 * 4 + b₃.toNat / 64, b₆.toNat % 4 + 1, data⟩
      else none
  | _ => none

namespace Mpeg2tsMuxer

/-- What an ADTS header has a place for: one of the frequencies, and three bits of channels. -/
def Announced (st : AVStream) : Prop :=
  st.sampleRate ∈ samplingFrequencies ∧ st.channels < 8

instance (st : AVStream) : Decidable (Announced st) := inferInstanceAs (Decidable (_ ∧ _))

/-- The byte with the profile, the index of the frequency and the first bit of the channels. -/
theorem adts_byte2 (i : Fin 16) (c : Fin 2) :
    (UInt8.ofNat (1 * 64 ||| i.val * 4 ||| c.val)).toNat = 64 + i.val * 4 + c.val := by
  revert i c
  decide +kernel

/-- The one with the other bits of the channels and the first two of the length. -/
theorem adts_byte3 (c l : Fin 4) :
    (UInt8.ofNat (c.val * 64 ||| l.val)).toNat = c.val * 64 + l.val := by
  revert c l
  decide +kernel

/-- The one with the last bits of the length. -/
theorem adts_byte5 (l : Fin 8) : (UInt8.ofNat (l.val * 32 ||| 0x1F)).toNat = l.val * 32 + 31 := by
  revert l
  decide +kernel

/-- The one with the blocks. -/
theorem adts_byte6 (n : Fin 4) : (UInt8.ofNat (0xFC ||| n.val)).toNat = 252 + n.val := by
  revert n
  decide +kernel

/-- **The header is read back**: whatever the data is, a decoder finds it behind the header, with
the stream's sample rate and channels. The number of blocks is the one the source computes, which is
right for short frames only. -/
theorem readAdts_adtsHeader {st : AVStream} (h : Announced st) {data : Bytes}
    (hlen : data.length + 7 < 2 ^ 13) :
    readAdts (adtsHeader st (data.length + 7) ++ data) =
      some ⟨1, st.sampleRate, st.channels, (data.length + 7) / 1024 % 4 + 1, data⟩ := by
  obtain ⟨hrate, hchannels⟩ := h
  have hidx : audioSampleRate.idxOf st.sampleRate < 13 := List.idxOf_lt_length_of_mem hrate
  have hfrequency : samplingFrequencies[audioSampleRate.idxOf st.sampleRate]? =
      some st.sampleRate := List.getElem?_idxOf hrate
  generalize hn : data.length + 7 = n at hlen ⊢
  have h2 := adts_byte2 ⟨audioSampleRate.idxOf st.sampleRate, by omega⟩
    ⟨st.channels % 8 / 4, by omega⟩
  have h3 := adts_byte3 ⟨st.channels % 4, by omega⟩ ⟨n % 0x2000 / 0x800, by omega⟩
  have h4 : (UInt8.ofNat (n % 0x2000 / 8)).toNat = n % 0x2000 / 8 % 256 := UInt8.toNat_ofNat'
  have h5 := adts_byte5 ⟨n % 8, by omega⟩
  have h6 := adts_byte6 ⟨n / 1024 % 4, by omega⟩
  dsimp only at h2 h3 h5 h6
  have hindex : (64 + audioSampleRate.idxOf st.sampleRate * 4 + st.channels % 8 / 4) / 4 % 16 =
      audioSampleRate.idxOf st.sampleRate := by omega
  unfold adtsHeader
  simp only [List.cons_append, List.nil_append]
  unfold readAdts
  dsimp only
  rw [h2, h3, h4, h5, h6, if_pos ⟨by decide, by decide, by decide, by omega⟩, hindex, hfrequency,
    Option.map_some]
  have hprofile :
      (64 + audioSampleRate.idxOf st.sampleRate * 4 + st.channels % 8 / 4) / 64 = 1 := by omega
  have hchannel : (64 + audioSampleRate.idxOf st.sampleRate * 4 + st.channels % 8 / 4) % 2 * 4 +
      (st.channels % 4 * 64 + n % 0x2000 / 0x800) / 64 = st.channels := by omega
  have hblocks : (252 + n / 1024 % 4) % 4 + 1 = n / 1024 % 4 + 1 := by omega
  rw [hprofile, hchannel, hblocks]

/-- **A short frame** is one block. -/
theorem readAdts_short {st : AVStream} (h : Announced st) {data : Bytes}
    (hlen : data.length + 7 < 1024) :
    readAdts (adtsHeader st (data.length + 7) ++ data) =
      some ⟨1, st.sampleRate, st.channels, 1, data⟩ := by
  rw [readAdts_adtsHeader h (by omega), Nat.div_eq_of_lt hlen]

end Mpeg2tsMuxer

end Maixii.Muxer
