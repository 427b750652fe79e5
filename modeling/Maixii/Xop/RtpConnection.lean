import Mathlib.Logic.Function.Basic
import Maixii.Xop.RtspMessage

/-!
# `Xop/RtpConnection.lean`: the RTP half of a connection

`xop/RtpConnection.{h,cpp}` and `xop/rtp.h`. A connection has two channels, each with its own
descriptors, addresses and RTP header, and one `transport_mode_` for both. The three `Setup`
functions fill a channel in, `Play` and `Teardown` open and shut it, and the closure that
`SendRtpPacket` queues writes the header into the packet's buffer and hands the packet to the
transport.

Descriptors are numbers the kernel chose (`Attempt`), and what is opened and closed on the way
is reported in order (`FdOp`).
-/

set_option autoImplicit false

namespace Maixii.Xop

open Maixii.Lib

/-! ## Numbers on the wire -/

/-- Network byte order. -/
def be16 (n : UInt16) : Bytes := [UInt8.ofNat (n.toNat / 256), UInt8.ofNat n.toNat]

def be32 (n : UInt32) : Bytes :=
  [UInt8.ofNat (n.toNat / 2 ^ 24), UInt8.ofNat (n.toNat / 2 ^ 16), UInt8.ofNat (n.toNat / 2 ^ 8),
    UInt8.ofNat n.toNat]

def fromBE (bs : Bytes) : Nat := bs.foldl (fun n b => n * 256 + b.toNat) 0

theorem fromBE_be16 (n : UInt16) : fromBE (be16 n) = n.toNat := by
  have h : n.toNat < 2 ^ 16 := n.toNat_lt
  simp only [fromBE, be16, List.foldl_cons, List.foldl_nil, UInt8.toNat_ofNat']
  omega

/-- The flags are `Fin 2`. -/
instance instNeZeroTwo : NeZero 2 := ⟨by decide⟩

/-- `RtpHeader`, whose `seq`, `ts` and `ssrc` are stored in network order. -/
structure RtpHeader where
  csrc : Fin 16
  extension : Fin 2
  padding : Fin 2
  version : Fin 4
  payload : Fin 128
  marker : Fin 2
  seq : UInt16
  ts : UInt32
  ssrc : UInt32
  deriving DecidableEq, Repr

/-- The twelve bytes of the structure in memory, little-endian bit fields. -/
def RtpHeader.toBytes (h : RtpHeader) : Bytes :=
  [UInt8.ofNat (h.csrc + 16 * h.extension + 32 * h.padding + 64 * h.version),
    UInt8.ofNat (h.payload + 128 * h.marker)] ++ be16 h.seq ++ be32 h.ts ++ be32 h.ssrc

/-- `RTP_HEADER_SIZE` and `RTP_TCP_HEAD_SIZE`. -/
def rtpHeaderSize : Nat := 12

def rtpTcpHeadSize : Nat := 4

theorem RtpHeader.length_toBytes (h : RtpHeader) : h.toBytes.length = rtpHeaderSize := rfl

/-! ## Packets -/

/-- The size of the array every `RtpPacket` owns. -/
def packetCapacity : Nat := 1600

/-- `RtpPacket` without its buffer. The sources always fill in the RTP and the interleaving
header, stay inside the array and set `last` to 0 or 1. -/
structure RtpPacket where
  size : Nat
  timestamp : UInt32
  type : UInt8
  last : Fin 2
  size_ge : rtpTcpHeadSize + rtpHeaderSize ≤ size
  size_le : size ≤ packetCapacity
  deriving DecidableEq, Repr

/-- `memcpy(mem + off, bs, bs.length)`. -/
def writeAt (mem : Bytes) (off : Nat) (bs : Bytes) : Bytes :=
  mem.take off ++ bs ++ mem.drop (off + bs.length)

/-- A packet's array. -/
structure PacketData where
  bytes : Bytes
  length_eq : bytes.length = packetCapacity

theorem length_writeAt {mem bs : Bytes} {off : Nat} (h : off + bs.length ≤ mem.length) :
    (writeAt mem off bs).length = mem.length := by
  simp only [writeAt, List.length_append, List.length_take, List.length_drop]
  omega

/-- From where it was written to position `n`, a memory reads as what was written and then as
before. -/
theorem take_drop_writeAt {mem bs : Bytes} {off n : Nat} (hoff : off ≤ mem.length)
    (h : off + bs.length ≤ n) :
    ((writeAt mem off bs).take n).drop off = bs ++ (mem.take n).drop (off + bs.length) := by
  have hlen : (mem.take off).length = off := by
    rw [List.length_take]
    omega
  rw [writeAt, List.append_assoc, List.drop_take, List.drop_append_of_le_length (by omega),
    List.drop_of_length_le (by omega), List.nil_append, List.take_append,
    List.take_of_length_le (by omega), List.drop_take]
  congr 2
  omega

/-- Behind what was written nothing has changed. -/
theorem drop_writeAt {mem bs : Bytes} {off n : Nat} (h : off + bs.length ≤ n)
    (hm : off + bs.length ≤ mem.length) : (writeAt mem off bs).drop n = mem.drop n := by
  have hlen : (mem.take off).length = off := by
    rw [List.length_take]
    omega
  rw [writeAt, List.drop_append, List.drop_of_length_le (by rw [List.length_append]; omega),
    List.nil_append, List.drop_drop, List.length_append, hlen]
  congr 1
  omega

def PacketData.write (d : PacketData) (off : Nat) (bs : Bytes)
    (h : off + bs.length ≤ packetCapacity) : PacketData :=
  ⟨writeAt d.bytes off bs, by rw [length_writeAt (by rw [d.length_eq]; exact h), d.length_eq]⟩

/-! ## The connection -/

/-- `MediaChannelInfo`. -/
structure MediaChannelInfo where
  rtpHeader : RtpHeader
  rtpChannel : Nat
  rtcpChannel : Nat
  rtpPort : Nat
  rtcpPort : Nat
  packetSeq : UInt16
  clockRate : Nat
  isSetup : Bool
  isPlay : Bool
  isRecord : Bool
  deriving DecidableEq, Repr

/-- `sockaddr_in`: the address and `ntohs(sin_port)`. -/
structure SockAddr where
  addr : Bytes
  port : Nat
  deriving DecidableEq, Repr

structure RtpConnection where
  transportMode : TransportMode
  isMulticast : Bool
  isClosed : Bool
  hasKeyFrame : Bool
  frameType : UInt8
  /-- `(uint32_t)(size_t)this`. -/
  rtpSessionId : Nat
  localRtpPort : MediaChannelId → Nat
  localRtcpPort : MediaChannelId → Nat
  rtpfd : MediaChannelId → Int
  rtcpfd : MediaChannelId → Int
  peerRtpAddr : MediaChannelId → SockAddr
  peerRtcpAddr : MediaChannelId → SockAddr
  mediaChannelInfo : MediaChannelId → MediaChannelInfo

/-- What the constructor draws at random, and where the object lies. -/
structure RtpSeed where
  rtpSessionId : Nat
  transportMode : TransportMode
  packetSeq : MediaChannelId → UInt16
  ts : MediaChannelId → UInt32
  ssrc : MediaChannelId → UInt32

/-- Opening and closing descriptors, in order. -/
inductive FdOp
  | opened (fd : Int)
  | closed (fd : Int)
  deriving DecidableEq, Repr

/-- One round of the loop that looks for a free pair of ports: the port drawn, and for each
socket its descriptor (negative when `socket` failed) and whether `bind` succeeded. -/
structure Attempt where
  port : Nat
  rtpFd : Int
  rtpBound : Bool
  rtcpFd : Int
  rtcpBound : Bool
  rtp_ok : rtpBound = true → 0 ≤ rtpFd
  rtcp_ok : rtcpBound = true → 0 ≤ rtcpFd
  deriving DecidableEq

/-- The ten rounds at most. -/
abbrev Attempts := { l : List Attempt // l.length = 10 }

/-- What the closure of `SendRtpPacket` gives to the transport. -/
inductive Transmission
  | tcp (bytes : Bytes)
  | udp (fd : Int) (peer : SockAddr) (bytes : Bytes)
  deriving DecidableEq, Repr

/-- Both channels, in the order of the source's loops. -/
def channels : List MediaChannelId := [.channel0, .channel1]

namespace RtpConnection

/-- `RtpConnection(std::weak_ptr<TcpConnection>)`. -/
def new (seed : RtpSeed) : RtpConnection where
  transportMode := seed.transportMode
  isMulticast := false
  isClosed := false
  hasKeyFrame := false
  frameType := 0
  rtpSessionId := seed.rtpSessionId
  localRtpPort := fun _ => 0
  localRtcpPort := fun _ => 0
  rtpfd := fun _ => 0
  rtcpfd := fun _ => 0
  peerRtpAddr := fun _ => ⟨[], 0⟩
  peerRtcpAddr := fun _ => ⟨[], 0⟩
  mediaChannelInfo := fun chn =>
    { rtpHeader := ⟨0, 0, 0, 2, 0, 0, 0, seed.ts chn, seed.ssrc chn⟩
      rtpChannel := 0, rtcpChannel := 0, rtpPort := 0, rtcpPort := 0
      packetSeq := seed.packetSeq chn, clockRate := 0
      isSetup := false, isPlay := false, isRecord := false }

/-- Assigning to members of `media_channel_info_[channel_id]`. -/
def updateInfo (c : RtpConnection) (chn : MediaChannelId)
    (f : MediaChannelInfo → MediaChannelInfo) : RtpConnection :=
  { c with mediaChannelInfo := Function.update c.mediaChannelInfo chn (f (c.mediaChannelInfo chn)) }

def setClockRate (c : RtpConnection) (chn : MediaChannelId) (clockRate : Nat) : RtpConnection :=
  c.updateInfo chn fun i => { i with clockRate := clockRate }

/-- The field has seven bits. -/
def setPayloadType (c : RtpConnection) (chn : MediaChannelId) (payload : Nat) : RtpConnection :=
  c.updateInfo chn fun i =>
    { i with rtpHeader := { i.rtpHeader with payload := Fin.ofNat 128 payload } }

/-- `SetupRtpOverTcp`: the channel borrows the connection's own descriptor. -/
def setupRtpOverTcp (c : RtpConnection) (sockfd : Int) (chn : MediaChannelId)
    (rtpChannel rtcpChannel : Nat) : RtpConnection :=
  { c.updateInfo chn fun i =>
      { i with rtpChannel := rtpChannel, rtcpChannel := rtcpChannel, isSetup := true } with
    rtpfd := Function.update c.rtpfd chn sockfd
    rtcpfd := Function.update c.rtcpfd chn sockfd
    transportMode := .rtpOverTcp }

/-- The loop of `SetupRtpOverUdp`. What a failed round assigned stays assigned. -/
def bindPair (chn : MediaChannelId) :
    List Attempt → RtpConnection → Bool × RtpConnection × List FdOp
  | [], c => (false, c, [])
  | a :: as, c =>
      let c := { c with
        localRtpPort := Function.update c.localRtpPort chn a.port
        localRtcpPort := Function.update c.localRtcpPort chn ((a.port + 1) % 2 ^ 16)
        rtpfd := Function.update c.rtpfd chn a.rtpFd }
      if !a.rtpBound then
        let (ok, c, ops) := bindPair chn as c
        (ok, c, [.opened a.rtpFd, .closed a.rtpFd] ++ ops)
      else
        let c := { c with rtcpfd := Function.update c.rtcpfd chn a.rtcpFd }
        if !a.rtcpBound then
          let (ok, c, ops) := bindPair chn as c
          (ok, c, [.opened a.rtpFd, .opened a.rtcpFd, .closed a.rtpFd, .closed a.rtcpFd] ++ ops)
        else (true, c, [.opened a.rtpFd, .opened a.rtcpFd])

/-- `SetupRtpOverUdp`; `peer` is the address `GetPeerAddr` found. -/
def setupRtpOverUdp (c : RtpConnection) (peer : Option Bytes) (attempts : Attempts)
    (chn : MediaChannelId) (rtpPort rtcpPort : Nat) : Bool × RtpConnection × List FdOp :=
  match peer with
  | none => (false, c, [])
  | some addr =>
      let c := c.updateInfo chn fun i => { i with rtpPort := rtpPort, rtcpPort := rtcpPort }
      match bindPair chn attempts.1 c with
      | (false, c, ops) => (false, c, ops)
      | (true, c, ops) =>
          (true,
            { c.updateInfo chn fun i => { i with isSetup := true } with
              peerRtpAddr := Function.update c.peerRtpAddr chn ⟨addr, rtpPort⟩
              peerRtcpAddr := Function.update c.peerRtcpAddr chn ⟨addr, rtcpPort⟩
              transportMode := .rtpOverUdp },
            ops)

/-- The loop of `SetupRtpOverMulticast`. -/
def bindOne (chn : MediaChannelId) :
    List Attempt → RtpConnection → Bool × RtpConnection × List FdOp
  | [], c => (false, c, [])
  | a :: as, c =>
      let c := { c with
        localRtpPort := Function.update c.localRtpPort chn a.port
        rtpfd := Function.update c.rtpfd chn a.rtpFd }
      if !a.rtpBound then
        let (ok, c, ops) := bindOne chn as c
        (ok, c, [.opened a.rtpFd, .closed a.rtpFd] ++ ops)
      else (true, c, [.opened a.rtpFd])

def setupRtpOverMulticast (c : RtpConnection) (attempts : Attempts) (chn : MediaChannelId)
    (ip : Bytes) (port : Nat) : Bool × RtpConnection × List FdOp :=
  match bindOne chn attempts.1 c with
  | (false, c, ops) => (false, c, ops)
  | (true, c, ops) =>
      (true,
        { c.updateInfo chn fun i => { i with rtpPort := port, isSetup := true } with
          peerRtpAddr := Function.update c.peerRtpAddr chn ⟨ip, port⟩
          transportMode := .rtpOverMulticast
          isMulticast := true },
        ops)

/-! ### What a SETUP leaves alone -/

/-- `c'` differs from `c` in the local ports and the descriptors of one channel at most. -/
structure SameBut (chn : MediaChannelId) (c c' : RtpConnection) : Prop where
  transportMode : c'.transportMode = c.transportMode
  isMulticast : c'.isMulticast = c.isMulticast
  isClosed : c'.isClosed = c.isClosed
  hasKeyFrame : c'.hasKeyFrame = c.hasKeyFrame
  peerRtpAddr : c'.peerRtpAddr = c.peerRtpAddr
  mediaChannelInfo : c'.mediaChannelInfo = c.mediaChannelInfo
  rtpfd : ∀ d, d ≠ chn → c'.rtpfd d = c.rtpfd d
  rtcpfd : ∀ d, d ≠ chn → c'.rtcpfd d = c.rtcpfd d

theorem SameBut.trans {chn : MediaChannelId} {c d e : RtpConnection} (h₁ : SameBut chn c d)
    (h₂ : SameBut chn d e) : SameBut chn c e :=
  ⟨h₂.1.trans h₁.1, h₂.2.trans h₁.2, h₂.3.trans h₁.3, h₂.4.trans h₁.4, h₂.5.trans h₁.5,
    h₂.6.trans h₁.6, fun x hx => (h₂.7 x hx).trans (h₁.7 x hx),
    fun x hx => (h₂.8 x hx).trans (h₁.8 x hx)⟩

/-- Giving one channel other ports and descriptors. -/
theorem SameBut.ports {chn : MediaChannelId} {c d e : RtpConnection} (h : SameBut chn d e)
    {p q f g : MediaChannelId → _} (hd : d = { c with
      localRtpPort := p, localRtcpPort := q, rtpfd := f, rtcpfd := g })
    (hf : ∀ x, x ≠ chn → f x = c.rtpfd x) (hg : ∀ x, x ≠ chn → g x = c.rtcpfd x) :
    SameBut chn c e := by
  have h₀ : SameBut chn c d := by
    rw [hd]
    exact ⟨rfl, rfl, rfl, rfl, rfl, rfl, hf, hg⟩
  exact h₀.trans h

theorem update_other {chn : MediaChannelId} (f : MediaChannelId → Int) (v : Int) :
    ∀ x, x ≠ chn → Function.update f chn v x = f x :=
  fun _ hx => Function.update_of_ne hx v f

theorem bindPair_same (chn : MediaChannelId) (as : List Attempt) (c : RtpConnection) :
    SameBut chn c (bindPair chn as c).2.1 := by
  induction as generalizing c with
  | nil => exact ⟨rfl, rfl, rfl, rfl, rfl, rfl, fun _ _ => rfl, fun _ _ => rfl⟩
  | cons a as ih =>
    cases hb : a.rtpBound with
    | false =>
      simp only [bindPair, hb, Bool.not_false, if_true]
      exact (ih _).ports rfl (update_other _ _) (fun _ _ => rfl)
    | true =>
      cases hb' : a.rtcpBound with
      | false =>
        simp only [bindPair, hb, hb', Bool.not_true, Bool.not_false, Bool.false_eq_true, if_false,
          if_true]
        exact (ih _).ports rfl (update_other _ _) (update_other _ _)
      | true =>
        simp only [bindPair, hb, hb', Bool.not_true, Bool.false_eq_true, if_false]
        exact ⟨rfl, rfl, rfl, rfl, rfl, rfl, update_other _ _, update_other _ _⟩

/-- The RTCP slot is only touched once an RTP port has been bound. -/
theorem bindPair_rtcpfd (chn : MediaChannelId) (as : List Attempt) (c : RtpConnection)
    (h : as.any Attempt.rtpBound = false) : (bindPair chn as c).2.1.rtcpfd = c.rtcpfd := by
  induction as generalizing c with
  | nil => rfl
  | cons a as ih =>
    simp only [List.any_cons, Bool.or_eq_false_iff] at h
    simp only [bindPair, h.1, Bool.not_false, if_true]
    exact ih _ h.2

theorem bindOne_same (chn : MediaChannelId) (as : List Attempt) (c : RtpConnection) :
    SameBut chn c (bindOne chn as c).2.1 ∧ (bindOne chn as c).2.1.rtcpfd = c.rtcpfd := by
  induction as generalizing c with
  | nil => exact ⟨⟨rfl, rfl, rfl, rfl, rfl, rfl, fun _ _ => rfl, fun _ _ => rfl⟩, rfl⟩
  | cons a as ih =>
    cases hb : a.rtpBound with
    | false =>
      simp only [bindOne, hb, Bool.not_false, if_true]
      exact ⟨(ih _).1.ports rfl (update_other _ _) (fun _ _ => rfl), (ih _).2⟩
    | true =>
      simp only [bindOne, hb, Bool.not_true, Bool.false_eq_true, if_false]
      exact ⟨⟨rfl, rfl, rfl, rfl, rfl, rfl, update_other _ _, fun _ _ => rfl⟩, trivial⟩

/-- What `SetupRtpOverUdp` does, by the outcome of its loop. -/
theorem setupRtpOverUdp_eq (c : RtpConnection) (addr : Bytes) (attempts : Attempts)
    (chn : MediaChannelId) (rtpPort rtcpPort : Nat) :
    let b := bindPair chn attempts.1
      (c.updateInfo chn fun i => { i with rtpPort := rtpPort, rtcpPort := rtcpPort })
    c.setupRtpOverUdp (some addr) attempts chn rtpPort rtcpPort =
      (b.1,
        if b.1 then
          { b.2.1.updateInfo chn fun i => { i with isSetup := true } with
            peerRtpAddr := Function.update b.2.1.peerRtpAddr chn ⟨addr, rtpPort⟩
            peerRtcpAddr := Function.update b.2.1.peerRtcpAddr chn ⟨addr, rtcpPort⟩
            transportMode := .rtpOverUdp }
        else b.2.1,
        b.2.2) := by
  intro b
  show (match b with
    | (false, c, ops) => (false, c, ops)
    | (true, c, ops) => _) = _
  rcases b with ⟨_ | _, d, ops⟩ <;> rfl

theorem setupRtpOverMulticast_eq (c : RtpConnection) (attempts : Attempts) (chn : MediaChannelId)
    (ip : Bytes) (port : Nat) :
    let b := bindOne chn attempts.1 c
    c.setupRtpOverMulticast attempts chn ip port =
      (b.1,
        if b.1 then
          { b.2.1.updateInfo chn fun i => { i with rtpPort := port, isSetup := true } with
            peerRtpAddr := Function.update b.2.1.peerRtpAddr chn ⟨ip, port⟩
            transportMode := .rtpOverMulticast
            isMulticast := true }
        else b.2.1,
        b.2.2) := by
  intro b
  show (match b with
    | (false, c, ops) => (false, c, ops)
    | (true, c, ops) => _) = _
  rcases b with ⟨_ | _, d, ops⟩ <;> rfl

def play (c : RtpConnection) : RtpConnection :=
  { c with mediaChannelInfo := fun chn =>
      let i := c.mediaChannelInfo chn
      if i.isSetup then { i with isPlay := true } else i }

def teardown (c : RtpConnection) : RtpConnection :=
  if c.isClosed then c
  else
    { c with
      isClosed := true
      mediaChannelInfo := fun chn =>
        { c.mediaChannelInfo chn with isPlay := false, isRecord := false } }

/-! ## Sending -/

/-- `VIDEO_FRAME_I`. -/
def videoFrameI : UInt8 := 1

def setFrameType (c : RtpConnection) (frameType : UInt8) : RtpConnection :=
  { c with
    frameType := frameType
    hasKeyFrame := c.hasKeyFrame || (frameType = 0 || frameType = videoFrameI) }

/-- The guard that `SetRtpHeader` and the closure both make. -/
def sends (c : RtpConnection) (chn : MediaChannelId) : Bool :=
  ((c.mediaChannelInfo chn).isPlay || (c.mediaChannelInfo chn).isRecord) && c.hasKeyFrame

/-- The header `SetRtpHeader` composes. -/
def nextHeader (i : MediaChannelInfo) (pkt : RtpPacket) : RtpHeader :=
  { i.rtpHeader with marker := pkt.last, ts := pkt.timestamp, seq := i.packetSeq }

def setRtpHeader (c : RtpConnection) (chn : MediaChannelId) (pkt : RtpPacket) (data : PacketData) :
    RtpConnection × PacketData :=
  if c.sends chn then
    let h := nextHeader (c.mediaChannelInfo chn) pkt
    (c.updateInfo chn fun i => { i with rtpHeader := h, packetSeq := i.packetSeq + 1 },
      data.write rtpTcpHeadSize h.toBytes (by rw [h.length_toBytes]; decide))
  else (c, data)

/-- The interleaving header: `$`, the channel and the length of what follows. -/
def interleavedHeader (rtpChannel size : Nat) : Bytes :=
  [36, UInt8.ofNat rtpChannel, UInt8.ofNat ((size - 4) / 256), UInt8.ofNat (size - 4)]

/-- The closure that `SendRtpPacket` queues, up to the call of `Send` or `sendto`. -/
def sendPacket (c : RtpConnection) (chn : MediaChannelId) (pkt : RtpPacket) (data : PacketData) :
    RtpConnection × PacketData × Option Transmission :=
  let (c, data) := (c.setFrameType pkt.type).setRtpHeader chn pkt data
  if c.sends chn then
    if c.transportMode = .rtpOverTcp then
      let data := data.write 0 (interleavedHeader (c.mediaChannelInfo chn).rtpChannel pkt.size)
        (by show 0 + 4 ≤ packetCapacity; decide)
      (c, data, some (.tcp (data.bytes.take pkt.size)))
    else
      (c, data, some (.udp (c.rtpfd chn) (c.peerRtpAddr chn)
        ((data.bytes.take pkt.size).drop rtpTcpHeadSize)))
  else (c, data, none)

/-- The packet with this header, as the peer sees it. -/
def rtpBytes (h : RtpHeader) (pkt : RtpPacket) (data : PacketData) : Bytes :=
  h.toBytes ++ (data.bytes.take pkt.size).drop (rtpTcpHeadSize + rtpHeaderSize)

theorem take_write_header {h : RtpHeader} {pkt : RtpPacket} {data : PacketData}
    (hw : rtpTcpHeadSize + h.toBytes.length ≤ packetCapacity) :
    ((data.write rtpTcpHeadSize h.toBytes hw).bytes.take pkt.size).drop rtpTcpHeadSize =
      rtpBytes h pkt data :=
  take_drop_writeAt (by rw [data.length_eq]; decide) pkt.size_ge

/-- **The closure of `SendRtpPacket`.** Nothing is sent, or the packet goes out under the
channel's next header, in a frame or as a datagram. -/
theorem sendPacket_cases (c : RtpConnection) (chn : MediaChannelId) (pkt : RtpPacket)
    (data : PacketData) :
    let f := c.setFrameType pkt.type
    let h := nextHeader (c.mediaChannelInfo chn) pkt
    let c' := f.updateInfo chn fun i => { i with rtpHeader := h, packetSeq := i.packetSeq + 1 }
    f.sends chn = false ∧ c.sendPacket chn pkt data = (f, data, none) ∨
    f.sends chn = true ∧ ∃ data' : PacketData,
      data'.bytes.drop (rtpTcpHeadSize + rtpHeaderSize) =
        data.bytes.drop (rtpTcpHeadSize + rtpHeaderSize) ∧
      (c.transportMode = .rtpOverTcp ∧ c.sendPacket chn pkt data = (c', data', some (.tcp
        (interleavedHeader (c.mediaChannelInfo chn).rtpChannel pkt.size ++
          rtpBytes h pkt data))) ∨
      c.transportMode ≠ .rtpOverTcp ∧ c.sendPacket chn pkt data = (c', data', some (.udp
        (c.rtpfd chn) (c.peerRtpAddr chn) (rtpBytes h pkt data)))) := by
  intro f h c'
  cases hs : f.sends chn with
  | false => exact Or.inl ⟨rfl, by simp [sendPacket, setRtpHeader, f, hs]⟩
  | true =>
    refine Or.inr ⟨rfl, ?_⟩
    have hs' : c'.sends chn = true := by
      simpa [sends, c', updateInfo] using hs
    have hset : (c.setFrameType pkt.type).setRtpHeader chn pkt data =
        (c', data.write rtpTcpHeadSize h.toBytes (by rw [h.length_toBytes]; decide)) := by
      unfold setRtpHeader
      rw [if_pos hs]
      rfl
    have hchn : (c'.mediaChannelInfo chn).rtpChannel = (c.mediaChannelInfo chn).rtpChannel := by
      simp [c', updateInfo, f, setFrameType]
    have hwrite : ∀ (d : PacketData) (off : Nat) (bs : Bytes) (hw : off + bs.length ≤ packetCapacity),
        off + bs.length ≤ rtpTcpHeadSize + rtpHeaderSize →
        (d.write off bs hw).bytes.drop (rtpTcpHeadSize + rtpHeaderSize) =
          d.bytes.drop (rtpTcpHeadSize + rtpHeaderSize) :=
      fun d off bs hw hle => drop_writeAt hle (by rw [d.length_eq]; exact hw)
    have hlen : rtpTcpHeadSize + h.toBytes.length = rtpTcpHeadSize + rtpHeaderSize := by
      rw [h.length_toBytes]
    by_cases ht : c.transportMode = .rtpOverTcp
    · have ht' : c'.transportMode = .rtpOverTcp := ht
      refine ⟨(data.write rtpTcpHeadSize h.toBytes (by rw [h.length_toBytes]; decide)).write 0
        (interleavedHeader (c.mediaChannelInfo chn).rtpChannel pkt.size)
        (by show 0 + 4 ≤ packetCapacity; decide), ?_, Or.inl ⟨ht, ?_⟩⟩
      · rw [hwrite _ _ _ _ (Nat.le_add_right 4 12), hwrite _ _ _ _ hlen.le]
      unfold sendPacket
      simp only [hset, hs', if_true, ht', hchn]
      refine congrArg _ (congrArg _ (congrArg _ (congrArg _ ?_)))
      rw [← take_write_header (by rw [h.length_toBytes]; decide)]
      exact take_drop_writeAt (Nat.zero_le _) (Nat.le_trans (Nat.le_add_right 4 12) pkt.size_ge)
    · have ht' : ¬ c'.transportMode = .rtpOverTcp := ht
      refine ⟨data.write rtpTcpHeadSize h.toBytes (by rw [h.length_toBytes]; decide),
        hwrite _ _ _ _ hlen.le, Or.inr ⟨ht, ?_⟩⟩
      unfold sendPacket
      simp only [hset, hs', if_true, ht', if_false, take_write_header]
      rfl

/-- Sending changes the header and the play state of the frame, not where packets go. -/
theorem sendPacket_same (c : RtpConnection) (chn : MediaChannelId) (pkt : RtpPacket)
    (data : PacketData) :
    let c' := (c.sendPacket chn pkt data).1
    c'.rtpfd = c.rtpfd ∧ c'.rtcpfd = c.rtcpfd ∧ c'.transportMode = c.transportMode ∧
      c'.peerRtpAddr = c.peerRtpAddr ∧ c'.isClosed = c.isClosed ∧
      ∀ d, (c'.mediaChannelInfo d).rtpChannel = (c.mediaChannelInfo d).rtpChannel ∧
        (c'.mediaChannelInfo d).isSetup = (c.mediaChannelInfo d).isSetup ∧
        (c'.mediaChannelInfo d).isPlay = (c.mediaChannelInfo d).isPlay ∧
        (c'.mediaChannelInfo d).isRecord = (c.mediaChannelInfo d).isRecord := by
  have hupd : ∀ d, ∃ h n, ((c.setFrameType pkt.type).updateInfo chn fun i =>
      { i with rtpHeader := nextHeader (c.mediaChannelInfo chn) pkt
               packetSeq := i.packetSeq + 1 }).mediaChannelInfo d =
        { c.mediaChannelInfo d with rtpHeader := h, packetSeq := n } := by
    intro d
    by_cases hd : d = chn
    · subst hd
      exact ⟨nextHeader (c.mediaChannelInfo d) pkt, (c.mediaChannelInfo d).packetSeq + 1,
        by simp [updateInfo, setFrameType]⟩
    · exact ⟨(c.mediaChannelInfo d).rtpHeader, (c.mediaChannelInfo d).packetSeq,
        by simp [updateInfo, setFrameType, hd]⟩
  rcases c.sendPacket_cases chn pkt data with ⟨-, h⟩ | ⟨-, data', -, ⟨-, h⟩ | ⟨-, h⟩⟩
  · rw [h]
    exact ⟨rfl, rfl, rfl, rfl, rfl, fun _ => ⟨rfl, rfl, rfl, rfl⟩⟩
  all_goals
    rw [h]
    refine ⟨rfl, rfl, rfl, rfl, rfl, fun d => ?_⟩
    obtain ⟨h', n, hd⟩ := hupd d
    simp only [hd, and_self]

/-- `~RtpConnection`. -/
def destroy (c : RtpConnection) : List FdOp :=
  channels.flatMap fun chn =>
    (if 0 < c.rtpfd chn then [.closed (c.rtpfd chn)] else []) ++
      (if 0 < c.rtcpfd chn then [.closed (c.rtcpfd chn)] else [])

end RtpConnection

end Maixii.Xop
