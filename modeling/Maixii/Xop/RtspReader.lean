import Maixii.Xop.RtspMessage

/-!
# `Xop/RtspReader.lean`: what a read does before a handler runs

`RtspConnection::OnRead`, `HandleRtspRequest` and `HandleRtcp`, up to the call of the command
handler. Handlers touch neither the receive buffer nor the request, so this half of the
connection is a machine of its own: `onRead` takes both, and returns both with the request the
handler is called with, if one is. The bytes that left the buffer are returned as well, by what
took them.
-/

set_option autoImplicit false

namespace Maixii.Xop

open Maixii.Lib Maixii.Net

/-- `MAX_RTSP_MESSAGE_SIZE`. -/
def maxRtspMessageSize : Nat := 2048

/-- The request parser and its buffer. -/
structure RtspReader where
  request : RtspRequest
  buffer : BufferReader

/-- What `OnRead` did. -/
structure ReadOutcome where
  /-- Its return value; the connection is closed on `false`. -/
  ok : Bool
  /-- The request whose handler was called, as the handler saw it. -/
  command : Option RtspRequest
  /-- Bytes parsed as an RTSP message, consumed as RTCP, and thrown away. -/
  parsed : Bytes
  rtcp : Bytes
  discarded : Bytes
  reader : RtspReader

/-- The bytes that were in the first buffer and are no longer in the second. -/
def BufferReader.taken (b b' : BufferReader) : Bytes :=
  b.readable.take (b.readable.length - b'.readable.length)

/-- `peek[2]<<8 | peek[3]` as a `uint32_t`: where `char` is signed, a byte from 128 on fills
all the higher bits. -/
def rtcpSize (charSigned : Bool) (hi lo : UInt8) : Nat :=
  if charSigned && 128 ≤ lo then 2 ^ 32 - 256 + lo.toNat
  else if charSigned && 128 ≤ hi then 2 ^ 32 - 2 ^ 16 + hi.toNat * 256 + lo.toNat
  else hi.toNat * 256 + lo.toNat

/-- `HandleRtcp(BufferReader&)`. -/
def handleRtcp (charSigned : Bool) (b : BufferReader) : BufferReader :=
  match b.readable with
  | 36 :: _ :: hi :: lo :: _ :: _ =>
      let len := (rtcpSize charSigned hi lo + 4) % 2 ^ 32
      if b.readableBytes ≤ len then b.retrieve len else b
  | _ => b

/-- `HandleRtspRequest` without its `switch`. -/
def handleRtspRequest (charSigned : Bool) (x : RtspReader) : Option ReadOutcome :=
  (x.request.parseRequest x.buffer).map fun (ret, r, b) =>
    let parsed := BufferReader.taken x.buffer b
    if ret then
      if r.method = .rtcp then
        let b' := handleRtcp charSigned b
        ⟨true, none, parsed, BufferReader.taken b b', [], ⟨r, b'⟩⟩
      else if !r.gotAll then ⟨true, none, parsed, [], [], ⟨r, b⟩⟩
      else ⟨true, if r.method = .none then none else some r, parsed, [], [], ⟨r.reset, b⟩⟩
    else ⟨false, none, parsed, [], [], ⟨r, b⟩⟩

/-- `OnRead`, with the connection in its `RTSP_SERVER` mode. -/
def onRead (charSigned : Bool) (x : RtspReader) : Option ReadOutcome :=
  if x.buffer.readableBytes = 0 then some ⟨false, none, [], [], [], x⟩
  else
    (handleRtspRequest charSigned x).map fun o =>
      if o.ok && maxRtspMessageSize < o.reader.buffer.readableBytes then
        { o with
          discarded := o.reader.buffer.readable
          reader := ⟨o.reader.request, o.reader.buffer.retrieveAll⟩ }
      else o

end Maixii.Xop
