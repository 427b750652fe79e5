import Maixii.Lib.Machine
import Maixii.Lib.OutFile

/-!
# `TextEnc/TextEncApi.lean`: the text encoder

Text goes through two rings of ten slots: what is written waits to be encoded in the first, and an
encoded packet waits in the second to be requested, is held, and is released. Four numbers describe
the second ring, and each call changes some of them. `World` adds the one who requests: which buffers
he holds; and the past: which packets have been encoded, and which released.
-/

set_option autoImplicit false

namespace Maixii.TextEnc

open Maixii.Lib

/-! ## The encoder -/

/-- `TEXTENC_PACKET_CNT`. -/
def packetCnt : Nat := 10

/-- `sizeof(RMCINFO)`. -/
def sizeofRMCINFO : Nat := 144

/-- `TEXTENC_PACKET_SIZE`. -/
def packetSize : Nat := 0x10 + sizeofRMCINFO

/-- `TextPacket_t`, as far as it is encoded. -/
structure TextPacket where
  gps_data : Bytes
  pts : Int
  deriving DecidableEq

/-- `EncPacket_t`. -/
structure EncPacket where
  out_data : Bytes
  buf_id : Nat
  pts : Int
  deriving DecidableEq

/-- `InFrameManager_t`. -/
structure InFrameManager where
  in_pkt : Nat → TextPacket
  write_id : Nat
  read_id : Nat
  buf_used : Nat

/-- `OutFrameManager_t`. -/
structure OutFrameManager where
  out_pkt : Nat → EncPacket
  write_id : Nat
  read_id : Nat
  buf_used : Nat
  prefetch_cnt : Nat

/-- `TextEncDataManager`. -/
structure TextEncDataManager where
  enc_type_enable_flag : UInt32
  in_buf_mgr : InFrameManager
  base_pts : Int
  pts : Int
  out_buf_mgr : OutFrameManager

/-- `TextEncInit`: all is zero but the flags. -/
def textEncInit (enc_type_enable_flag : UInt32) : TextEncDataManager where
  enc_type_enable_flag := enc_type_enable_flag
  in_buf_mgr :=
    { in_pkt := fun _ => ⟨List.replicate sizeofRMCINFO 0, 0⟩
      write_id := 0
      read_id := 0
      buf_used := 0 }
  base_pts := 0
  pts := 0
  out_buf_mgr :=
    { out_pkt := fun _ => ⟨List.replicate packetSize 0, 0, 0⟩
      write_id := 0
      read_id := 0
      buf_used := 0
      prefetch_cnt := 0 }

/-- One slot of a ring is set. -/
def setSlot {α : Type} (slots : Nat → α) (i : Nat) (a : α) : Nat → α :=
  fun j => if j = i then a else slots j

namespace TextEncDataManager

/-- `RequestWriteBuf`. What is at `pInBuf` is taken whole, whatever `size` is; without it the slot is
left as it was, and counted all the same. -/
def requestWriteBuf (m : TextEncDataManager) (pInBuf : Option Bytes) (size : Int) :
    Int × TextEncDataManager :=
  let i := m.in_buf_mgr
  if packetCnt ≤ i.buf_used then (-1, m)
  else
    let in_pkt :=
      match pInBuf with
      | some buf =>
          if 0 < size then setSlot i.in_pkt i.write_id ⟨buf.take sizeofRMCINFO, 0⟩ else i.in_pkt
      | none => i.in_pkt
    (0, { m with in_buf_mgr := { i with
      in_pkt := in_pkt
      buf_used := i.buf_used + 1
      write_id := (i.write_id + 1) % packetCnt } })

/-- `FillOneFrame`, into a packet of zeros. -/
def fillOneFrame (m : TextEncDataManager) : Bytes × TextEncDataManager :=
  let i := m.in_buf_mgr
  let pkt := i.in_pkt i.read_id
  let base_pts := if m.base_pts = 0 then pkt.pts else m.base_pts
  let dst := List.replicate packetSize 0
  (if m.enc_type_enable_flag &&& 1 = 1 then patch dst 0 pkt.gps_data else dst,
    { m with
      base_pts := base_pts
      pts := pkt.pts - base_pts
      in_buf_mgr := { i with
        buf_used := i.buf_used - 1
        read_id := (i.read_id + 1) % packetCnt } })

/-- `TextEncodePro`. -/
def textEncodePro (m : TextEncDataManager) : Int × TextEncDataManager :=
  if m.in_buf_mgr.buf_used = 0 then (2, m)
  else if packetCnt ≤ m.out_buf_mgr.buf_used then (3, m)
  else
    let wid := m.out_buf_mgr.write_id
    let (out_data, m) := m.fillOneFrame
    let o := m.out_buf_mgr
    (0, { m with out_buf_mgr := { o with
      out_pkt := setSlot o.out_pkt wid ⟨out_data, wid, m.pts⟩
      write_id := (o.write_id + 1) % packetCnt
      buf_used := o.buf_used + 1
      prefetch_cnt := o.prefetch_cnt + 1 } })

end TextEncDataManager

/-- What `RequestTextEncBuf` gives out, a slot for the pointer; and what is in the buffer then. -/
structure Held where
  outbuf : Nat
  outSize : Nat
  timeStamp : Int
  bufId : Nat
  packet : EncPacket
  deriving DecidableEq

namespace TextEncDataManager

/-- `RequestTextEncBuf`. -/
def requestTextEncBuf (m : TextEncDataManager) : Option Held × TextEncDataManager :=
  let o := m.out_buf_mgr
  if o.prefetch_cnt = 0 then (none, m)
  else
    let rid := o.read_id
    (some ⟨rid, sizeofRMCINFO, (o.out_pkt rid).pts, (o.out_pkt rid).buf_id, o.out_pkt rid⟩,
      { m with out_buf_mgr := { o with
        read_id := (rid + 1) % packetCnt
        prefetch_cnt := o.prefetch_cnt - 1 } })

/-- `ReturnTextEncBuf`. -/
def returnTextEncBuf (m : TextEncDataManager) (timeStamp : Int) (nBufId : Nat) :
    Int × TextEncDataManager :=
  let o := m.out_buf_mgr
  let rid := (o.read_id + packetCnt - 1) % packetCnt
  if nBufId ≠ (o.out_pkt rid).buf_id ∨ timeStamp ≠ (o.out_pkt rid).pts then (-1, m)
  else (0, { m with out_buf_mgr := { o with read_id := rid } })

/-- `ReleaseTextEncBuf`. What does not match is logged only. -/
def releaseTextEncBuf (m : TextEncDataManager) : Int × TextEncDataManager :=
  let o := m.out_buf_mgr
  if o.buf_used = 0 then (-1, m)
  else (0, { m with out_buf_mgr := { o with buf_used := o.buf_used - 1 } })

end TextEncDataManager

/-! ## The world around it -/

/-- The encoder, who holds what, and the past. -/
structure World where
  mgr : TextEncDataManager
  held : List Held
  encoded : List EncPacket
  released : List EncPacket

inductive TextCall
  | requestWriteBuf (pInBuf : Option Bytes) (size : Int)
  | textEncodePro
  | requestTextEncBuf
  | returnTextEncBuf
  | releaseTextEncBuf
  deriving DecidableEq

namespace World

def init (enc_type_enable_flag : UInt32) : World := ⟨textEncInit enc_type_enable_flag, [], [], []⟩

/-- A call. The buffer that is returned is the one obtained last, the one that is released the one
held longest; where none is held there is no call. -/
def call (w : World) : TextCall → Int × World
  | .requestWriteBuf pInBuf size =>
      let (ret, m) := w.mgr.requestWriteBuf pInBuf size
      (ret, { w with mgr := m })
  | .textEncodePro =>
      let (ret, m) := w.mgr.textEncodePro
      if ret = 0 then
        (ret, { w with
          mgr := m
          encoded := w.encoded ++ [m.out_buf_mgr.out_pkt w.mgr.out_buf_mgr.write_id] })
      else (ret, { w with mgr := m })
  | .requestTextEncBuf =>
      match w.mgr.requestTextEncBuf with
      | (some h, m) => (0, { w with mgr := m, held := w.held ++ [h] })
      | (none, m) => (-1, { w with mgr := m })
  | .returnTextEncBuf =>
      match w.held.getLast? with
      | none => (-1, w)
      | some h =>
          let (ret, m) := w.mgr.returnTextEncBuf h.timeStamp h.bufId
          (ret, { w with mgr := m, held := if ret = 0 then w.held.dropLast else w.held })
  | .releaseTextEncBuf =>
      match w.held with
      | [] => (-1, w)
      | h :: held =>
          let (ret, m) := w.mgr.releaseTextEncBuf
          if ret = 0 then
            (ret, { w with
              mgr := m
              held := held
              released := w.released ++ [w.mgr.out_buf_mgr.out_pkt h.outbuf] })
          else (ret, { w with mgr := m })

/-- What is encoded and waits to be requested. -/
def waiting (w : World) : List EncPacket :=
  (List.range w.mgr.out_buf_mgr.prefetch_cnt).map fun i =>
    w.mgr.out_buf_mgr.out_pkt ((w.mgr.out_buf_mgr.read_id + i) % packetCnt)

/-- All that waits is requested, and all that is held is released. -/
def drain (w : World) : List TextCall :=
  List.replicate w.mgr.out_buf_mgr.prefetch_cnt .requestTextEncBuf ++
    List.replicate (w.held.length + w.mgr.out_buf_mgr.prefetch_cnt) .releaseTextEncBuf

/-- **One queue of three zones**: what was released, what is held, and what waits are all that has
been encoded, in that order; the numbers say how many, and where the next goes; it goes into none of
the slots that are held or waited in; and all is released in the end. -/
structure Queue (w : World) : Prop where
  used : w.mgr.out_buf_mgr.buf_used = w.mgr.out_buf_mgr.prefetch_cnt + w.held.length
  ids : (w.mgr.out_buf_mgr.read_id + w.mgr.out_buf_mgr.prefetch_cnt) % packetCnt =
    w.mgr.out_buf_mgr.write_id
  inOrder : w.encoded = w.released ++ w.held.map Held.packet ++ w.waiting
  intact : ∀ h ∈ w.held, w.mgr.out_buf_mgr.out_pkt h.outbuf = h.packet
  fresh : w.mgr.out_buf_mgr.buf_used < packetCnt →
    (∀ h ∈ w.held, h.outbuf ≠ w.mgr.out_buf_mgr.write_id) ∧
      ∀ i < w.mgr.out_buf_mgr.prefetch_cnt,
        (w.mgr.out_buf_mgr.read_id + i) % packetCnt ≠ w.mgr.out_buf_mgr.write_id
  drains : (answers call w w.drain).2.released = w.encoded

end World

end Maixii.TextEnc
