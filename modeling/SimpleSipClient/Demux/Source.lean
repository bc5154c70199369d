import SimpleSipClient.Foundation.MachineInt
import SimpleSipClient.Foundation.Block
import SimpleSipClient.Foundation.Loop

/-! # The program stream demuxer

`getH246FromPs` walks the packets of one program stream frame and moves the
video payloads to the front of the same buffer. Pointers into the buffer are
offsets from its start, `int` values are integers with explicit wrap-around and
every inspected byte and every `memcpy` call is an event. An access outside the
block that holds the buffer, and a copy from a null pointer, halt the run.
-/

namespace SimpleSipClient.PsToH264

open Foundation

abbrev Buffer := Block UInt8

/-- What the demuxer does to the buffer it was given. -/
inductive Access where
  | inspect (offset : Nat)
  | memcpy (dest : Nat) (src : Option Nat) (count : Int)
  deriving DecidableEq, Repr

abbrev Demux := Traced Access Buffer

def inspect (offset : Nat) : Demux UInt8 := fun b =>
  ⟨[.inspect offset], if offset < b.size then .ok (b.cell offset, b) else .error .invalid⟩

/-- The count arrives as a signed length and is converted to `size_t`. The two
ranges may overlap: the copy has the effect of `memmove`. -/
def memcpy (dest : Nat) (src : Option Nat) (count : Int) : Demux Unit := fun b =>
  ⟨[.memcpy dest src count],
    match src with
    | some s =>
        if dest + size64 count ≤ b.size ∧ s + size64 count ≤ b.size then
          .ok ((), b.copy dest s (size64 count))
        else .error .invalid
    | none => .error .invalid⟩

/-! ## Packed records -/

def sizeofPackStartCode : Nat := 4
def sizeofLittelEndianSize : Nat := 2
def sizeofPackTitleHeader : Nat := 6
def sizeofProgramStreamPackHeader : Nat := 14
def sizeofProgramStreamMap : Nat := 6
def sizeofProgramStreamE : Nat := 9

/-- `littel_endian_size.length` of a union with these two bytes. -/
def littelEndianSize (byte0 byte1 : UInt8) : Nat := byte0.toNat + 256 * byte1.toNat

/-- `NextPack[0..3]` compared with `00 00 01 stream_id`, one byte after the other. -/
def isStartCode (nextPack : Nat) (streamId : UInt8) : Demux Bool := do
  if (← inspect nextPack) = 0x00 then
    if (← inspect (nextPack + 1)) = 0x00 then
      if (← inspect (nextPack + 2)) = 0x01 then
        return (← inspect (nextPack + 3)) == streamId
      else return false
    else return false
  else return false

/-- The two length bytes at `offset`, exchanged into a `littel_endian_size`. -/
def exchangedSize (offset : Nat) : Demux Nat := do
  let byte0 ← inspect (offset + 1)
  let byte1 ← inspect offset
  return littelEndianSize byte0 byte1

/-! ## Headers -/

structure PackHeaderResult where
  ret : Int
  nextPack : Nat
  leftlength : Int

/-- The stuffing byte is read before any check of the length. -/
def programStreamPackHeader (pack : Nat) (length : Int) : Demux PackHeaderResult := do
  let stuffinglen ← inspect (pack + 13)
  let packStuffingLength := (stuffinglen &&& 0x07).toNat
  let leftlength := int32 (length - sizeofProgramStreamPackHeader - packStuffingLength)
  let nextPack := pack + sizeofProgramStreamPackHeader + packStuffingLength
  if leftlength < 4 then
    return ⟨0, nextPack, leftlength⟩
  else
    return ⟨leftlength, nextPack, leftlength⟩

structure PesResult where
  ret : Int
  nextPack : Nat
  leftlength : Int
  payloadData : Option Nat
  payloadDataLen : Int

/-- `nextPack` and `leftlength` are the values the two output pointers hold before
the call; an early return leaves them as they are. -/
def pes (pack : Nat) (length : Int) (nextPack : Nat) (leftlength : Int) : Demux PesResult := do
  if size64 length < sizeofProgramStreamE then
    return ⟨0, nextPack, leftlength, none, 0⟩
  else
    let pseLength ← exchangedSize (pack + sizeofPackStartCode)
    let stuffingLength ← inspect (pack + 8)
    let payloadDataLen : Int := pseLength - 2 - 1 - stuffingLength.toNat
    let payloadData :=
      if payloadDataLen > 0 then some (pack + sizeofProgramStreamE + stuffingLength.toNat) else none
    let leftlength := int32 (length - pseLength - sizeofPackStartCode - sizeofLittelEndianSize)
    if leftlength ≤ 0 then
      return ⟨0, nextPack, leftlength, payloadData, payloadDataLen⟩
    else
      return ⟨leftlength, pack + sizeofPackStartCode + sizeofLittelEndianSize + pseLength,
        leftlength, payloadData, payloadDataLen⟩

/-! ## The packet loop -/

/-- The locals of the loop. `buffer` is the write pointer. -/
structure Cursor where
  buffer : Nat
  h264length : Int
  nextPack : Nat
  leftlength : Int

/-- `if(PayloadDataLen) { memcpy; buffer += ...; *h264length += ...; }` -/
def copyPayload (c : Cursor) (payloadData : Option Nat) (payloadDataLen : Int) :
    Demux Cursor := do
  if payloadDataLen ≠ 0 then
    memcpy c.buffer payloadData payloadDataLen
    return { c with
      buffer := c.buffer + payloadDataLen.toNat
      h264length := int32 (c.h264length + payloadDataLen) }
  else
    return c

/-- `leftlength >= sizeof(pack_start_code)`, an unsigned comparison. -/
def loopGuard (c : Cursor) : Bool := sizeofPackStartCode ≤ size64 c.leftlength

/-- The branch of a video packet. -/
def demuxVideo (c : Cursor) : Demux (Flow Cursor) := do
  let r ← pes c.nextPack c.leftlength c.nextPack c.leftlength
  let c := { c with nextPack := r.nextPack, leftlength := r.leftlength }
  if r.ret ≠ 0 then
    let c ← copyPayload c r.payloadData r.payloadDataLen
    return .again c
  else
    let c ← copyPayload c r.payloadData r.payloadDataLen
    return .leave c

/-- The branch of a system header. It tests `length`, the size of the whole frame,
where the branch of the stream map tests what is left of it. -/
def demuxTitleHeader (length : Int) (c : Cursor) : Demux (Flow Cursor) := do
  if size64 length < sizeofPackTitleHeader then
    return .leave c
  else
    let titileLength ← exchangedSize (c.nextPack + sizeofPackStartCode)
    return .again { c with
      nextPack := c.nextPack + titileLength + sizeofPackTitleHeader
      leftlength := int32 (c.leftlength - titileLength - sizeofPackTitleHeader) }

def demuxStreamMap (c : Cursor) : Demux (Flow Cursor) := do
  if size64 c.leftlength < sizeofProgramStreamMap then
    return .leave c
  else
    let psmLength ← exchangedSize (c.nextPack + sizeofPackStartCode)
    return .again { c with
      nextPack := c.nextPack + psmLength + sizeofProgramStreamMap
      leftlength := int32 (c.leftlength - psmLength - sizeofProgramStreamMap) }

/-- One iteration. `NextPack` is set before the loop, so the null tests of the
source always pass. -/
def demuxPacket (length : Int) (c : Cursor) : Demux (Flow Cursor) := do
  if ← isStartCode c.nextPack 0xE0 then
    demuxVideo c
  else if ← isStartCode c.nextPack 0xBB then
    demuxTitleHeader length c
  else if ← isStartCode c.nextPack 0xBC then
    demuxStreamMap c
  else
    return .leave c

structure DemuxResult where
  ret : Int
  h264Buffer : Nat
  h264length : Int
  deriving DecidableEq, Repr

/-- The variables with which the loop is entered, if it is. -/
def enterLoop (length : Int) : Demux (Option Cursor) := do
  let h ← programStreamPackHeader 0 length
  if h.ret = 0 then
    return none
  else
    return some ⟨0, 0, h.nextPack, h.leftlength⟩

/-- Every iteration inspects `NextPack[0]` and moves `NextPack` forward, so one
unit of fuel per byte of the block, and one more, is enough. -/
def getH246FromPs (length : Int) : Demux DemuxResult := do
  match ← enterLoop length with
  | none => return ⟨0, 0, 0⟩
  | some start => do
      let b ← Traced.get
      let c ← iterate loopGuard (demuxPacket length) (b.size + 1) start
      return ⟨c.h264length, 0, c.h264length⟩

end SimpleSipClient.PsToH264
