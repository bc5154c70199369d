import SimpleSipClient.Demux.Source
import SimpleSipClient.Foundation.Sequence

/-! # The RTP receiver

`RtpRecver` collects RTP payloads in one buffer of fixed size, hands the buffer to
the demuxer when a packet carries the marker bit and clears it afterwards. Each
log line, each copy into the buffer, each access of the demuxer, each emitted frame
and each clearing is an event. What the session delivers is the input: the packets of every
source with data, poll after poll.
-/

namespace SimpleSipClient.RtpRecver

open Foundation PsToH264

abbrev Bytes := List UInt8

def BUFFERSIZE : Nat := 1024 * 1024

structure RTPSourceData where
  ssrc : UInt32
  deriving DecidableEq, Repr

structure RTPPacket where
  extendedSequenceNumber : UInt32
  timestamp : UInt32
  payloadData : Bytes
  hasMarker : Bool
  deriving DecidableEq, Repr

inductive Event where
  | gotPacketError (extendedSequenceNumber : UInt32) (gap : Nat) (timestamp : UInt32)
  | memcpy (offset : Int) (payloadData : Bytes)
  | demux (access : Access)
  | sigRecvedFrame (frame : Bytes)
  | memset
  deriving DecidableEq, Repr

/-- The members that `ProcessRTPPacket` uses. -/
structure State where
  frameBuffer : Buffer
  bufferSize : Int
  lastSeqNumber : Int

abbrev Recver := Traced Event State

/-- The constructor leaves `m_bufferSize` as it is found in memory. -/
def rtpRecver (bufferSize : Int) : State where
  frameBuffer := Block.blank BUFFERSIZE
  bufferSize := bufferSize
  lastSeqNumber := 0

/-! ## One packet -/

/-- `GetExtendedSequenceNumber() - m_lastSeqNumber`, an unsigned difference. -/
def sequenceGap (extendedSequenceNumber : UInt32) (lastSeqNumber : Int) : Nat :=
  uint32 (extendedSequenceNumber.toNat - lastSeqNumber)

def reportGap (rtppack : RTPPacket) (lastSeqNumber : Int) : Recver Unit :=
  if sequenceGap rtppack.extendedSequenceNumber lastSeqNumber > 1 then
    Traced.emit (.gotPacketError rtppack.extendedSequenceNumber
      (sequenceGap rtppack.extendedSequenceNumber lastSeqNumber) rtppack.timestamp)
  else
    pure ()

/-- `memcpy(m_frameBuffer + offset, ...)`. -/
def memcpyPayload (offset : Int) (payloadData : Bytes) : Recver Unit := fun r =>
  ⟨[.memcpy offset payloadData],
    if 0 ≤ offset ∧ offset + payloadData.length ≤ r.frameBuffer.size then
      .ok ((), { r with frameBuffer := r.frameBuffer.write offset.toNat payloadData })
    else .error .invalid⟩

def emitFrame (d : DemuxResult) : Recver Unit := do
  if d.ret > 0 then
    let r ← Traced.get
    Traced.emit (.sigRecvedFrame (r.frameBuffer.slice d.h264Buffer d.h264length.toNat))
  else
    pure ()

/-- The branch of a packet with the marker bit: demux, emit, clear. -/
def closeFrame : Recver Unit := do
  let r ← Traced.get
  let d ← Traced.zoom State.frameBuffer (fun b r => { r with frameBuffer := b }) .demux
    (getH246FromPs r.bufferSize)
  emitFrame d
  Traced.emit .memset
  let r ← Traced.get
  Traced.set { r with frameBuffer := r.frameBuffer.clear BUFFERSIZE, bufferSize := 0 }

/-- The constructor has dereferenced `m_frameBuffer`, so its null test passes. The
source data is not looked at. -/
def processRTPPacket (_srcdat : RTPSourceData) (rtppack : RTPPacket) : Recver Unit := do
  let r ← Traced.get
  reportGap rtppack r.lastSeqNumber
  Traced.set { r with lastSeqNumber := int32 rtppack.extendedSequenceNumber.toNat }
  memcpyPayload r.bufferSize rtppack.payloadData
  let r ← Traced.get
  Traced.set { r with bufferSize := int32 (r.bufferSize + rtppack.payloadData.length) }
  if rtppack.hasMarker then closeFrame else pure ()

/-! ## The receive loop -/

/-- A packet together with the source that was current when it was taken. -/
structure Delivery where
  srcdat : RTPSourceData
  rtppack : RTPPacket
  deriving DecidableEq, Repr

/-- Calls of `ProcessRTPPacket`, one after the other. -/
def processAll (ds : List Delivery) : Recver Unit :=
  Traced.forEach (fun d => processRTPPacket d.srcdat d.rtppack) ds

/-- The sources that have data after one `Poll`, in the order they are visited, with
the packets that `GetNextPacket` returns for each. -/
abbrev Poll := List (RTPSourceData × List RTPPacket)

/-- A run that is stopped by `m_brecvOver` is a run over fewer packets. -/
def run (polls : List Poll) : Recver Unit :=
  Traced.forEach (fun poll : Poll =>
    Traced.forEach (fun source => Traced.forEach (processRTPPacket source.1) source.2) poll) polls

/-- What a run hands to `ProcessRTPPacket`. -/
def deliveries (polls : List Poll) : List Delivery :=
  polls.flatMap fun poll => poll.flatMap fun source => source.2.map (Delivery.mk source.1)

end SimpleSipClient.RtpRecver
