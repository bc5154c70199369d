import SimpleSipClient.Foundation.Bytes
import SimpleSipClient.Foundation.Loop
import SimpleSipClient.Foundation.Sequence

/-! # The streaming media connection

One `SMS` object owns a TCP socket to a streaming media server. `writeFrame` sends
a video frame in slices, `onConnected` logs in, `onRead` answers commands and
`onHeartbeatTimeout` sends a heartbeat. Every message given to an open socket, every
byte that is inspected outside the program's own variables, every dropped frame and
every command is an event. What a call finds around it, the clock, the pending bytes
of the socket and the memory that it reads without having written it, is an input.
-/

namespace SimpleSipClient.SMS

open Foundation

abbrev Bytes := List UInt8

/-! ## Wire structures -/

/-- The members of `SMS_HEADER` with the values they hold in memory; `cmd_type` is
carried by its 16 bits. -/
structure SMSHeader where
  magic : UInt32
  channelId : UInt8
  flag : UInt8
  cmdType : UInt16
  cmd : UInt32
  seqnum : UInt32
  length : UInt32
  deriving DecidableEq, Repr

/-- The bytes of the structure on a little-endian host. -/
def SMSHeader.bytes (h : SMSHeader) : Bytes :=
  littleEndian 4 h.magic.toNat ++ (littleEndian 1 h.channelId.toNat ++
    (littleEndian 1 h.flag.toNat ++ (littleEndian 2 h.cmdType.toNat ++
      (littleEndian 4 h.cmd.toNat ++ (littleEndian 4 h.seqnum.toNat ++
        littleEndian 4 h.length.toNat)))))

def SMS_VIDEO_I_FRAME : UInt32 := 0x63643035
def SMS_VIDEO_P_FRAME : UInt32 := 0x63643135

structure VideoFrameHeader where
  nVHeaderFlag : UInt32
  nVFrameLen : UInt32
  u8Hour : UInt8
  u8Minute : UInt8
  u8Sec : UInt8
  u8Flag : UInt8
  nReserved : UInt32
  lVPts : UInt64
  deriving DecidableEq, Repr

def VideoFrameHeader.bytes (h : VideoFrameHeader) : Bytes :=
  littleEndian 4 h.nVHeaderFlag.toNat ++ (littleEndian 4 h.nVFrameLen.toNat ++
    (littleEndian 1 h.u8Hour.toNat ++ (littleEndian 1 h.u8Minute.toNat ++
      (littleEndian 1 h.u8Sec.toNat ++ (littleEndian 1 h.u8Flag.toNat ++
        (littleEndian 4 h.nReserved.toNat ++ littleEndian 8 h.lVPts.toNat))))))

def qToBigEndian32 (x : UInt32) : UInt32 := UInt32.ofNat (swapBytes 4 x.toNat)
def qToBigEndian16 (x : UInt16) : UInt16 := UInt16.ofNat (swapBytes 2 x.toNat)
def qFromBigEndian32 (x : UInt32) : UInt32 := UInt32.ofNat (swapBytes 4 x.toNat)

/-! ## The object -/

inductive Event where
  | frameAt (index : Int)
  | saveFrame (frame : Bytes)
  | dropFrame (type : Nat) (bytesToWrite : Nat)
  | readHeader (offset : Nat) (chunkSize : Nat)
  | command (cmd : UInt32)
  | write (msg : Bytes)
  deriving DecidableEq, Repr

/-- `writable` is what `m_fd.isWritable()` returns; `code` holds UTF-16 code units. -/
structure State where
  writable : Bool
  code : List UInt16
  seq : UInt32
  bfirstIFrame : Bool
  deriving DecidableEq, Repr

abbrev Sms := Traced Event State

/-- `connectToHost` opens the device at once. -/
def sms (code : List UInt16) : State where
  writable := true
  code := code
  seq := 0
  bfirstIFrame := false

/-- What one call finds around it. `beyond` is the memory behind a byte array, counted
from the array's start; `channelId` and `flag` are what the stack holds in the members of
a header that are never assigned. -/
structure Surroundings where
  bytesToWrite : Nat
  hour : UInt8
  minute : UInt8
  second : UInt8
  toMSecsSinceEpoch : UInt64
  fileOpens : Bool
  beyond : Int → UInt8
  channelId : UInt8
  flag : Nat → UInt8

/-- Nothing pending, midnight and cleared memory. -/
def quiet : Surroundings where
  bytesToWrite := 0
  hour := 0
  minute := 0
  second := 0
  toMSecsSinceEpoch := 0
  fileOpens := false
  beyond := fun _ => 0
  channelId := 0
  flag := fun _ => 0

/-- `m_fd.write(msg)`, without effect on a closed device. -/
def writeSocket (msg : Bytes) : Sms Unit := do
  let s ← Traced.get
  if s.writable then Traced.emit (.write msg) else pure ()

/-- `QByteArray::data()[index]`: the array is followed by a zero byte. -/
def dataAt (env : Surroundings) (xs : Bytes) (index : Int) : UInt8 :=
  if 0 ≤ index ∧ index < xs.length then xs.getD index.toNat 0
  else if index = xs.length then 0
  else env.beyond index

/-! ## Video -/

def h264Flag : Bytes := [0x00, 0x00, 0x00, 0x01]

/-- `QByteArray::indexOf` for a pattern that is not empty. -/
def indexOf (pattern : Bytes) : Bytes → Int
  | [] => -1
  | x :: xs =>
      if pattern.isPrefixOf (x :: xs) then 0
      else if indexOf pattern xs = -1 then -1
      else indexOf pattern xs + 1

def typeIndex (frame : Bytes) : Int := indexOf h264Flag frame + h264Flag.length

def frameType (env : Surroundings) (frame : Bytes) : Nat :=
  (dataAt env frame (typeIndex frame) &&& 0x1f).toNat

inductive FrameKind where
  | iFrame
  | pFrame
  | unknown
  deriving DecidableEq, Repr

/-- The cases of the `switch` on the type. -/
def kindOf (type : Nat) : FrameKind :=
  if type = 2 ∨ type = 5 ∨ type = 7 ∨ type = 8 then .iFrame
  else if type = 1 then .pFrame
  else .unknown

def videoFrameHeader (env : Surroundings) (headerFlag : UInt32) (frame : Bytes) :
    VideoFrameHeader where
  nVHeaderFlag := headerFlag
  nVFrameLen := UInt32.ofNat frame.length
  u8Hour := env.hour
  u8Minute := env.minute
  u8Sec := env.second
  u8Flag := 0
  nReserved := 0
  lVPts := env.toMSecsSinceEpoch * 1000

/-- `realFrame.mid(i, len)`. -/
def mid (realFrame : Bytes) (i len : Nat) : Bytes := (realFrame.drop i).take len

/-- The loop variables of the slice loop. -/
structure SliceCursor where
  i : Nat
  len : Nat
  j : Nat

def sliceHeader (env : Surroundings) (slicCnt j len : Nat) : SMSHeader where
  magic := qToBigEndian32 0xFFFF559F
  channelId := 0
  flag := env.flag j
  cmd := qToBigEndian32 31000
  cmdType := qToBigEndian16 0
  length := qToBigEndian32 (UInt32.ofNat len)
  seqnum := qToBigEndian32 (UInt32.ofNat slicCnt ||| UInt32.ofNat j <<< 16)

def writeSlice (env : Surroundings) (slicCnt : Nat) (realFrame : Bytes) (c : SliceCursor) :
    Sms (Flow SliceCursor) := do
  let len := if realFrame.length - c.i < 1000 then realFrame.length - c.i else c.len
  writeSocket ((sliceHeader env slicCnt c.j len).bytes ++ mid realFrame c.i len)
  return .again ⟨c.i + len, len, c.j + 1⟩

def moreSlices (realFrame : Bytes) (c : SliceCursor) : Bool := decide (c.i < realFrame.length)

def writeSlices (env : Surroundings) (realFrame : Bytes) : Sms Unit := do
  let slicCnt := (realFrame.length + 999) / 1000
  let _ ← iterate (moreSlices realFrame) (writeSlice env slicCnt realFrame)
    (realFrame.length + 1) ⟨0, 1000, 0⟩

/-- What follows the `switch`. -/
def sendFrame (env : Surroundings) (frame : Bytes) (type : Nat) (headerFlag : UInt32) :
    Sms Unit := do
  let s ← Traced.get
  if s.bfirstIFrame = false then pure ()
  else if headerFlag ≠ SMS_VIDEO_I_FRAME ∧ env.bytesToWrite > 2 * 1024 * 1024 then
    Traced.emit (.dropFrame type env.bytesToWrite)
  else
    writeSlices env ((videoFrameHeader env headerFlag frame).bytes ++ frame)

def writeFrame (env : Surroundings) (frame : Bytes) : Sms Unit := do
  let s ← Traced.get
  if s.writable then
    Traced.emit (.frameAt (typeIndex frame))
    let type := frameType env frame
    match kindOf type with
    | .iFrame => sendFrame env frame type SMS_VIDEO_I_FRAME
    | .pFrame => do
        Traced.set { s with bfirstIFrame := true }
        sendFrame env frame type SMS_VIDEO_P_FRAME
    | .unknown => if env.fileOpens then Traced.emit (.saveFrame frame) else pure ()
  else pure ()

/-! ## Commands -/

/-- A code unit above 255 has no Latin-1 form. -/
def toLatin1 (code : List UInt16) : Bytes :=
  code.map fun c => if c.toNat < 256 then c.toUInt8 else 63

def loginHeader (env : Surroundings) (seq : UInt32) : SMSHeader where
  magic := qToBigEndian32 0xFFFF559F
  channelId := 0
  flag := env.flag 0
  cmdType := qToBigEndian16 1
  cmd := qToBigEndian32 21000
  seqnum := qToBigEndian32 seq
  length := qToBigEndian32 32

/-- What `msg.append(m_code.toLatin1().data(), 32)` copies. -/
def loginBody (env : Surroundings) (code : List UInt16) : Bytes :=
  (List.range 32).map fun (i : Nat) => dataAt env (toLatin1 code) i

def onConnected (env : Surroundings) : Sms Unit := do
  let s ← Traced.get
  Traced.set { s with seq := s.seq + 1 }
  writeSocket ((loginHeader env s.seq).bytes ++ loginBody env s.code)

/-- Neither `channel_id` nor `flag` is assigned. -/
def heartbeatHeader (env : Surroundings) (seq : UInt32) : SMSHeader where
  magic := qToBigEndian32 0xFFFF559F
  channelId := env.channelId
  flag := env.flag 0
  cmd := qToBigEndian32 21001
  cmdType := qToBigEndian16 1
  length := qToBigEndian32 0
  seqnum := qToBigEndian32 seq

def onHeartbeatTimeout (env : Surroundings) : Sms Unit := do
  let s ← Traced.get
  Traced.set { s with seq := s.seq + 1 }
  if s.writable then writeSocket (heartbeatHeader env s.seq).bytes else pure ()

/-- The member `cmd` of a header cast onto the chunk. -/
def headerCmd (env : Surroundings) (msg : Bytes) : UInt32 :=
  UInt32.ofNat (ofLittleEndian
    [dataAt env msg 8, dataAt env msg 9, dataAt env msg 10, dataAt env msg 11])

/-- `header->cmd`, read byte by byte. -/
def readCmd (env : Surroundings) (msg : Bytes) : Sms UInt32 := do
  Traced.emit (.readHeader 8 msg.length)
  Traced.emit (.readHeader 9 msg.length)
  Traced.emit (.readHeader 10 msg.length)
  Traced.emit (.readHeader 11 msg.length)
  return headerCmd env msg

/-- `msg` is what `readAll` returns. -/
def onRead (env : Surroundings) (msg : Bytes) : Sms Unit := do
  let cmd := qFromBigEndian32 (← readCmd env msg)
  Traced.emit (.command cmd)
  if cmd = 21100 then onHeartbeatTimeout env
  else pure ()

def onError : Sms Unit := do
  let s ← Traced.get
  Traced.set { s with writable := false }

/-! ## Runs -/

inductive Slot where
  | writeFrame (frame : Bytes)
  | onConnected
  | onRead (msg : Bytes)
  | onHeartbeatTimeout
  | onError
  deriving DecidableEq, Repr

structure Call where
  slot : Slot
  env : Surroundings

def perform (c : Call) : Sms Unit :=
  match c.slot with
  | .writeFrame frame => writeFrame c.env frame
  | .onConnected => onConnected c.env
  | .onRead msg => onRead c.env msg
  | .onHeartbeatTimeout => onHeartbeatTimeout c.env
  | .onError => onError

def run (calls : List Call) : Sms Unit := Traced.forEach perform calls

/-- The messages given to the open socket. -/
def writes (es : List Event) : List Bytes :=
  es.filterMap fun e => match e with
    | .write msg => some msg
    | _ => none

end SimpleSipClient.SMS
