import SimpleSipClient.MediaClient.Invite

/-! # Play and Stop

The two slots in full: what they do to the receiver, then the SIP call. A receiver is
described from outside, by its thread and its session; what the thread does with packets is
left to the receiver's own model. A pointer that is used without a receiver behind it
ends the run, and so does `exit`.
-/

namespace SimpleSipClient.Playback

open Foundation MediaClient

/-- `m_rtpRecver` is not set by the constructor: `wild` is an address found in memory. -/
inductive Pointer where
  | null
  | wild
  | recver (k : Nat)
  deriving DecidableEq, Repr

/-- `bound` tells whether the session holds its port. -/
structure RtpRecver where
  running : Bool
  brecvOver : Bool
  bound : Bool
  deriving DecidableEq, Repr

inductive Event where
  | setRecver (replaced : Option RtpRecver)
  | useRecver (recver : Option RtpRecver)
  | exit
  | sip (e : MediaClient.Event)
  deriving DecidableEq, Repr

/-- The receivers are numbered in order of creation; `client` is what the SIP calls use. -/
structure State where
  rtpRecver : Pointer
  recvers : List RtpRecver
  client : MediaClient.State
  deriving DecidableEq, Repr

abbrev Slot := Traced Event State

/-- Memory may hold null at `m_rtpRecver` by chance. -/
def found (garbage : Bool) : State where
  rtpRecver := if garbage then .wild else .null
  recvers := []
  client := mediaClient

def State.target (s : State) : Option RtpRecver :=
  match s.rtpRecver with
  | .recver k => s.recvers[k]?
  | _ => none

/-- A change of the receiver behind `m_rtpRecver`. -/
def State.withTarget (f : RtpRecver → RtpRecver) (s : State) : State :=
  match s.rtpRecver with
  | .recver k => { s with recvers := s.recvers.modify k f }
  | _ => s

/-- `m_rtpRecver` is dereferenced. -/
def useRecver : Slot Unit := do
  let s ← Traced.get
  Traced.emit (.useRecver s.target)
  if s.target.isSome then pure () else Traced.halt .invalid

def withRecver (f : RtpRecver → RtpRecver) : Slot Unit := do
  useRecver
  let s ← Traced.get
  Traced.set (s.withTarget f)

def inClient (x : Client Unit) : Slot Unit :=
  Traced.zoom State.client (fun c s => { s with client := c }) .sip x

/-! ## The receiver -/

/-- `m_rtpRecver = new RtpRecver(this)`. -/
def newRtpRecver : Slot Unit := do
  let s ← Traced.get
  Traced.emit (.setRecver s.target)
  Traced.set { s with
    rtpRecver := .recver s.recvers.length
    recvers := s.recvers ++ [{ running := false, brecvOver := false, bound := false }] }

/-- `checkerror` ends the program where `Create` fails. -/
def init (create : Bool) : Slot Unit :=
  if create then withRecver fun r => { r with bound := true }
  else do
    Traced.emit .exit
    Traced.halt .invalid

def start : Slot Unit := withRecver fun r => { r with running := true }

/-- `BYEDestroy` gives the port back. -/
def destroy : Slot Unit := withRecver fun r => { r with brecvOver := true, bound := false }

/-- The thread has no event loop that could be left. -/
def quit : Slot Unit := withRecver id

/-! ## The slots -/

def onPlay (create : Bool) (o : InviteOutcome) : Slot Unit := do
  newRtpRecver
  init create
  start
  inClient do
    let _ ← sendInvite o

def onStop (o : ByeOutcome) : Slot Unit := do
  let s ← Traced.get
  if s.rtpRecver ≠ .null then
    destroy
    quit
  else pure ()
  inClient (sendBye o)

inductive Input where
  | play (create : Bool) (o : InviteOutcome)
  | stop (o : ByeOutcome)
  | remote (k : Nat) (e : RemoteEvent)
  | finished (k : Nat)
  deriving DecidableEq, Repr

def perform : Input → Slot Unit
  | .play create o => onPlay create o
  | .stop o => onStop o
  | .remote k e => inClient (receive k e)
  | .finished k => do
      let s ← Traced.get
      Traced.set { s with recvers := s.recvers.modify k fun r => { r with running := false } }

/-- A thread that goes on running leaves its loop only when told. -/
def possible (s : State) : Input → Bool
  | .remote k e => MediaClient.possible s.client (.remote k e)
  | .finished k => (s.recvers[k]?).any fun r => r.running && r.brecvOver
  | _ => true

end SimpleSipClient.Playback
