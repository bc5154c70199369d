import SimpleSipClient.Decoder.Source
import SimpleSipClient.Foundation.Interleaving
import SimpleSipClient.Foundation.Runs
import SimpleSipClient.Playback.Source
import SimpleSipClient.Receiver.Source

/-! # From the packet to the picture

The client once it is shown. Every Play makes a receiver with a thread of its own. A frame that
a thread emits is copied into a posted call, which the event loop of the window hands to the
decoder, and a decoded picture goes straight to the label. An input is what the user, the
remote side or the event loop does next, or the next packet of one of the threads. What follows
an access outside of a buffer is not described.
-/

namespace SimpleSipClient.Pipeline

open Foundation RtpRecver

inductive Event where
  | slot (e : Playback.Event)
  | recver (e : Nat × RtpRecver.Event)
  | decode (buff : Nat × Bytes)
  | decoder (e : Decoder.Event)
  | update

/-- The members of the client's objects. `posted` holds the queued calls of `onRecvedFrame`, each
with the receiver that it comes from; `rgb` is what `m_rgbBuffer` of the decoder contains. -/
structure State where
  slots : Playback.State
  recvers : List RtpRecver.State
  posted : List (Nat × Bytes)
  avDecoder : Except Int Decoder.State
  rgb : Block UInt8
  curImage : Option Decoder.QImage

abbrev Client := Traced Event State

/-- `main` up to `exec`. What `m_avDecoder->init()` returns is not looked at. -/
def client (garbage : Bool) (library : Decoder.Library) : State where
  slots := Playback.found garbage
  recvers := []
  posted := []
  avDecoder := Decoder.init library
  rgb := Decoder.allocate library.rgbMemory (Decoder.rgbSize 1920 1080)
  curImage := none

/-! ## The receivers -/

/-- The frame of a `sigRecvedFrame`. -/
def frameOf : RtpRecver.Event → Option Bytes
  | .sigRecvedFrame frame => some frame
  | _ => none

def postedCall (e : Nat × RtpRecver.Event) : Option (Nat × Bytes) :=
  (frameOf e.2).map (Prod.mk e.1)

abbrev moveRecver : Move Delivery RtpRecver.State →
    Traced (Nat × RtpRecver.Event) (List RtpRecver.State) Unit :=
  move fun d => processRTPPacket d.srcdat d.rtppack

/-- The connection is queued: `sigRecvedFrame` copies the frame behind the calls that wait. -/
def inRecvers (m : Move Delivery RtpRecver.State) : Client Unit := fun s =>
  let x := moveRecver m s.recvers
  ⟨x.events.map .recver,
    match x.outcome with
    | .ok (_, recvers) =>
        .ok ((), { s with recvers, posted := s.posted ++ x.events.filterMap postedCall })
    | .error h => .error h⟩

def inSlots (x : Playback.Slot Unit) : Client Unit :=
  Traced.zoom State.slots (fun p s => { s with slots := p }) .slot x

/-! ## The event loop -/

/-- What the codec library and the allocator give to one `decode`. -/
structure Answer where
  received : Decoder.Received
  fresh : Nat → UInt8

/-- One decode, as far as its accesses lie in their buffers. -/
def inDecoder (d : Decoder.State) (a : Answer) : Traced Event State (Option Decoder.QImage) :=
  fun s =>
    let x := Decoder.decode d a.received a.fresh ⟨Block.blank 0, 0, s.rgb⟩
    if x.events.all (Decoder.inside d a.received) then
      ⟨x.events.map .decoder,
        match x.outcome with
        | .ok (image, l) => .ok (image, { s with rgb := l.rgb })
        | .error h => .error h⟩
    else ⟨(x.events.takeWhile (Decoder.inside d a.received)).map .decoder, .error .invalid⟩

def onGetImage (img : Decoder.QImage) : Client Unit := do
  let s ← Traced.get
  Traced.set { s with curImage := some img }
  Traced.emit .update

/-- `sigGetOneFrame` is the last step of a `decode` that got a frame. -/
def decode (d : Decoder.State) (a : Answer) : Client Unit := do
  let image ← inDecoder d a
  match image with
  | some img => onGetImage img
  | none => pure ()

/-- A decoder whose `init` failed has no open codec to call. -/
def onRecvedFrame (buff : Nat × Bytes) (a : Answer) : Client Unit := do
  Traced.emit (.decode buff)
  let s ← Traced.get
  match s.avDecoder with
  | .ok d => decode d a
  | .error _ => Traced.halt .invalid

/-- The event loop takes the first of the posted calls. -/
def deliver (a : Answer) : Client Unit := do
  let s ← Traced.get
  match s.posted with
  | [] => pure ()
  | buff :: posted => do
      Traced.set { s with posted }
      onRecvedFrame buff a

/-! ## Inputs -/

/-- `bufferSize` is what the new receiver finds at `m_bufferSize`. -/
inductive Input where
  | play (bufferSize : Int) (create : Bool) (o : MediaClient.InviteOutcome)
  | stop (o : MediaClient.ByeOutcome)
  | remote (k : Nat) (e : MediaClient.RemoteEvent)
  | finished (k : Nat)
  | packet (k : Nat) (d : Delivery)
  | deliver (a : Answer)

def perform : Input → Client Unit
  | .play bufferSize create o => do
      inRecvers (.create (rtpRecver bufferSize))
      inSlots (Playback.perform (.play create o))
  | .stop o => inSlots (Playback.perform (.stop o))
  | .remote k e => inSlots (Playback.perform (.remote k e))
  | .finished k => inSlots (Playback.perform (.finished k))
  | .packet k d => inRecvers (.act k d)
  | .deliver a => deliver a

/-- A thread that was told to end may still be at work on a packet. -/
def possible (s : State) : Input → Bool
  | .play _ create o => Playback.possible s.slots (.play create o)
  | .stop o => Playback.possible s.slots (.stop o)
  | .remote k e => Playback.possible s.slots (.remote k e)
  | .finished k => Playback.possible s.slots (.finished k)
  | .packet k _ => (s.slots.recvers[k]?).any fun r => r.running
  | .deliver _ => !s.posted.isEmpty

end SimpleSipClient.Pipeline
