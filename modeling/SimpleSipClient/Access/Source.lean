import SimpleSipClient.Foundation.MachineInt
import SimpleSipClient.Foundation.Runs
import SimpleSipClient.Foundation.Table
import SimpleSipClient.Sms.Source

/-! # The access client

`Access` holds the web socket to the proxy. A start command creates an `SMS` and connects
its socket's `disconnected` signal to `stopSMS`; video frames are forwarded to the current
one. The objects that were ever created are numbered in order of creation. The inputs
are the slots that Qt calls and what happens to the sockets; the JSON parser is a
parameter. A pointer that is used without a live object behind it is an event and ends
the run.
-/

namespace SimpleSipClient.Access

open Foundation SMS

/-! ## Text messages -/

/-- A `QJsonValue`, as far as `toInt` and `toString` tell values apart. -/
inductive JsonValue where
  | number (value : Int)
  | string (value : List UInt16)
  | other

def JsonValue.toInt : JsonValue → Int
  | .number value => value
  | _ => 0

def JsonValue.toString : JsonValue → List UInt16
  | .string value => value
  | _ => []

/-- What `QJsonDocument::fromJson` returns: the document's object is empty where the
document is none. -/
structure JsonDoc where
  parseError : Bool
  isObject : Bool
  object : String → JsonValue

/-! ## The object -/

/-- The connection of an `SMS`. Only an established connection can be disconnected. -/
inductive Socket where
  | connecting
  | connected
  | disconnected
  | failed
  deriving DecidableEq, Repr

def Socket.isOpen : Socket → Bool
  | .connecting | .connected => true
  | .disconnected | .failed => false

/-- What has become of an `SMS`: its connection, how often `deleteLater` was called for
it, and whether it has been destroyed. -/
structure Fate where
  socket : Socket
  deletions : Nat
  destroyed : Bool
  deriving DecidableEq, Repr

/-- The members of an `SMS` object. -/
structure Session where
  ip : List UInt16
  port : UInt16
  sms : SMS.State

/-- `m_sms` is not set by the constructor. -/
inductive Pointer where
  | unset
  | null
  | object (k : Nat)
  deriving DecidableEq, Repr

inductive Caller where
  | writeFrame
  | stopSMS (sender : Nat)
  deriving DecidableEq, Repr

inductive WsMessage where
  | login
  | heartbeat
  | status
  deriving DecidableEq, Repr

inductive Event where
  | unknownMessage (recv : List UInt16)
  | openWebSocket
  | sendTextMessage (msg : WsMessage)
  | post (body : SMS.Bytes)
  | resultReason (reason : List UInt16)
  | sms (k : Nat) (e : SMS.Event)
  | deleteLater (sender : Nat) (target : Nat)
  | badUse (caller : Caller) (pointer : Pointer)
  deriving DecidableEq, Repr

/-- `fates` describes the objects in `sessions` from outside. -/
structure State where
  sessions : List Session
  fates : List Fate
  sms : Pointer
  smsStarted : Bool
  heartbeatTimer : Int

abbrev Handler := Traced Event State

def access : State where
  sessions := []
  fates := []
  sms := .unset
  smsStarted := false
  heartbeatTimer := 1000

/-- The fate of an object that exists and has not been destroyed. -/
def State.liveFate (s : State) (k : Nat) : Option Fate := s.fates[k]?.filter fun f => !f.destroyed

/-- The object behind a pointer; anything else must not be dereferenced. -/
def State.target (s : State) : Pointer → Option Nat
  | .object k => (s.liveFate k).map fun _ => k
  | _ => none

def State.smsOf (s : State) (k : Nat) : SMS.State :=
  match s.sessions[k]? with
  | some x => x.sms
  | none => SMS.sms []

def State.withSms (k : Nat) (t : SMS.State) (s : State) : State :=
  { s with sessions := s.sessions.modify k fun x => { x with sms := t } }

def State.withFate (k : Nat) (f : Fate → Fate) (s : State) : State :=
  { s with fates := s.fates.modify k f }

/-- A slot of the `SMS` with this number. -/
def inSms (k : Nat) (x : SMS.Sms Unit) : Handler Unit :=
  Traced.zoom (fun s => s.smsOf k) (State.withSms k) (.sms k) x

/-! ## Slots -/

def writeFrame (env : Surroundings) (barray : SMS.Bytes) : Handler Unit := do
  let s ← Traced.get
  if s.smsStarted then
    match s.target s.sms with
    | some k => inSms k (SMS.writeFrame env barray)
    | none => do
        Traced.emit (.badUse .writeFrame s.sms)
        Traced.halt .invalid
  else pure ()

/-- The sender is recorded for the log only: the slot does not look at it. -/
def stopSMS (sender : Nat) : Handler Unit := do
  let s ← Traced.get
  match s.target s.sms with
  | some k => do
      Traced.emit (.deleteLater sender k)
      Traced.set { s.withFate k (fun f => { f with deletions := f.deletions + 1 }) with
        sms := .null }
  | none => do
      Traced.emit (.badUse (.stopSMS sender) s.sms)
      Traced.halt .invalid

def onConnected : Handler Unit := Traced.emit (.sendTextMessage .login)

/-- `QWebSocket::state()`, as far as it is distinguished. -/
inductive WsState where
  | unconnected
  | connected
  | other
  deriving DecidableEq, Repr

def onHeartbeatTimeout (ws : WsState) : Handler Unit :=
  match ws with
  | .unconnected => Traced.emit .openWebSocket
  | .other => pure ()
  | .connected => do
      Traced.emit (.sendTextMessage .heartbeat)
      Traced.emit (.sendTextMessage .status)

def startTimer (msec : Int) : Handler Unit := do
  let s ← Traced.get
  Traced.set { s with heartbeatTimer := msec }

/-- `m_sms = new SMS(ip, port, code, this)`, with its signal connected. -/
def startSMS (ip : List UInt16) (port : Int) (code : List UInt16) : Handler Unit := do
  let s ← Traced.get
  Traced.set { s with
    sessions := s.sessions ++ [{ ip := ip, port := UInt16.ofInt port, sms := SMS.sms code }]
    fates := s.fates ++ [{ socket := .connecting, deletions := 0, destroyed := false }]
    sms := .object s.fates.length
    smsStarted := true }

section Messages

variable (fromJson : SMS.Bytes → JsonDoc)

def document (recv : List UInt16) : JsonDoc := fromJson (toLatin1 recv)

def value (recv : List UInt16) (key : String) : JsonValue := (document fromJson recv).object key

def rejected (recv : List UInt16) : Bool :=
  (document fromJson recv).parseError && !(document fromJson recv).isObject

def onTextMessageReceived (ws : WsState) (recv : List UInt16) : Handler Unit :=
  if rejected fromJson recv then
    Traced.emit (.unknownMessage recv)
  else
    let type := (value fromJson recv "type").toInt
    if type = 1 then
      if (value fromJson recv "code").toInt = 200 then do
        onHeartbeatTimeout ws
        startTimer (int32 ((value fromJson recv "heartbeat").toInt * 1000))
      else pure ()
    else if type = 3 then
      let cmd := (value fromJson recv "cmd").toInt
      if cmd = 0x3000001 then
        startSMS (value fromJson recv "sms_ip").toString (value fromJson recv "sms_port").toInt
          (value fromJson recv "stream_id").toString
      else if cmd = 0x3000002 ∨ cmd = 0x3000003 then
        Traced.emit (.post (toLatin1 recv))
      else pure ()
    else if type = 5 then
      if (value fromJson recv "result_code").toInt ≠ 0 then
        Traced.emit (.resultReason (value fromJson recv "result_reason").toString)
      else pure ()
    else pure ()

end Messages

def onError : Handler Unit := startTimer 1000

/-! ## Sockets and deletion -/

def setSocket (k : Nat) (socket : Socket) : Handler Unit := do
  let s ← Traced.get
  Traced.set (s.withFate k fun f => { f with socket := socket })

/-- The connection ends: the `SMS` closes its socket, and `disconnected` is emitted. -/
def disconnect (k : Nat) : Handler Unit := do
  inSms k SMS.onError
  setSocket k .disconnected
  stopSMS k

/-- The event loop destroys the object. `~SMS` closes the socket, which emits
`disconnected` where there still is a connection. -/
def destroy (k : Nat) : Handler Unit := do
  let s ← Traced.get
  if (s.liveFate k).any fun f => f.socket = .connected then disconnect k else pure ()
  let s ← Traced.get
  Traced.set (s.withFate k fun f => { f with destroyed := true })

/-! ## Runs -/

inductive Input where
  | textMessage (ws : WsState) (recv : List UInt16)
  | writeFrame (env : Surroundings) (barray : SMS.Bytes)
  | onConnected
  | onHeartbeatTimeout (ws : WsState)
  | onError
  | smsConnected (k : Nat) (env : Surroundings)
  | smsRead (k : Nat) (env : Surroundings) (msg : SMS.Bytes)
  | smsHeartbeat (k : Nat) (env : Surroundings)
  | smsConnectFailed (k : Nat)
  | smsDisconnected (k : Nat)
  | deferredDelete (k : Nat)

def perform (fromJson : SMS.Bytes → JsonDoc) : Input → Handler Unit
  | .textMessage ws recv => onTextMessageReceived fromJson ws recv
  | .writeFrame env barray => writeFrame env barray
  | .onConnected => onConnected
  | .onHeartbeatTimeout ws => onHeartbeatTimeout ws
  | .onError => onError
  | .smsConnected k env => do
      setSocket k .connected
      inSms k (SMS.onConnected env)
  | .smsRead k env msg => inSms k (SMS.onRead env msg)
  | .smsHeartbeat k env => inSms k (SMS.onHeartbeatTimeout env)
  | .smsConnectFailed k => do
      setSocket k .failed
      inSms k SMS.onError
  | .smsDisconnected k => disconnect k
  | .deferredDelete k => destroy k

/-- What can happen to an `SMS` depends on its connection; it is destroyed only after
`deleteLater`. -/
def possible (s : State) : Input → Bool
  | .smsConnected k _ => (s.liveFate k).any fun f => f.socket = .connecting
  | .smsRead k _ _ => (s.liveFate k).any fun f => f.socket = .connected
  | .smsHeartbeat k _ => (s.liveFate k).isSome
  | .smsConnectFailed k => (s.liveFate k).any fun f => f.socket = .connecting
  | .smsDisconnected k => (s.liveFate k).any fun f => f.socket = .connected
  | .deferredDelete k => (s.liveFate k).any fun f => 0 < f.deletions
  | _ => true

end SimpleSipClient.Access
