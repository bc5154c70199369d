import SimpleSipClient.Foundation.Runs
import SimpleSipClient.MediaClient.Source

/-! # One call

What PJSIP makes of a call that the client starts: the invite session, the transactions under
it, and the dialog that counts both. A transaction reports each change to its dialog, which
hands it to the session. A request that the session sends on such an occasion is a new
transaction, and that one reports its first change before the sending returns.

The client creates its sessions without options and without a local SDP, gives their dialogs
no credentials, and sets four callbacks; what other settings would add is left out. With
`NDEBUG` a failed assertion stops nothing. Here it is an event, behind which the run is not
followed any further.
-/

namespace SimpleSipClient.Call

open Foundation
open MediaClient (InvState Sent)

/-! ## Transactions, dialog and session -/

inductive Method where
  | invite
  | cancel
  | bye
  deriving DecidableEq, Repr

inductive Role where
  | uac
  | uas
  deriving DecidableEq, Repr

inductive TsxState where
  | null
  | calling
  | trying
  | proceeding
  | completed
  | confirmed
  | terminated
  | destroyed
  deriving DecidableEq, Repr

def TsxState.rank : TsxState → Nat
  | .null => 0
  | .calling => 1
  | .trying => 2
  | .proceeding => 3
  | .completed => 4
  | .confirmed => 5
  | .terminated => 6
  | .destroyed => 7

/-- What changed the state of a transaction. -/
inductive Source where
  | rxMsg
  | txMsg
  | timer
  | transportError
  | user
  deriving DecidableEq, Repr

/-- `attached`: the dialog is still in the transaction's `mod_data`. -/
structure Tsx where
  role : Role
  method : Method
  state : TsxState
  statusCode : Nat
  timeoutTimer : Bool
  attached : Bool
  deriving DecidableEq, Repr

/-- `pjsip_inv_state` in the order of the enumeration, which has one state more. -/
def rank : InvState → Nat
  | .null => 0
  | .calling => 1
  | .early => 3
  | .connecting => 4
  | .confirmed => 5
  | .disconnected => 6

/-- `lastAck` is the INVITE that the cached ACK is for. -/
structure Inv where
  state : InvState
  inviteTsx : Option Nat
  cause : Nat
  cancelling : Bool
  pendingCancel : Bool
  notify : Bool
  callingNotified : Bool
  lastAck : Option Nat
  refCnt : Option Nat
  deriving DecidableEq, Repr

/-- `loaded`: the invite module is registered. The session lives in the dialog's pool. -/
structure State where
  sessCount : Nat
  tsxCount : Nat
  destroyed : Bool
  remoteTag : Bool
  uacHas2xx : Bool
  tsxs : List Tsx
  inv : Inv
  loaded : Bool
  deriving DecidableEq, Repr

inductive Assertion where
  | sessCount
  | tsxCount
  | refCnt
  | tsxState
  | statusCode
  | cause
  | inviteState
  | inviteTsx
  | operation
  | tsxType
  | inviteTsxState
  | completed2xx
  | rxMsg
  | tdata
  | createAck
  | sendAck
  | module
  deriving DecidableEq, Repr

inductive Event where
  | useDestroyed
  | destroyDialog
  | destroySession
  | send (method : Method)
  | ack (k : Nat)
  | respond (statusCode : Nat)
  | stateChanged (state : InvState)
  | outOfRange
  | unsetTdata
  | assertion (a : Assertion)
  deriving DecidableEq, Repr

abbrev Routine := Traced Event State

/-- After `pjsip_dlg_create_uac` and `pjsip_inv_create_uac`. -/
def created : State where
  sessCount := 1
  tsxCount := 0
  destroyed := false
  remoteTag := false
  uacHas2xx := false
  tsxs := []
  inv := {
    state := .null
    inviteTsx := none
    cause := 0
    cancelling := false
    pendingCancel := false
    notify := true
    callingNotified := false
    lastAck := none
    refCnt := some 1 }
  loaded := true

/-! ## What the surroundings decide -/

/-- `toTag` belongs to the message that comes in. -/
structure Env where
  sent : Method → Sent
  createRequest : Bool
  createCancel : Bool
  createUas : Bool
  createResponse : Bool
  respond : Bool
  ackCreated : Bool
  ackSent : Bool
  ackPending : Bool
  finalAckSent : Bool
  toTag : Bool

/-! ## Basics -/

def update (f : State → State) : Routine Unit := do
  let s ← Traced.get
  Traced.set (f s)

def State.withInv (f : Inv → Inv) (s : State) : State := { s with inv := f s.inv }

def State.withTsx (k : Nat) (f : Tsx → Tsx) (s : State) : State :=
  { s with tsxs := s.tsxs.modify k f }

def updateInv (f : Inv → Inv) : Routine Unit := update (State.withInv f)

def updateTsx (k : Nat) (f : Tsx → Tsx) : Routine Unit := update (State.withTsx k f)

def tsx (k : Nat) : Routine Tsx := do
  let s ← Traced.get
  match s.tsxs[k]? with
  | some t => return t
  | none => Traced.halt .invalid

def fail {α : Type} (a : Assertion) : Routine α := do
  Traced.emit (.assertion a)
  Traced.halt .invalid

def pjAssert (expr : Bool) (a : Assertion) : Routine Unit :=
  if expr then pure () else fail a

/-! ## The dialog's counters -/

/-- The dialog and the session in its pool are accessed. -/
def useDialog : Routine Unit := do
  let s ← Traced.get
  if s.destroyed then Traced.emit .useDestroyed else pure ()

def pjsipDlgIncLock : Routine Unit := do
  useDialog
  update fun s => { s with sessCount := s.sessCount + 1 }

def pjsipDlgDecLock : Routine Unit := do
  let s ← Traced.get
  pjAssert (0 < s.sessCount) .sessCount
  if s.sessCount = 1 ∧ s.tsxCount = 0 then do
    Traced.emit .destroyDialog
    Traced.set { s with sessCount := 0, destroyed := true }
  else Traced.set { s with sessCount := s.sessCount - 1 }

def locked {α : Type} (x : Routine α) : Routine α := do
  pjsipDlgIncLock
  let a ← x
  pjsipDlgDecLock
  return a

def pjsipDlgDecSession : Routine Unit :=
  locked (update fun s => { s with sessCount := s.sessCount - 1 })

/-! ## The session's end -/

def invSessionDestroy : Routine Unit := do
  updateInv fun inv => { inv with lastAck := none }
  Traced.emit .destroySession
  pjsipDlgDecSession
  useDialog
  updateInv fun inv => { inv with refCnt := none }

def pjsipInvDecRef : Routine Unit := do
  let s ← Traced.get
  match s.inv.refCnt with
  | none => fail .refCnt
  | some n => do
      pjAssert (0 < n) .refCnt
      updateInv fun inv => { inv with refCnt := some (n - 1) }
      if n = 1 then invSessionDestroy else pure ()

def invSetCause (causeCode : Nat) : Routine Unit :=
  updateInv fun inv => { inv with cause := if inv.cause < causeCode then causeCode else inv.cause }

/-! ## Transactions -/

/-- The callbacks of a transaction's user. -/
abbrev Notify := Nat → Source → Routine Unit

section Layer

variable (env : Env) (notify : Notify)

/-- A terminated transaction is destroyed by a timer of no length. -/
def tsxSetState (k : Nat) (state : TsxState) (source : Source) : Routine Unit := do
  let t ← tsx k
  pjAssert (t.state.rank ≤ state.rank) .tsxState
  updateTsx k fun t => { t with state := state }
  notify k source
  if state = .terminated then updateTsx k fun t => { t with timeoutTimer := true } else pure ()

def pjsipTsxTerminate (k code : Nat) : Routine Unit := do
  pjAssert (200 ≤ code) .statusCode
  let t ← tsx k
  if t.state.rank < TsxState.terminated.rank then do
    updateTsx k fun t => { t with statusCode := code }
    tsxSetState notify k .terminated .user
  else pure ()

/-- The timer is running afterwards, whether or not it was set before. -/
def pjsipTsxSetTimeout (k : Nat) : Routine Unit :=
  updateTsx k fun t => { t with timeoutTimer := true }

def newTsx (role : Role) (method : Method) : Tsx where
  role := role
  method := method
  state := .null
  statusCode := 0
  timeoutTimer := false
  attached := true

def pjsipTsxCreateUac (method : Method) : Routine Nat := do
  let s ← Traced.get
  Traced.set { s with
    tsxs := s.tsxs ++ [newTsx .uac method]
    tsxCount := s.tsxCount + 1 }
  return s.tsxs.length

/-- `pjsip_tsx_send_msg` in the first state. -/
def tsxOnStateNull (k : Nat) (method : Method) : Routine Bool := do
  match env.sent method with
  | .transportError resolved => do
      updateTsx k fun t => { t with statusCode := if resolved then 503 else 502 }
      tsxSetState notify k .terminated .transportError
      return false
  | _ => do
      Traced.emit (.send method)
      updateTsx k fun t => { t with timeoutTimer := true }
      tsxSetState notify k .calling .txMsg
      return true

/-- For all requests but ACK. -/
def pjsipDlgSendRequest (method : Method) : Routine Bool :=
  locked do
    if env.sent method = .notCreated then return false
    else do
      let k ← pjsipTsxCreateUac method
      let s ← Traced.get
      let tsxCount := s.tsxCount
      let success ← tsxOnStateNull env notify k method
      let s ← Traced.get
      if success = false ∧ s.tsxCount = tsxCount then do
        let t ← tsx k
        pjsipTsxTerminate notify k t.statusCode
        return false
      else return success

/-- `pjsip_dlg_send_response` of a final response, with the transaction's part. -/
def pjsipDlgSendResponse (k code : Nat) : Routine Bool :=
  locked do
    updateTsx k fun t => { t with statusCode := code }
    if env.respond then do
      Traced.emit (.respond code)
      updateTsx k fun t => { t with timeoutTimer := true }
      tsxSetState notify k .completed .txMsg
      return true
    else do
      updateTsx k fun t => { t with statusCode := 503 }
      tsxSetState notify k .terminated .transportError
      return false

/-! ## Sending in the session -/

/-- What is left in the out-parameter, if the call succeeds. -/
def pjsipInvEndSession (stCode : Nat) : Routine (Option (Option Method)) := do
  invSetCause stCode
  let s ← Traced.get
  match s.inv.state with
  | .calling | .early =>
      match s.inv.inviteTsx with
      | none => fail .inviteTsx
      | some k => do
          let t ← tsx k
          if t.statusCode < 100 then do
            updateInv fun inv => { inv with cancelling := true, pendingCancel := true }
            return some none
          else if env.createCancel then do
            pjsipTsxSetTimeout k
            updateInv fun inv => { inv with cancelling := true }
            return some (some .cancel)
          else return none
  | .connecting | .confirmed =>
      if env.createRequest then do
        updateInv fun inv => { inv with cancelling := true }
        return some (some .bye)
      else return none
  | .disconnected => return none
  | .null => fail .operation

def pjsipInvSendMsg (method : Method) : Routine Bool := do
  let s ← Traced.get
  if method = .invite ∧ s.inv.inviteTsx.isSome then do
    locked (pure ())
    return false
  else do
    locked (pure ())
    pjsipDlgSendRequest env notify method

/-- Without a local SDP an offer is never answered: a session that is to be confirmed while its
INVITE is pending is ended instead. -/
def invSetState (state : InvState) : Routine Unit := do
  let s ← Traced.get
  let prev := s.inv.state
  let dontNotify := state = .calling ∧ s.inv.callingNotified = true
  if state = .confirmed ∧ s.inv.inviteTsx.isSome then do
    match ← pjsipInvEndSession env 406 with
    | some (some method) => do
        let _ ← pjsipInvSendMsg env notify method
    | _ => pure ()
  else do
    updateInv fun inv => { inv with
      state := state
      callingNotified := inv.callingNotified || decide (state = .calling) }
    let s ← Traced.get
    pjAssert (state ≠ .disconnected || s.inv.cause ≠ 0) .cause
    if s.inv.notify ∧ ¬ dontNotify then Traced.emit (.stateChanged state) else pure ()
    if state = .disconnected ∧ prev ≠ .disconnected then pjsipInvDecRef else pure ()

/-- `inv_set_cause` and `inv_set_state` with `PJSIP_INV_STATE_DISCONNECTED`. -/
def disconnect (causeCode : Nat) : Routine Unit := do
  invSetCause causeCode
  invSetState env notify .disconnected

/-! ## ACK -/

/-- ACK has no transaction. -/
def sendAck (k : Nat) : Routine Bool :=
  locked do
    if env.ackSent then do
      Traced.emit (.ack k)
      return true
    else return false

def pjsipInvCreateAck (k : Nat) : Routine Bool :=
  locked do
    updateInv fun inv => { inv with lastAck := none }
    if env.ackCreated then do
      updateInv fun inv => { inv with lastAck := some k }
      return true
    else return false

/-- The client's callback. -/
def callOnSendAck (k : Nat) : Routine Unit := do
  let created ← pjsipInvCreateAck env k
  pjAssert created .createAck
  locked (pure ())
  let sent ← sendAck env k
  pjAssert sent .sendAck

/-- A cached ACK is sent by the session itself. -/
def invSendAck (k : Nat) : Routine Unit := do
  let s ← Traced.get
  if s.inv.lastAck = some k ∧ env.ackPending = false then do
    let sent ← sendAck env k
    pjAssert sent .sendAck
    let s ← Traced.get
    if rank s.inv.state < rank .confirmed then invSetState env notify .confirmed else pure ()
  else callOnSendAck env k

/-- The invite module's data of the dialog; without a registration that is the place in front
of the array, where a null pointer is found. -/
def pjsipDlgGetInvSession : Routine Bool := do
  let s ← Traced.get
  if s.loaded then return true
  else do
    Traced.emit .outOfRange
    return false

def modInvOnRxResponse (k : Nat) (method : Method) (code : Nat) : Routine Unit := do
  let found ← pjsipDlgGetInvSession
  let s ← Traced.get
  if found ∧ code / 100 = 2 ∧ method = .invite ∧
      (s.inv.inviteTsx = none ∨ s.inv.state = .disconnected ∨ s.inv.lastAck = some k) then
    invSendAck env notify k
  else pure ()

/-- The tag of the other side is the one in the last response to the INVITE that may carry
one, until the first 2xx. -/
def dlgUpdateTag (method : Method) (code : Nat) : Routine Unit :=
  update fun s =>
    if method = .invite ∧ 100 < code ∧ code < 300 ∧ s.uacHas2xx = false then
      { s with remoteTag := env.toTag, uacHas2xx := decide (200 ≤ code) }
    else s

def pjsipDlgOnRxResponse (k : Nat) (method : Method) (code : Nat) : Routine Unit :=
  locked do
    dlgUpdateTag env method code
    modInvOnRxResponse env notify k method code

/-! ## State handlers of the session -/

/-- A challenge cannot be answered, a redirection is not followed. -/
def handleUacCallRejection (k : Nat) : Routine Unit := do
  let t ← tsx k
  disconnect env notify t.statusCode

def handleUacTsxResponse (k : Nat) : Routine Unit := do
  let s ← Traced.get
  let t ← tsx k
  if s.inv.state ≠ .disconnected ∧
      ((t.statusCode = 481 ∧ t.method ≠ .cancel) ∨ t.statusCode = 408) then do
    disconnect env notify t.statusCode
    if env.createRequest then do
      let _ ← pjsipInvSendMsg env notify .bye
    else pure ()
  else if t.state = .completed ∧ (t.statusCode = 401 ∨ t.statusCode = 407) then
    if t.method = .invite then updateInv fun inv => { inv with inviteTsx := none } else pure ()
  else pure ()

def invRespondIncomingBye (k : Nat) : Routine Unit :=
  if env.createResponse then do
    let sent ← pjsipDlgSendResponse env notify k 200
    let s ← Traced.get
    if sent ∧ s.inv.state ≠ .disconnected then disconnect env notify 200 else pure ()
  else pure ()

/-- Whatever comes back, the session is over. -/
def invHandleByeResponse : Routine Unit := disconnect env notify 200

def invOnStateCalling (k : Nat) (source : Source) : Routine Unit := do
  let s ← Traced.get
  let t ← tsx k
  if s.inv.inviteTsx = some k then
    match t.state with
    | .calling => invSetState env notify .calling
    | .proceeding => do
        if s.inv.pendingCancel then do
          updateInv fun inv => { inv with pendingCancel := false }
          match ← pjsipInvEndSession env 487 with
          | some (some method) => do
              let _ ← pjsipInvSendMsg env notify method
          | _ => pure ()
        else pure ()
        let s ← Traced.get
        if s.remoteTag then invSetState env notify .early else pure ()
    | .completed =>
        if t.statusCode / 100 = 2 then fail .completed2xx
        else handleUacCallRejection env notify k
    | .terminated =>
        if t.statusCode / 100 = 2 then do
          pjAssert (source = .rxMsg) .rxMsg
          invSetState env notify .connecting
          invSendAck env notify k
        else disconnect env notify t.statusCode
    | _ => pure ()
  else if t.role = .uac then
    if (t.statusCode = 481 ∧ t.method ≠ .cancel) ∨ t.statusCode = 408 ∨ t.statusCode = 503 then
      disconnect env notify t.statusCode
    else pure ()
  else pure ()

def invOnStateNull (k : Nat) (source : Source) : Routine Unit := do
  let t ← tsx k
  if t.method = .invite then do
    updateInv fun inv => { inv with
      inviteTsx := if inv.inviteTsx = none then some k else inv.inviteTsx }
    if t.state = .calling then invSetState env notify .calling
    else invOnStateCalling env notify k source
  else fail .tsxType

def invOnStateEarly (k : Nat) (source : Source) : Routine Unit := do
  let s ← Traced.get
  let t ← tsx k
  if s.inv.inviteTsx = some k then
    match t.state with
    | .proceeding => invSetState env notify .early
    | .completed =>
        if t.statusCode / 100 = 2 then invSetState env notify .connecting
        else handleUacCallRejection env notify k
    | .confirmed | .terminated =>
        if t.statusCode / 100 = 2 then do
          invSetState env notify .connecting
          pjAssert (source = .rxMsg) .rxMsg
          invSendAck env notify k
        else disconnect env notify t.statusCode
    | _ => fail .inviteTsxState
  else if t.role = .uac then handleUacTsxResponse env notify k
  else if t.method = .bye ∧ t.statusCode < 200 ∧ source = .rxMsg then do
    invRespondIncomingBye env notify k
    let s ← Traced.get
    match s.inv.inviteTsx with
    | some j => pjsipTsxSetTimeout j
    | none => fail .inviteTsx
  else pure ()

def invOnStateConnecting (k : Nat) (source : Source) : Routine Unit := do
  let s ← Traced.get
  let t ← tsx k
  if s.inv.inviteTsx = some k then
    match t.state with
    | .confirmed =>
        if t.statusCode / 100 = 2 then invSetState env notify .confirmed else pure ()
    | .terminated =>
        if t.statusCode / 100 ≠ 2 then disconnect env notify t.statusCode else pure ()
    | .destroyed => pure ()
    | _ => fail .inviteTsxState
  else if t.role = .uas ∧ t.method = .bye ∧ t.statusCode < 200 ∧ source = .rxMsg then
    invRespondIncomingBye env notify k
  else if t.method = .bye ∧ t.role = .uac ∧ (t.state = .completed ∨ t.state = .terminated) then
    invHandleByeResponse env notify
  else if t.role = .uac then handleUacTsxResponse env notify k
  else pure ()

/-- A second INVITE on the dialog is left out: the client sends one only where Play is clicked
again before Stop. -/
def invOnStateConfirmed (k : Nat) (source : Source) : Routine Unit := do
  let t ← tsx k
  if t.method = .bye ∧ t.role = .uac ∧ (t.state = .completed ∨ t.state = .terminated) then
    invHandleByeResponse env notify
  else if t.method = .bye ∧ t.role = .uas ∧ t.statusCode < 200 ∧ source = .rxMsg then
    invRespondIncomingBye env notify k
  else if t.role = .uac then handleUacTsxResponse env notify k
  else pure ()

def invOnStateDisconnected (k : Nat) (source : Source) : Routine Unit := do
  let t ← tsx k
  if t.role = .uas ∧ t.statusCode < 200 ∧ source = .rxMsg then
    if t.method = .bye then invRespondIncomingBye env notify k else pure ()
  else if t.role = .uac then handleUacTsxResponse env notify k
  else pure ()

def invStateHandler (k : Nat) (source : Source) : Routine Unit := do
  let s ← Traced.get
  match s.inv.state with
  | .null => invOnStateNull env notify k source
  | .calling => invOnStateCalling env notify k source
  | .early => invOnStateEarly env notify k source
  | .connecting => invOnStateConnecting env notify k source
  | .confirmed => invOnStateConfirmed env notify k source
  | .disconnected => invOnStateDisconnected env notify k source

/-- The invite transaction is forgotten when it is over; the source checks this twice, around
a callback that is not set. -/
def modInvOnTsxState (k : Nat) (source : Source) : Routine Unit := do
  let found ← pjsipDlgGetInvSession
  if found then do
    invStateHandler env notify k source
    let t ← tsx k
    updateInv fun inv => { inv with
      inviteTsx := if TsxState.confirmed.rank ≤ t.state.rank ∧ inv.inviteTsx = some k then none
        else inv.inviteTsx }
  else pure ()

/-! ## The user agent layer -/

def pjsipDlgOnTsxState (k : Nat) (source : Source) : Routine Unit :=
  locked do
    modInvOnTsxState env notify k source
    let t ← tsx k
    if t.state = .terminated ∧ t.attached = true then do
      let s ← Traced.get
      pjAssert (0 < s.tsxCount) .tsxCount
      update fun s => { s with tsxCount := s.tsxCount - 1 }
      updateTsx k fun t => { t with attached := false }
    else pure ()

/-- A response is reported on its own before the change of state is. -/
def modUaNotify (k : Nat) (source : Source) : Routine Unit := do
  let t ← tsx k
  if t.attached then do
    if source = .rxMsg ∧ t.role = .uac then
      locked (pjsipDlgOnRxResponse env notify k t.method t.statusCode)
    else pure ()
    pjsipDlgOnTsxState env notify k source
  else pure ()

end Layer

/-- The user of the transactions, as deep as reports of changes may nest. -/
def tsxUser (env : Env) : Nat → Notify
  | 0 => fun _ _ => Traced.halt .exhausted
  | depth + 1 => modUaNotify env (tsxUser env depth)

def nesting : Nat := 3

/-! ## Inputs -/

section Inputs

variable (env : Env)

/-- The INVITE of `sendInvite`. -/
def invite : Routine Unit := do
  let s ← Traced.get
  pjAssert (s.inv.state = .null || s.inv.state = .confirmed) .inviteState
  let _ ← pjsipInvSendMsg env (tsxUser env nesting) .invite

def pjsipInvTerminate (stCode : Nat) : Routine Unit :=
  locked do
    updateInv fun inv => { inv with notify := true }
    let s ← Traced.get
    match s.inv.inviteTsx with
    | some k => do
        let t ← tsx k
        if t.state.rank ≤ TsxState.completed.rank then
          pjsipTsxTerminate (tsxUser env nesting) k stCode
        else pure ()
    | none => pure ()
    invSetCause stCode
    let s ← Traced.get
    if s.inv.state ≠ .disconnected then invSetState env (tsxUser env nesting) .disconnected
    else pure ()

/-- The client ignores the status and passes on what it finds in `tdata`. -/
def sendBye : Routine Unit := do
  match ← pjsipInvEndSession env 603 with
  | none => do
      Traced.emit .unsetTdata
      Traced.halt .invalid
  | some none => fail .tdata
  | some (some method) => do
      let _ ← pjsipInvSendMsg env (tsxUser env nesting) method
  pjsipInvTerminate env 603
  let s ← Traced.get
  pjAssert s.loaded .module
  update fun s => { s with loaded := false }

/-- The next call registers the module again. -/
def pjsipInvUsageInit : Routine Unit := update fun s => { s with loaded := true }

/-- A final response that is no 2xx to an INVITE is acknowledged by the transaction. -/
def tsxOnStateProceedingUac (k code : Nat) : Routine Unit := do
  updateTsx k fun t => { t with statusCode := code }
  let t ← tsx k
  if code / 100 = 1 then tsxSetState (tsxUser env nesting) k .proceeding .rxMsg
  else if code / 100 = 2 then
    if t.method = .invite then do
      updateTsx k fun t => { t with timeoutTimer := false }
      tsxSetState (tsxUser env nesting) k .terminated .rxMsg
    else do
      updateTsx k fun t => { t with timeoutTimer := true }
      tsxSetState (tsxUser env nesting) k .completed .rxMsg
  else do
    updateTsx k fun t => { t with timeoutTimer := false }
    if t.method = .invite ∧ env.finalAckSent = false then do
      updateTsx k fun t => { t with statusCode := 503 }
      tsxSetState (tsxUser env nesting) k .terminated .transportError
    else do
      tsxSetState (tsxUser env nesting) k .completed .rxMsg
      updateTsx k fun t => { t with timeoutTimer := true }

def tsxOnStateCalling (k code : Nat) : Routine Unit := do
  let t ← tsx k
  if 200 ≤ code ∨ t.method = .invite then updateTsx k fun t => { t with timeoutTimer := false }
  else pure ()
  tsxOnStateProceedingUac env k code

/-- A response to a transaction of this side. Once there is a final one, others are dropped. -/
def rxResponse (k code : Nat) : Routine Unit := do
  let t ← tsx k
  match t.state with
  | .calling => tsxOnStateCalling env k code
  | .proceeding => tsxOnStateProceedingUac env k code
  | _ => pure ()

/-- A 2xx to an INVITE whose transaction is over goes straight to the dialog. -/
def rxStray2xx (k : Nat) : Routine Unit :=
  locked (pjsipDlgOnRxResponse env (tsxUser env nesting) k .invite 200)

def timeout (k : Nat) : Routine Unit := do
  let t ← tsx k
  updateTsx k fun t => { t with timeoutTimer := false }
  match t.state with
  | .calling | .proceeding => do
      updateTsx k fun t => { t with statusCode := 408 }
      tsxSetState (tsxUser env nesting) k .terminated .timer
  | .completed => tsxSetState (tsxUser env nesting) k .terminated .timer
  | .terminated => tsxSetState (tsxUser env nesting) k .destroyed .timer
  | _ => pure ()

/-- A message of the transaction was lost: the transport reports it later, and then a final
response stays, or the transaction notices when it repeats the message. -/
def transportError (k : Nat) (posted : Bool) : Routine Unit := do
  updateTsx k fun t => { t with
    statusCode := if posted ∧ 200 ≤ t.statusCode then t.statusCode else 503 }
  tsxSetState (tsxUser env nesting) k .terminated .transportError

def pjsipTsxCreateUas : Routine Nat := do
  let s ← Traced.get
  Traced.set { s with
    tsxs := s.tsxs ++ [newTsx .uas .bye]
    tsxCount := s.tsxCount + 1 }
  return s.tsxs.length

/-- A BYE within the dialog. Without a session behind it, it is answered with 500. -/
def rxBye : Routine Unit :=
  locked do
    locked do
      update fun s => { s with remoteTag := true }
      if env.createUas then do
        let k ← pjsipTsxCreateUas
        let processed ← pjsipDlgGetInvSession
        tsxSetState (tsxUser env nesting) k .trying .rxMsg
        let t ← tsx k
        if processed = false ∧ t.statusCode < 200 ∧ env.createResponse then do
          let _ ← pjsipDlgSendResponse env (tsxUser env nesting) k 500
        else pure ()
      else Traced.emit (.respond 500)

end Inputs

inductive Input where
  | invite (env : Env)
  | stop (env : Env)
  | response (k code : Nat) (env : Env)
  | stray2xx (k : Nat) (env : Env)
  | timeout (k : Nat) (env : Env)
  | transportError (k : Nat) (posted : Bool) (env : Env)
  | bye (env : Env)
  | usageInit

def perform : Input → Routine Unit
  | .invite env => invite env
  | .stop env => sendBye env
  | .response k code env => rxResponse env k code
  | .stray2xx k env => rxStray2xx env k
  | .timeout k env => timeout env k
  | .transportError k posted env => transportError env k posted
  | .bye env => rxBye env
  | .usageInit => pjsipInvUsageInit

/-- The transaction has a message under way. -/
def Tsx.sends (t : Tsx) : Bool :=
  t.state = .calling || t.state = .proceeding || t.state = .completed

/-- What the transactions and the dialog table let happen. A call begins with its INVITE: before
that nobody else knows the dialog. Nothing keeps the user from a Stop. -/
def possible (s : State) : Input → Bool
  | .invite _ => s.tsxs = []
  | .stop _ => true
  | .response k code _ =>
      (s.tsxs[k]?).any (fun t => t.role = .uac && t.sends) && decide (100 ≤ code) &&
        decide (code < 700)
  | .stray2xx k _ =>
      !s.destroyed && (s.tsxs[k]?).any fun t =>
        t.role = .uac && t.method = .invite && decide (TsxState.terminated.rank ≤ t.state.rank)
  | .timeout k _ => (s.tsxs[k]?).any Tsx.timeoutTimer
  | .transportError k _ _ => (s.tsxs[k]?).any Tsx.sends
  | .bye _ => !s.destroyed && !s.tsxs.isEmpty
  | .usageInit => !s.loaded

end SimpleSipClient.Call
