import SimpleSipClient.Foundation.Traced

/-! # The SIP side of the client

The routines of `MediaClient` that call PJSIP. Which of these calls succeed is an input;
what they do to dialogs and invite sessions is taken from their sources. Every use of a
pointer that a call was to set is an event that says what the pointer holds. A call on a
bad pointer is taken to fail, so that the rest of a routine can be followed. The program is
built with `NDEBUG`: a failed `PJ_ASSERT_RETURN` returns, a failed `pj_assert` is passed over.
-/

namespace SimpleSipClient.MediaClient

open Foundation

/-- A local pointer that a call sets through its out-parameter, if it succeeds. -/
inductive OutParam where
  | unset
  | null
  | object
  deriving DecidableEq, Repr

/-- `m_invitedlg` and `m_invsession`, which the constructor does not set. -/
inductive Pointer where
  | unset
  | object (k : Nat)
  deriving DecidableEq, Repr

/-- `pjsip_inv_state` of a session that this side creates. -/
inductive InvState where
  | null
  | calling
  | early
  | connecting
  | confirmed
  | disconnected
  deriving DecidableEq, Repr

/-- `inviteTsx` is the last status code of the INVITE transaction, if there is one. -/
structure InvSession where
  dlg : Nat
  state : InvState
  inviteTsx : Option Nat
  deriving DecidableEq, Repr

/-- `usage` is the invite session that the dialog carries, or has carried last. The counters are
those of the sessions that live and of the transactions that are not over. -/
structure Dialog where
  sessCount : Nat
  tsxCount : Nat
  destroyed : Bool
  usage : Option Nat
  deriving DecidableEq, Repr

inductive Event where
  | useRegc (p : OutParam)
  | useTdata (p : OutParam)
  | useTsx (p : OutParam)
  | useDialog (dlg : Option Dialog) (usageRegistered : Bool)
  | useSession (state : Option InvState)
  deriving DecidableEq, Repr

/-- The members of the client, and below them PJSIP's: the registration of the invite
module, and every dialog and session that was created. -/
structure State where
  invInit : Bool
  invitedlg : Pointer
  invsession : Pointer
  usageRegistered : Bool
  dialogs : List Dialog
  sessions : List InvSession
  deriving DecidableEq, Repr

abbrev Client := Traced Event State

def mediaClient : State where
  invInit := false
  invitedlg := .unset
  invsession := .unset
  usageRegistered := false
  dialogs := []
  sessions := []

def State.dialog (s : State) : Option Dialog :=
  match s.invitedlg with
  | .object k => s.dialogs[k]?
  | .unset => none

def State.session (s : State) : Option InvSession :=
  match s.invsession with
  | .object k => s.sessions[k]?
  | .unset => none

/-- What becomes of a request on its first way to the transport: no transaction is created for
it, it goes out, or the transaction ends at once, with 502 where no address was found. -/
inductive Sent where
  | notCreated
  | sent
  | transportError (resolved : Bool)
  deriving DecidableEq, Repr

/-- `m_invsession` is passed to a call. -/
def useSession : Client Unit := do
  let s ← Traced.get
  Traced.emit (.useSession (s.session.map InvSession.state))

/-! ## Registration -/

/-- `message` is the outcome of the call that creates the request. -/
structure RegcOutcome where
  create : Bool
  init : Bool
  message : Bool
  deriving DecidableEq, Repr

def out (success : Bool) : OutParam := if success then .object else .unset

/-- `regc` has been created by the time it is used; the credentials' status is ignored. -/
def regcRequest (o : RegcOutcome) : Client Unit :=
  if o.create then do
    Traced.emit (.useRegc (out o.create))
    if o.init then do
      Traced.emit (.useRegc (out o.create))
      Traced.emit (.useRegc (out o.create))
      let tdata := out o.message
      Traced.emit (.useRegc (out o.create))
      Traced.emit (.useTdata tdata)
    else pure ()
  else pure ()

/-- `o.message` is the outcome of `pjsip_regc_register`. -/
def registerClient (o : RegcOutcome) : Client Unit := regcRequest o

/-- `o.message` is the outcome of `pjsip_regc_unregister`. -/
def unregisterClient (o : RegcOutcome) : Client Unit := regcRequest o

/-! ## Messages outside a dialog -/

/-- `pjsip_endpt_create_request`, the two content type members, `pjsip_endpt_send_request`. -/
def endptRequest (created : Bool) : Client Unit := do
  let tdata := out created
  Traced.emit (.useTdata tdata)
  Traced.emit (.useTdata tdata)
  Traced.emit (.useTdata tdata)

def queryDeviveInfo (created : Bool) : Client Unit := endptRequest created

def sendKeepAlive (created : Bool) : Client Unit := endptRequest created

/-! ## Received requests -/

inductive Method where
  | invite
  | cancel
  | ack
  | bye
  | register
  | options
  | other
  deriving DecidableEq, Repr

/-- The outcomes for a request that is not refused for its method. -/
structure RxOutcome where
  createUas : Bool
  createResponse : Bool
  deriving DecidableEq, Repr

/-- Neither a transaction nor a response is created for an ACK. -/
def onRxRequest (method : Method) (o : RxOutcome) : Client Unit := do
  let tsx := out (method ≠ .ack && o.createUas)
  Traced.emit (.useTsx tsx)
  let tdata := out (method ≠ .ack && o.createResponse)
  Traced.emit (.useTsx tsx)
  Traced.emit (.useTdata tdata)

/-! ## Dialogs and sessions -/

def newDialog : Dialog where
  sessCount := 0
  tsxCount := 0
  destroyed := false
  usage := none

/-- The end of `pjsip_dlg_dec_lock`: a dialog with nothing left to count is destroyed. -/
def Dialog.decLock (dlg : Dialog) : Dialog :=
  if dlg.sessCount = 0 ∧ dlg.tsxCount = 0 then { dlg with destroyed := true } else dlg

def Dialog.decSession (dlg : Dialog) : Dialog :=
  { dlg with sessCount := dlg.sessCount - 1 }.decLock

def Dialog.newTsx (dlg : Dialog) : Dialog := { dlg with tsxCount := dlg.tsxCount + 1 }

def Dialog.tsxOver (dlg : Dialog) : Dialog :=
  { dlg with tsxCount := dlg.tsxCount - 1 }.decLock

/-- A change of a session and of the dialog under it. -/
def State.change (k : Nat) (f : InvSession → InvSession) (g : InvSession → Dialog → Dialog)
    (s : State) : State :=
  match s.sessions[k]? with
  | some x => { s with
      sessions := s.sessions.modify k f
      dialogs := s.dialogs.modify x.dlg (g x) }
  | none => s

/-- The same for the session behind `m_invsession`. -/
def State.changeCurrent (f : InvSession → InvSession) (g : InvSession → Dialog → Dialog)
    (s : State) : State :=
  match s.invsession with
  | .object k => s.change k f g
  | .unset => s

def InvSession.calling (x : InvSession) : InvSession :=
  { x with state := .calling, inviteTsx := some 0 }

/-- The session is destroyed; what is left of its transactions is the dialog's. -/
def InvSession.disconnected (x : InvSession) : InvSession :=
  { x with state := .disconnected, inviteTsx := none }

/-! ## INVITE -/

/-- The outcomes of the calls under `sendInvite` where their own checks pass. -/
structure InviteOutcome where
  usageInit : Bool
  dlgCreateUac : Bool
  invCreateUac : Bool
  invInvite : Bool
  invSendMsg : Sent
  deriving DecidableEq, Repr

/-- The module must not be registered already. -/
def pjsipInvUsageInit (success : Bool) : Client Bool := do
  let s ← Traced.get
  if s.usageRegistered = false ∧ success then
    Traced.set { s with usageRegistered := true }
    return true
  else return false

def pjsipDlgCreateUac (success : Bool) : Client Bool := do
  let s ← Traced.get
  if success then
    Traced.set { s with
      dialogs := s.dialogs ++ [newDialog]
      invitedlg := .object s.dialogs.length }
    return true
  else return false

def initInvParam (o : InviteOutcome) : Client Bool := do
  let s ← Traced.get
  if s.invInit then return true
  else if ← pjsipInvUsageInit o.usageInit then
    if ← pjsipDlgCreateUac o.dlgCreateUac then
      let s ← Traced.get
      Traced.set { s with invInit := true }
      return true
    else return false
  else return false

/-- A usage that the dialog carries already is replaced. Where the call fails, giving back its
lock destroys a dialog that nothing else holds. -/
def pjsipInvCreateUac (success : Bool) : Client Bool := do
  let s ← Traced.get
  Traced.emit (.useDialog s.dialog s.usageRegistered)
  match s.invitedlg, s.dialog with
  | .object d, some dlg =>
      if dlg.destroyed = false ∧ s.usageRegistered = true ∧ success then
        Traced.set { s with
          dialogs := s.dialogs.modify d fun x => { x with
            sessCount := x.sessCount + 1
            usage := some s.sessions.length }
          sessions := s.sessions ++ [{ dlg := d, state := .null, inviteTsx := none }]
          invsession := .object s.sessions.length }
        return true
      else do
        Traced.set { s with dialogs := s.dialogs.modify d Dialog.decLock }
        return false
  | _, _ => return false

/-- The INVITE goes out and the session waits for a response; or its transaction is over at
once, and the session with it. -/
def sendMsgInvite (fate : Sent) (tdata : OutParam) : Client Unit := do
  useSession
  Traced.emit (.useTdata tdata)
  let s ← Traced.get
  match fate with
  | .notCreated => pure ()
  | .sent => Traced.set (s.changeCurrent InvSession.calling fun _ => Dialog.newTsx)
  | .transportError _ =>
      Traced.set (s.changeCurrent InvSession.disconnected fun _ => Dialog.decSession)

def sendInvite (o : InviteOutcome) : Client Bool := do
  if ← initInvParam o then
    if ← pjsipInvCreateUac o.invCreateUac then
      useSession
      let tdata := out o.invInvite
      if o.invInvite then
        Traced.emit (.useTdata tdata)
        sendMsgInvite o.invSendMsg tdata
        return true
      else return false
    else return false
  else return false

/-! ## BYE -/

structure ByeOutcome where
  createCancel : Bool
  createRequest : Bool
  invSendMsg : Sent
  deriving DecidableEq, Repr

/-- What `pjsip_inv_end_session` leaves in its out-parameter for a session that this side
created. CANCEL waits for a provisional response, with success and a null message. -/
def pjsipInvEndSession (o : ByeOutcome) (inv : Option InvSession) : OutParam :=
  match inv with
  | none => .unset
  | some x =>
      match x.state with
      | .calling | .early =>
          match x.inviteTsx with
          | none => .unset
          | some statusCode => if statusCode < 100 then .null else out o.createCancel
      | .connecting | .confirmed => out o.createRequest
      | .disconnected | .null => .unset

/-- What the session makes of a CANCEL or BYE whose transaction is over at once. A BYE ends it
with any status, a CANCEL before an early dialog ends it with 503. -/
def InvSession.lostMessage (resolved : Bool) (x : InvSession) : Bool :=
  match x.state with
  | .calling => resolved
  | .connecting | .confirmed => true
  | .early | .disconnected | .null => false

/-- Of a CANCEL or BYE. -/
def pjsipInvSendMsg (fate : Sent) (tdata : OutParam) : Client Unit := do
  useSession
  Traced.emit (.useTdata tdata)
  let s ← Traced.get
  match tdata, fate with
  | .object, .sent => Traced.set (s.changeCurrent id fun _ => Dialog.newTsx)
  | .object, .transportError resolved =>
      Traced.set (s.changeCurrent
        (fun x => if x.lostMessage resolved then x.disconnected else x)
        (fun x => if x.lostMessage resolved then Dialog.decSession else id))
  | _, _ => pure ()

/-- An INVITE transaction that is still there is terminated, a session that lives is ended. -/
def pjsipInvTerminate : Client Unit := do
  useSession
  let s ← Traced.get
  Traced.set (s.changeCurrent InvSession.disconnected fun x dlg =>
    if x.state = .disconnected then dlg
    else if x.inviteTsx.isSome then dlg.tsxOver.decSession else dlg.decSession)

def sendBye (o : ByeOutcome) : Client Unit := do
  useSession
  let s ← Traced.get
  let tdata := pjsipInvEndSession o s.session
  pjsipInvSendMsg o.invSendMsg tdata
  pjsipInvTerminate
  let s ← Traced.get
  Traced.set { s with usageRegistered := false, invInit := false }

end SimpleSipClient.MediaClient
