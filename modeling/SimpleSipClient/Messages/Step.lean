import SimpleSipClient.Messages.Source

/-! # What each routine prints and sends

The events of a routine in closed form: first the prints, then, if the PJSIP calls
succeed, the request made of them. A registration stops at the first address that does
not fit.
-/

namespace SimpleSipClient.Messages

open Foundation
open MediaClient (RegcOutcome InviteOutcome)

/-! ## Prints -/

def printEvent (buffer : Buffer) (size : Nat) (ps : List Piece) : Event :=
  .format buffer size ps (bounded size ps)

theorem snprintf_run (buffer : Buffer) (size : Nat) (ps : List Piece) (s : State) :
    snprintf buffer size ps s = ⟨[printEvent buffer size ps], .ok (bounded size ps, s)⟩ := rfl

section Uris

variable (t : TransportContext)

def fromUri : List Piece := uri t.fromID t.fromIP t.fromPort.toNat
def contactUri : List Piece := uri t.fromID t.fromIP t.contactPort.toNat
def toUri : List Piece := uri t.toID t.toIP t.toPort.toNat

def uriEvents : List Event :=
  [printEvent .fromstr 64 (fromUri t), printEvent .contactstr 64 (contactUri t),
    printEvent .targetstr 64 (toUri t), printEvent .tostr 64 (toUri t)]

theorem printUris_run (s : State) :
    printUris t s = ⟨uriEvents t, .ok (⟨bounded 64 (fromUri t), bounded 64 (contactUri t),
      bounded 64 (toUri t), bounded 64 (toUri t)⟩, s)⟩ := rfl

end Uris

/-! ## Registration -/

section Registration

variable (unregister : Bool) (o : RegcOutcome) (p : SIPClient)

def localAddr : List Piece := nameAddr p.localDeviceID p.localAddress p.localSipPort.toNat
def dstAddr : List Piece := nameAddr p.sipserverID p.sipserverAddress p.sipserverPort.toNat

def localEvent : Event := .format .localstr 64 (localAddr p) (printed (localAddr p))
def dstEvent : Event := .format .dststr 64 (dstAddr p) (printed (dstAddr p))

def registerRequest : RegisterRequest where
  unregister := unregister
  srvUrl := printed (dstAddr p)
  fromUrl := printed (localAddr p)
  toUrl := printed (localAddr p)
  contact := printed (localAddr p)
  expires := p.regValidSeconds
  username := bounded 64 [.string p.localDeviceID]
  passwd := bounded 64 [.string p.localPasswd]

def credentialEvents : List Event :=
  [printEvent .username 64 [.string p.localDeviceID],
    printEvent .passwd 64 [.string p.localPasswd]]

/-- What follows the two addresses. -/
def regcEvents : List Event :=
  if o.init then
    credentialEvents p ++ if o.message then [.register (registerRequest unregister p)] else []
  else []

theorem sprintf_bind {α : Type} (buffer : Buffer) (size : Nat) (ps : List Piece)
    (f : Text → Client α) (s : State) :
    (sprintf buffer size ps >>= f) s =
      if (printed ps).length < size then
        ⟨.format buffer size ps (printed ps) :: (f (printed ps) s).events,
          (f (printed ps) s).outcome⟩
      else ⟨[.format buffer size ps (printed ps)], .error .invalid⟩ := by
  rw [Traced.bind_run, sprintf, Traced.emit_bind, Traced.ite_run]
  by_cases hfits : (printed ps).length < size
  · simp [hfits]
  · simp [hfits]

theorem regcRequest_events (s : State) :
    (regcRequest unregister o p s).events =
      if o.create then
        if (printed (localAddr p)).length < 64 then
          if (printed (dstAddr p)).length < 64 then
            localEvent p :: dstEvent p :: regcEvents unregister o p
          else [localEvent p, dstEvent p]
        else [localEvent p]
      else [] := by
  rw [regcRequest, Traced.ite_run]
  cases o.create with
  | false => rfl
  | true =>
      rw [if_pos rfl, if_pos rfl, sprintf_bind, sprintf_bind, ← localAddr, ← dstAddr]
      by_cases hlocal : (printed (localAddr p)).length < 64
      · by_cases hdst : (printed (dstAddr p)).length < 64
        · rw [if_pos hlocal, if_pos hlocal, if_pos hdst, if_pos hdst, regcEvents]
          cases o.init with
          | false => rfl
          | true => cases o.message <;> rfl
        · rw [if_pos hlocal, if_pos hlocal, if_neg hdst, if_neg hdst]
          rfl
      · rw [if_neg hlocal, if_neg hlocal]
        rfl

end Registration

/-! ## INVITE -/

def newDialog (t : TransportContext) : Dialog where
  localUri := bounded 64 (fromUri t)
  remoteUri := bounded 64 (toUri t)

section Invite

variable (o : InviteOutcome) (s : State)

def initEvents : List Event :=
  if s.invInit then []
  else if o.usageInit then
    uriEvents s.tsxContext ++ [.createDialog (newDialog s.tsxContext)]
  else []

def initOk : Bool := s.invInit || (o.usageInit && o.dlgCreateUac)

def initState : State :=
  if s.invInit = false ∧ initOk o s = true then
    { s with invitedlg := some (newDialog s.tsxContext), invInit := true }
  else s

theorem initInvParam_run :
    initInvParam o s.tsxContext s = ⟨initEvents o s, .ok (initOk o s, initState o s)⟩ := by
  rw [initInvParam, Traced.get_bind, Traced.ite_run, initEvents, initState, initOk]
  cases hinit : s.invInit with
  | true => rfl
  | false =>
      have hfalse : ¬ false = true := by decide
      rw [if_neg hfalse, if_neg hfalse, Traced.ite_run]
      cases o.usageInit with
      | false => rfl
      | true =>
          rw [if_pos rfl, if_pos rfl, Traced.bind_run, printUris_run]
          simp only [Traced.emit_bind, Traced.ite_run]
          cases o.dlgCreateUac <;> rfl

variable (deviceid mediaRecvIp : Text) (mediaRecvPort : UInt16)

def sdpPieces : List Piece := playSDP deviceid mediaRecvIp mediaRecvPort.toNat

def subjectPieces : List Piece := subject s.sipClientparam.localDeviceID deviceid

def inviteEvents : List Event :=
  printEvent .str 512 (sdpPieces deviceid mediaRecvIp mediaRecvPort) ::
    printEvent .subjectUrl 128 (subjectPieces s deviceid) ::
      if o.invSendMsg = .sent then
        [.invite (initState o s).invitedlg
          (bounded 512 (sdpPieces deviceid mediaRecvIp mediaRecvPort))
          (bounded 128 (subjectPieces s deviceid))]
      else []

theorem sendInvite_events :
    (sendInvite o deviceid mediaRecvIp mediaRecvPort s).events =
      initEvents o s ++
        if initOk o s && (o.invCreateUac && o.invInvite) then
          inviteEvents o s deviceid mediaRecvIp mediaRecvPort
        else [] := by
  rw [sendInvite, Traced.get_bind, Traced.bind_run, initInvParam_run]
  simp only [Traced.ite_run]
  cases initOk o s with
  | false => rfl
  | true =>
      cases o.invCreateUac with
      | false => rfl
      | true =>
          cases o.invInvite with
          | false => rfl
          | true =>
              rw [inviteEvents]
              cases hsend : o.invSendMsg <;>
                simp [createPlaySDP, Traced.bind_run, snprintf_run, sdpPieces, subjectPieces]

end Invite

/-! ## Messages outside a dialog -/

section Requests

variable (created : Bool) (body : List Piece) (s : State)

def messageRequest : MessageRequest where
  targetstr := bounded 64 (toUri s.tsxContext)
  fromstr := bounded 64 (fromUri s.tsxContext)
  tostr := bounded 64 (toUri s.tsxContext)
  contactstr := bounded 64 (contactUri s.tsxContext)
  text := bounded 256 body

theorem endptRequest_run :
    endptRequest created body s =
      ⟨uriEvents s.tsxContext ++ printEvent .querInfo 256 body ::
          if created then [.message (messageRequest body s)] else [],
        if created then .ok ((), s) else .error .invalid⟩ := by
  cases created <;> rfl

end Requests

end SimpleSipClient.Messages
