import SimpleSipClient.MediaClient.Source

/-! # One call of the SIP side

Closed forms of the calls under `sendInvite` and of `sendBye`. All of them return; what
they leave behind depends on the outcomes and on what PJSIP checks itself.
-/

namespace SimpleSipClient.MediaClient

open Foundation

/-! ## Changes of a session and its dialog -/

@[simp] theorem Dialog.decLock_usage (dlg : Dialog) : dlg.decLock.usage = dlg.usage := by
  rw [Dialog.decLock]
  split <;> rfl

theorem Dialog.decLock_destroyed {dlg : Dialog} (h : dlg.destroyed = true) :
    dlg.decLock.destroyed = true := by
  rw [Dialog.decLock]
  split
  · rfl
  · exact h

section Changes

variable {s : State} {k : Nat} {x : InvSession}
variable {f : InvSession → InvSession} {g : InvSession → Dialog → Dialog}

theorem change_frame (s : State) (k : Nat) (f : InvSession → InvSession)
    (g : InvSession → Dialog → Dialog) : (s.change k f g).invInit = s.invInit ∧
      (s.change k f g).invitedlg = s.invitedlg ∧ (s.change k f g).invsession = s.invsession ∧
        (s.change k f g).usageRegistered = s.usageRegistered := by
  rw [State.change]
  split <;> exact ⟨rfl, rfl, rfl, rfl⟩

theorem change_sessions (s : State) (k : Nat) (f : InvSession → InvSession)
    (g : InvSession → Dialog → Dialog) :
    (s.change k f g).sessions = s.sessions.modify k f := by
  rw [State.change]
  split
  · rfl
  · exact (List.modify_eq_self (List.getElem?_eq_none_iff.mp ‹_›)).symm

theorem changeCurrent_eq (hptr : s.invsession = .object k) :
    s.changeCurrent f g = s.change k f g := by
  rw [State.changeCurrent, hptr]

theorem changeCurrent_session (hs : s.session = some x) :
    (s.changeCurrent f g).session = some (f x) := by
  cases hptr : s.invsession with
  | unset => simp [State.session, hptr] at hs
  | object k =>
      rw [State.session, hptr] at hs
      rw [changeCurrent_eq hptr, State.session, (change_frame s k f g).2.2.1, hptr]
      simp [change_sessions, hs]

end Changes

/-! ## INVITE -/

/-- The result of `initInvParam` and the state after it. -/
def afterInit (o : InviteOutcome) (s : State) : Bool × State :=
  if s.invInit then (true, s)
  else if s.usageRegistered = false ∧ o.usageInit then
    if o.dlgCreateUac then
      (true, { s with
        usageRegistered := true
        dialogs := s.dialogs ++ [newDialog]
        invitedlg := .object s.dialogs.length
        invInit := true })
    else (false, { s with usageRegistered := true })
  else (false, s)

theorem pjsipInvUsageInit_run (success : Bool) (s : State) :
    pjsipInvUsageInit success s =
      if s.usageRegistered = false ∧ success then
        ⟨[], .ok (true, { s with usageRegistered := true })⟩
      else ⟨[], .ok (false, s)⟩ := by
  rw [pjsipInvUsageInit, Traced.get_bind, Traced.ite_run]
  split
  · rw [Traced.set_bind]
    rfl
  · rfl

theorem pjsipDlgCreateUac_run (success : Bool) (s : State) :
    pjsipDlgCreateUac success s =
      if success then
        ⟨[], .ok (true, { s with
          dialogs := s.dialogs ++ [newDialog]
          invitedlg := .object s.dialogs.length })⟩
      else ⟨[], .ok (false, s)⟩ := by
  rw [pjsipDlgCreateUac, Traced.get_bind, Traced.ite_run]
  split
  · rw [Traced.set_bind]
    rfl
  · rfl

theorem initInvParam_run (o : InviteOutcome) (s : State) :
    initInvParam o s = ⟨[], .ok (afterInit o s)⟩ := by
  rw [initInvParam, Traced.get_bind, Traced.ite_run, afterInit]
  cases hinit : s.invInit with
  | true => rfl
  | false =>
      rw [if_neg (by simp), if_neg (by simp), Traced.bind_run, pjsipInvUsageInit_run]
      by_cases husage : s.usageRegistered = false ∧ o.usageInit = true
      · rw [if_pos husage, if_pos husage]
        simp only [if_true]
        rw [Traced.bind_run, pjsipDlgCreateUac_run]
        cases o.dlgCreateUac with
        | false => simp [hinit]
        | true => simp [Traced.get_bind, Traced.set_bind]
      · rw [if_neg husage, if_neg husage]
        rfl

/-- `m_invitedlg` is a dialog that a session can be created on, as far as PJSIP checks it. -/
def State.accepts (s : State) (success : Bool) : Bool :=
  s.dialog.any (fun dlg => !dlg.destroyed) && s.usageRegistered && success

/-- The state with a new session on the dialog `d`. -/
def State.withNewSession (s : State) (d : Nat) : State :=
  { s with
    dialogs := s.dialogs.modify d fun x => { x with
      sessCount := x.sessCount + 1
      usage := some s.sessions.length }
    sessions := s.sessions ++ [{ dlg := d, state := .null, inviteTsx := none }]
    invsession := .object s.sessions.length }

def State.created (s : State) : State :=
  match s.invitedlg with
  | .object d => s.withNewSession d
  | .unset => s

/-- The state after a creation that failed. -/
def State.notCreated (s : State) : State :=
  match s.invitedlg with
  | .object d => { s with dialogs := s.dialogs.modify d Dialog.decLock }
  | .unset => s

theorem pjsipInvCreateUac_run (success : Bool) (s : State) :
    pjsipInvCreateUac success s =
      ⟨[.useDialog s.dialog s.usageRegistered],
        .ok (if s.accepts success then (true, s.created) else (false, s.notCreated))⟩ := by
  rw [pjsipInvCreateUac, Traced.get_bind, Traced.emit_bind, State.created, State.notCreated]
  cases hptr : s.invitedlg with
  | unset => simp [State.accepts, State.dialog, hptr]
  | object d =>
      cases hdlg : s.dialog with
      | none =>
          have hnone : s.dialogs[d]? = none := by simpa [State.dialog, hptr] using hdlg
          have hsame : s.dialogs.modify d Dialog.decLock = s.dialogs :=
            List.modify_eq_self (List.getElem?_eq_none_iff.mp hnone)
          have hclosed : s.accepts success = false := by simp [State.accepts, hdlg]
          simp only [hclosed, hsame, Bool.false_eq_true, if_false]
          rw [← hptr]
          rfl
      | some dlg =>
          have haccepts : s.accepts success = true ↔
              dlg.destroyed = false ∧ s.usageRegistered = true ∧ success = true := by
            simp [State.accepts, hdlg, and_assoc]
          simp only [Traced.ite_run, Traced.set_bind, haccepts]
          split
          · simp [State.withNewSession, hptr]
          · simp

theorem session_created {s : State} {success : Bool} (h : s.accepts success = true) :
    ∃ d, s.invitedlg = .object d ∧ s.created = s.withNewSession d ∧
      s.created.session = some { dlg := d, state := .null, inviteTsx := none } := by
  cases hptr : s.invitedlg with
  | unset => simp [State.accepts, State.dialog, hptr] at h
  | object d =>
      have hcreated : s.created = s.withNewSession d := by rw [State.created, hptr]
      refine ⟨d, rfl, hcreated, ?_⟩
      rw [hcreated]
      simp [State.session, State.withNewSession]

/-- The INVITE of a fresh session, as far as it gets. -/
def inviteEvents (o : InviteOutcome) : List Event :=
  if o.invInvite then
    [.useSession (some .null), .useTdata .object, .useSession (some .null), .useTdata .object]
  else [.useSession (some .null)]

/-- What becomes of the session of an INVITE. -/
def State.inviteSent (fate : Sent) (s : State) : State :=
  match fate with
  | .notCreated => s
  | .sent => s.changeCurrent InvSession.calling fun _ => Dialog.newTsx
  | .transportError _ => s.changeCurrent InvSession.disconnected fun _ => Dialog.decSession

def State.invited (o : InviteOutcome) (s : State) : State :=
  if o.invInvite then s.inviteSent o.invSendMsg else s

theorem sendMsgInvite_run (fate : Sent) (tdata : OutParam) (s : State) :
    sendMsgInvite fate tdata s =
      ⟨[.useSession (s.session.map InvSession.state), .useTdata tdata],
        .ok ((), s.inviteSent fate)⟩ := by
  cases fate <;> rfl

/-- What `sendInvite` does once the session is there. -/
theorem invite_run (o : InviteOutcome) {s : State} {x : InvSession} (hs : s.session = some x)
    (hx : x.state = .null) :
    (do
      useSession
      let tdata := out o.invInvite
      if o.invInvite then
        Traced.emit (.useTdata tdata)
        sendMsgInvite o.invSendMsg tdata
        return true
      else return false : Client Bool) s =
      ⟨inviteEvents o, .ok (o.invInvite, s.invited o)⟩ := by
  have huse : useSession s = ⟨[.useSession (some .null)], .ok ((), s)⟩ := by
    rw [useSession, Traced.get_bind, hs, Option.map_some, hx]
    rfl
  rw [Traced.bind_run, huse]
  simp only [Traced.ite_run]
  cases hinv : o.invInvite with
  | false => simp [inviteEvents, State.invited, hinv]
  | true =>
      rw [if_pos rfl, Traced.emit_bind, Traced.bind_run, sendMsgInvite_run, hs]
      simp [inviteEvents, State.invited, hinv, hx, out]

/-- All there is to `sendInvite`: its events and the state after it. -/
def played (o : InviteOutcome) (s : State) : List Event × State :=
  if (afterInit o s).1 then
    if (afterInit o s).2.accepts o.invCreateUac then
      (.useDialog (afterInit o s).2.dialog (afterInit o s).2.usageRegistered :: inviteEvents o,
        (afterInit o s).2.created.invited o)
    else
      ([.useDialog (afterInit o s).2.dialog (afterInit o s).2.usageRegistered],
        (afterInit o s).2.notCreated)
  else ([], (afterInit o s).2)

/-- What `sendInvite` returns. -/
def accepted (o : InviteOutcome) (s : State) : Bool :=
  (afterInit o s).1 && ((afterInit o s).2.accepts o.invCreateUac && o.invInvite)

theorem sendInvite_run (o : InviteOutcome) (s : State) :
    sendInvite o s = ⟨(played o s).1, .ok (accepted o s, (played o s).2)⟩ := by
  rw [sendInvite, Traced.bind_run, initInvParam_run, played, accepted]
  rcases afterInit o s with ⟨ok, t⟩
  cases ok with
  | false => rfl
  | true =>
      simp only [if_true]
      rw [Traced.bind_run, pjsipInvCreateUac_run]
      cases haccepts : t.accepts o.invCreateUac with
      | false => rfl
      | true =>
          rcases session_created haccepts with ⟨d, -, -, hsession⟩
          simp only [if_true]
          rw [invite_run o hsession rfl]
          rfl

/-! ## BYE -/

/-- What becomes of the session of a CANCEL or BYE. -/
def State.byeSent (tdata : OutParam) (fate : Sent) (s : State) : State :=
  match tdata, fate with
  | .object, .sent => s.changeCurrent id fun _ => Dialog.newTsx
  | .object, .transportError resolved =>
      s.changeCurrent
        (fun x => if x.lostMessage resolved then x.disconnected else x)
        (fun x => if x.lostMessage resolved then Dialog.decSession else id)
  | _, _ => s

def State.terminated (s : State) : State :=
  s.changeCurrent InvSession.disconnected fun x dlg =>
    if x.state = .disconnected then dlg
    else if x.inviteTsx.isSome then dlg.tsxOver.decSession else dlg.decSession

/-- The state in which the session is terminated. -/
def State.hungUp (o : ByeOutcome) (s : State) : State :=
  s.byeSent (pjsipInvEndSession o s.session) o.invSendMsg

def InvSession.endsWith (tdata : OutParam) (fate : Sent) (x : InvSession) : Bool :=
  match tdata, fate with
  | .object, .transportError resolved => x.lostMessage resolved
  | _, _ => false

/-- The CANCEL or BYE of a Stop ends the session before it is terminated. -/
def ByeOutcome.breaks (o : ByeOutcome) (x : InvSession) : Bool :=
  x.endsWith (pjsipInvEndSession o (some x)) o.invSendMsg

section Bye

variable {s : State} {x : InvSession} (o : ByeOutcome)

/-- The last message changes the session only where it breaks it. -/
theorem byeSent_cases (s : State) (x : InvSession) (tdata : OutParam) (fate : Sent) :
    (x.endsWith tdata fate = false ∧ (s.byeSent tdata fate = s ∨
        ∃ g, s.byeSent tdata fate = s.changeCurrent id g)) ∨
      ∃ f g, s.byeSent tdata fate = s.changeCurrent f g ∧
        f x = if x.endsWith tdata fate then x.disconnected else x := by
  cases tdata with
  | unset => exact .inl ⟨rfl, .inl rfl⟩
  | null => exact .inl ⟨rfl, .inl rfl⟩
  | object =>
      cases fate with
      | notCreated => exact .inl ⟨rfl, .inl rfl⟩
      | sent => exact .inl ⟨rfl, .inr ⟨_, rfl⟩⟩
      | transportError resolved => exact .inr ⟨_, _, rfl, rfl⟩

theorem hungUp_cases (hs : s.session = some x) :
    (o.breaks x = false ∧ (s.hungUp o = s ∨ ∃ g, s.hungUp o = s.changeCurrent id g)) ∨
      ∃ f g, s.hungUp o = s.changeCurrent f g ∧
        f x = if o.breaks x then x.disconnected else x := by
  rw [State.hungUp, hs]
  exact byeSent_cases s x _ _

theorem hungUp_session (hs : s.session = some x) :
    (s.hungUp o).session = some (if o.breaks x then x.disconnected else x) := by
  rcases hungUp_cases o hs with ⟨hbreaks, heq | ⟨g, heq⟩⟩ | ⟨f, g, heq, hf⟩
  · rw [heq, hs, hbreaks]
    rfl
  · rw [heq, changeCurrent_session hs, hbreaks]
    rfl
  · rw [heq, changeCurrent_session hs, hf]

end Bye

def byeEvents (o : ByeOutcome) (s : State) : List Event :=
  [.useSession (s.session.map InvSession.state), .useSession (s.session.map InvSession.state),
    .useTdata (pjsipInvEndSession o s.session),
    .useSession ((s.hungUp o).session.map InvSession.state)]

theorem pjsipInvSendMsg_run (fate : Sent) (tdata : OutParam) (s : State) :
    pjsipInvSendMsg fate tdata s =
      ⟨[.useSession (s.session.map InvSession.state), .useTdata tdata],
        .ok ((), s.byeSent tdata fate)⟩ := by
  cases tdata <;> cases fate <;> rfl

theorem sendBye_run (o : ByeOutcome) (s : State) :
    sendBye o s = ⟨byeEvents o s,
      .ok ((), { (s.hungUp o).terminated with usageRegistered := false, invInit := false })⟩ := by
  have huse (t : State) : useSession t =
      ⟨[.useSession (t.session.map InvSession.state)], .ok ((), t)⟩ := rfl
  have hterminate (t : State) : pjsipInvTerminate t =
      ⟨[.useSession (t.session.map InvSession.state)], .ok ((), t.terminated)⟩ := rfl
  rw [sendBye, Traced.bind_run, huse]
  simp only
  rw [Traced.get_bind, Traced.bind_run, pjsipInvSendMsg_run]
  simp only
  rw [Traced.bind_run, hterminate]
  rfl

end SimpleSipClient.MediaClient
