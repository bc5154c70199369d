import SimpleSipClient.Foundation.Runs
import SimpleSipClient.Foundation.Table
import SimpleSipClient.MediaClient.Step

/-! # INVITE and BYE on live objects

Play calls `sendInvite`, Stop calls `sendBye`; in between the remote side answers,
rejects or hangs up, and PJSIP destroys what is over without telling the client, whose
state callback only writes a log line. The clicks that work are told by a monitor: a
session is created, ended by a Stop while it lives, and only then may the next one be
created. What the two slots do to the receiver is left out here.
-/

namespace SimpleSipClient.MediaClient

open Foundation

/-- What the remote side does to a session, time-outs included. `toTag` belongs to the
response; a 2xx may come again. With `tsxOver` a transaction is over that the session does not
wait for. -/
inductive RemoteEvent where
  | provisional (statusCode : Nat) (toTag : Bool)
  | answered
  | rejected
  | timedOut
  | bye
  | tsxOver
  deriving DecidableEq, Repr

def InvSession.waits (x : InvSession) : Bool := x.state = .calling || x.state = .early

/-- The first 2xx is acknowledged by the client's callback, the next one by the session itself,
which counts as confirmed from then on. -/
def RemoteEvent.session (e : RemoteEvent) (x : InvSession) : InvSession :=
  match e with
  | .provisional statusCode toTag => { x with
      state := if 100 < statusCode ∧ toTag = true then .early else x.state
      inviteTsx := some statusCode }
  | .answered => { x with
      state := if x.waits then .connecting else .confirmed
      inviteTsx := none }
  | .rejected | .timedOut | .bye => x.disconnected
  | .tsxOver => x

/-- A rejected INVITE and an answered BYE stay with the dialog until their timers are over. -/
def RemoteEvent.dialog (e : RemoteEvent) (x : InvSession) : Dialog → Dialog :=
  match e with
  | .provisional _ _ => id
  | .answered => if x.waits then Dialog.tsxOver else id
  | .rejected => Dialog.decSession
  | .timedOut => fun dlg => dlg.decSession.tsxOver
  | .bye => fun dlg => dlg.newTsx.decSession
  | .tsxOver => Dialog.tsxOver

inductive Input where
  | play (o : InviteOutcome)
  | stop (o : ByeOutcome)
  | remote (k : Nat) (e : RemoteEvent)
  deriving DecidableEq, Repr

/-- What PJSIP makes of it; `call_on_state_changed` changes nothing. -/
def receive (k : Nat) (e : RemoteEvent) : Client Unit := do
  let s ← Traced.get
  Traced.set (s.change k e.session e.dialog)

def perform : Input → Client Unit
  | .play o => do
      let _ ← sendInvite o
  | .stop o => sendBye o
  | .remote k e => receive k e

/-- The dialog of the session counts more transactions than there are INVITEs to wait for. -/
def State.lingers (s : State) (x : InvSession) : Bool :=
  (s.dialogs[x.dlg]?).any fun dlg =>
    decide (s.sessions.countP (fun y => y.dlg = x.dlg && y.inviteTsx.isSome) < dlg.tsxCount)

/-- A BYE before there is an early dialog is not answered. -/
def possible (s : State) : Input → Bool
  | .remote k (.provisional statusCode _) =>
      (s.sessions[k]?).any InvSession.waits && decide (100 ≤ statusCode) &&
        decide (statusCode < 200)
  | .remote k .answered => (s.sessions[k]?).any fun x => x.waits || x.state = .connecting
  | .remote k .rejected | .remote k .timedOut => (s.sessions[k]?).any InvSession.waits
  | .remote k .bye => (s.sessions[k]?).any fun x =>
      x.state = .early || x.state = .connecting || x.state = .confirmed
  | .remote k .tsxOver => (s.sessions[k]?).any s.lingers
  | _ => true

/-- The dialog is alive and carries no session. -/
def Unused (dlg : Option Dialog) : Prop :=
  ∃ d, dlg = some d ∧ d.destroyed = false ∧ d.usage = none

/-- A dialog is used for a new session only while it is alive and unused, with the module
registered; a session is used only between its creation and its end. -/
def Event.onLive : Event → Prop
  | .useDialog dlg usageRegistered => Unused dlg ∧ usageRegistered = true
  | .useSession state => ∃ x, state = some x ∧ x ≠ .disconnected
  | _ => True

/-! ## The clicks that work -/

/-- How far the client is: before the first Play or after a Stop; with the module registered
but no dialog; with a session that lives, on whatever dialog; with a dialog whose session is
over or was never created. -/
inductive Progress where
  | idle
  | refused
  | talking (x : InvSession)
  | ended
  deriving DecidableEq, Repr

def Progress.ofSession (x : InvSession) : Progress :=
  if x.state = .disconnected then .ended else .talking x

def newSession (dlg : Nat) : InvSession where
  dlg := dlg
  state := .null
  inviteTsx := none

/-- The session after its INVITE. -/
def InvSession.invited (o : InviteOutcome) (x : InvSession) : InvSession :=
  if o.invInvite then
    match o.invSendMsg with
    | .notCreated => x
    | .sent => x.calling
    | .transportError _ => x.disconnected
  else x

def Progress.afterDialog (o : InviteOutcome) : Progress :=
  if o.invCreateUac then .ofSession ((newSession 0).invited o) else .ended

/-- No Play once there is a dialog, no Stop unless the session lives and outlives its last
message. -/
def clicks : Progress → Input → Option Progress
  | .idle, .play o =>
      if o.usageInit then
        if o.dlgCreateUac then some (Progress.afterDialog o) else some .refused
      else some .idle
  | .refused, .play _ => some .refused
  | .talking x, .stop o => if o.breaks x then none else some .idle
  | .talking x, .remote _ e => some (.ofSession (e.session x))
  | p, .remote _ _ => some p
  | _, _ => none

def NoLive (s : State) : Prop := ∀ x ∈ s.sessions, x.state = .disconnected

def OnlyLive (s : State) (k : Nat) : Prop :=
  ∀ (j : Nat) x, s.sessions[j]? = some x → x.state ≠ .disconnected → j = k

/-- What the monitor knows of the state. -/
def Knows : Progress → State → Prop
  | .idle, s => s.invInit = false ∧ s.usageRegistered = false ∧ NoLive s
  | .refused, s => s.invInit = false ∧ s.usageRegistered = true ∧ NoLive s
  | .talking x, s => s.invInit = true ∧ ¬ Unused s.dialog ∧ ∃ k d, s.invsession = .object k ∧
      s.sessions[k]? = some { x with dlg := d } ∧ x.state ≠ .disconnected ∧ OnlyLive s k
  | .ended, s => s.invInit = true ∧ ¬ Unused s.dialog ∧ NoLive s

/-! ## Changes of sessions and dialogs -/

/-- No dialog becomes unused again. -/
def KeepsUsage (g : InvSession → Dialog → Dialog) : Prop :=
  ∀ x dlg, (g x dlg).usage = dlg.usage ∧
    (dlg.destroyed = true → (g x dlg).destroyed = true)

theorem keepsUsage_id : KeepsUsage fun _ => id := fun _ _ => ⟨rfl, fun h => h⟩

theorem keepsUsage_newTsx : KeepsUsage fun _ => Dialog.newTsx := fun _ _ => ⟨rfl, fun h => h⟩

theorem keepsUsage_decSession : KeepsUsage fun _ => Dialog.decSession :=
  fun _ _ => ⟨Dialog.decLock_usage _, fun h => Dialog.decLock_destroyed h⟩

theorem keepsUsage_tsxOver : KeepsUsage fun _ => Dialog.tsxOver :=
  fun _ _ => ⟨Dialog.decLock_usage _, fun h => Dialog.decLock_destroyed h⟩

theorem KeepsUsage.comp {g h : InvSession → Dialog → Dialog} (hg : KeepsUsage g)
    (hh : KeepsUsage h) : KeepsUsage fun x dlg => h x (g x dlg) :=
  fun x dlg => ⟨(hh x (g x dlg)).1.trans (hg x dlg).1, fun hd => (hh x _).2 ((hg x dlg).2 hd)⟩

theorem RemoteEvent.keepsUsage (e : RemoteEvent) : KeepsUsage e.dialog := by
  cases e with
  | provisional statusCode toTag => exact keepsUsage_id
  | answered =>
      intro x dlg
      cases hwaits : x.waits with
      | false => simp [RemoteEvent.dialog, hwaits]
      | true => simpa [RemoteEvent.dialog, hwaits] using keepsUsage_tsxOver x dlg
  | rejected => exact keepsUsage_decSession
  | timedOut => exact keepsUsage_decSession.comp keepsUsage_tsxOver
  | bye => exact keepsUsage_newTsx.comp keepsUsage_decSession
  | tsxOver => exact keepsUsage_tsxOver

section Changes

variable {s : State} {k : Nat} {x : InvSession}
variable {f : InvSession → InvSession} {g : InvSession → Dialog → Dialog}

/-- A session behind a dialog makes it unfit for another one, for good. -/
theorem used_change (h : ¬ Unused s.dialog) (hg : KeepsUsage g) :
    ¬ Unused (s.change k f g).dialog := by
  rintro ⟨dlg, hdlg, halive, hnone⟩
  apply h
  rw [State.dialog, (change_frame s k f g).2.1] at hdlg
  rw [State.dialog]
  cases hptr : s.invitedlg with
  | unset =>
      rw [hptr] at hdlg
      cases hdlg
  | object d =>
      simp only [hptr] at hdlg ⊢
      rw [State.change] at hdlg
      split at hdlg
      · rcases entry_of_modify hdlg with ⟨dlg', hdlg', rfl⟩
        refine ⟨dlg', hdlg', ?_⟩
        split at halive
        · rename_i x _ hplace
          have hkeeps := hg x dlg'
          rw [if_pos hplace, hkeeps.1] at hnone
          refine ⟨?_, hnone⟩
          by_contra hgone
          rw [hkeeps.2 (by simpa using hgone)] at halive
          cases halive
        · rename_i hplace
          rw [if_neg hplace] at hnone
          exact ⟨halive, hnone⟩
      · exact ⟨dlg, hdlg, halive, hnone⟩

theorem noLive_change (h : OnlyLive s k) (hf : ∀ x, (f x).state = .disconnected) :
    NoLive (s.change k f g) := by
  intro y hy
  rcases List.mem_iff_getElem?.mp hy with ⟨j, hj⟩
  rw [change_sessions] at hj
  rcases entry_of_modify hj with ⟨z, hz, rfl⟩
  split
  · exact hf z
  · by_contra hlive
    exact absurd (h j z hz hlive).symm ‹_›

theorem onlyLive_change (h : OnlyLive s k) : OnlyLive (s.change k f g) k := by
  intro j y hj hlive
  rw [change_sessions] at hj
  rcases entry_of_modify hj with ⟨z, hz, rfl⟩
  split at hlive
  · exact ‹k = j›.symm
  · exact h j z hz hlive

theorem noLive_session (h : NoLive s) :
    ¬ ∃ y, s.session.map InvSession.state = some y ∧ y ≠ .disconnected := by
  rintro ⟨y, hy, hne⟩
  rcases Option.map_eq_some_iff.mp hy with ⟨z, hz, rfl⟩
  rw [State.session] at hz
  split at hz
  · exact hne (h z (List.mem_of_getElem? hz))
  · cases hz

/-- A session that is the only one to live, if it does. -/
theorem knows_ofSession {d : Nat} (hinit : s.invInit = true) (hused : ¬ Unused s.dialog)
    (hptr : s.invsession = .object k) (hx : s.sessions[k]? = some { x with dlg := d })
    (honly : OnlyLive s k) : Knows (Progress.ofSession x) s := by
  rw [Progress.ofSession]
  by_cases hover : x.state = .disconnected
  · rw [if_pos hover]
    refine ⟨hinit, hused, fun y hy => ?_⟩
    by_contra hlive
    rcases List.mem_iff_getElem?.mp hy with ⟨j, hj⟩
    rw [honly j y hj hlive, hx] at hj
    cases hj
    exact hlive hover
  · rw [if_neg hover]
    exact ⟨hinit, hused, k, d, hptr, hx, hover, honly⟩

end Changes

/-! ## Play -/

/-- The INVITE is a change of the session and of its dialog. -/
theorem invited_eq (o : InviteOutcome) (s : State) : ∃ g, KeepsUsage g ∧
    (s.invited o = s.changeCurrent (InvSession.invited o) g ∨
      s.invited o = s ∧ InvSession.invited o = id) := by
  cases hinv : o.invInvite with
  | false =>
      refine ⟨_, keepsUsage_id, .inr ⟨by simp [State.invited, hinv], ?_⟩⟩
      funext x
      simp [InvSession.invited, hinv]
  | true =>
      rw [State.invited, hinv, if_pos rfl]
      cases hfate : o.invSendMsg with
      | notCreated =>
          refine ⟨_, keepsUsage_id, .inr ⟨rfl, ?_⟩⟩
          funext x
          simp [InvSession.invited, hinv, hfate]
      | sent =>
          refine ⟨_, keepsUsage_newTsx, .inl ?_⟩
          have hsession : InvSession.invited o = InvSession.calling := by
            funext x
            simp [InvSession.invited, hinv, hfate]
          rw [hsession]
          rfl
      | transportError resolved =>
          refine ⟨_, keepsUsage_decSession, .inl ?_⟩
          have hsession : InvSession.invited o = InvSession.disconnected := by
            funext x
            simp [InvSession.invited, hinv, hfate]
          rw [hsession]
          rfl

theorem invited_newSession (o : InviteOutcome) (d : Nat) :
    (newSession d).invited o = { (newSession 0).invited o with dlg := d } := by
  rw [InvSession.invited, InvSession.invited]
  cases o.invInvite with
  | false => rfl
  | true => cases o.invSendMsg <;> rfl

/-- A session on the fresh dialog is the only one that may live, however far its INVITE gets. -/
theorem knows_created (o : InviteOutcome) {s : State} {d : Nat} (hinit : s.invInit = true)
    (hptr : s.invitedlg = .object d) (hfresh : s.dialog = some newDialog) (hnone : NoLive s) :
    Knows (.ofSession ((newSession 0).invited o)) ((s.withNewSession d).invited o) := by
  have hdialog : s.dialogs[d]? = some newDialog := by simpa [State.dialog, hptr] using hfresh
  have hused : ¬ Unused (s.withNewSession d).dialog := by
    rintro ⟨dlg, hdlg, -, hunused⟩
    rw [State.dialog, State.withNewSession, hptr] at hdlg
    simp only [List.getElem?_modify_eq, hdialog] at hdlg
    cases hdlg
    cases hunused
  have hsession : (s.withNewSession d).sessions[s.sessions.length]? = some (newSession d) := by
    simp [State.withNewSession, newSession]
  have honly : OnlyLive (s.withNewSession d) s.sessions.length := by
    intro j y hj hlive
    rcases entry_of_append hj with hj | ⟨hj, -⟩
    · exact absurd (hnone y (List.mem_of_getElem? hj)) hlive
    · exact hj
  have hinvsession : (s.withNewSession d).invsession = .object s.sessions.length := rfl
  rcases invited_eq o (s.withNewSession d) with ⟨g, hg, heq | ⟨heq, hid⟩⟩
  · rw [heq, changeCurrent_eq hinvsession]
    have hframe := change_frame (s.withNewSession d) s.sessions.length (InvSession.invited o) g
    refine knows_ofSession (d := d) (hframe.1.trans hinit) (used_change hused hg)
      (hframe.2.2.1.trans hinvsession) ?_ (onlyLive_change honly)
    rw [change_sessions, List.getElem?_modify_eq, hsession]
    exact congrArg some (invited_newSession o d)
  · rw [heq, hid]
    exact knows_ofSession (x := newSession 0) hinit hused hinvsession hsession honly

theorem inviteEvents_onLive (o : InviteOutcome) : ∀ e ∈ inviteEvents o, e.onLive := by
  rw [inviteEvents]
  split <;> simp [Event.onLive]

theorem perform_play_run (o : InviteOutcome) (s : State) :
    perform (.play o) s = ⟨(played o s).1, .ok ((), (played o s).2)⟩ := by
  have hrun := sendInvite_run o s
  rw [perform, Traced.bind_run, hrun]
  simp

/-- A step that the monitor allows. -/
def Step (m : Progress) (x : Input) (s : State) : Prop :=
  (∀ e ∈ (perform x s).events, e.onLive) ∧
    ∃ s', (perform x s).outcome = .ok ((), s') ∧ Knows m s'

/-- From a dialog that was just created. -/
theorem play_fresh (o : InviteOutcome) {s t : State} (ht : afterInit o s = (true, t))
    (hinit : t.invInit = true) (husage : t.usageRegistered = true)
    (hfresh : t.dialog = some newDialog) (hnone : NoLive t) :
    Step (Progress.afterDialog o) (.play o) s := by
  have haccepts : t.accepts o.invCreateUac = o.invCreateUac := by
    simp [State.accepts, hfresh, husage, newDialog]
  have hdialog : (Event.useDialog t.dialog t.usageRegistered).onLive :=
    ⟨⟨newDialog, hfresh, rfl, rfl⟩, husage⟩
  rw [Step, perform_play_run, played, ht, Progress.afterDialog]
  simp only [if_true, haccepts]
  cases hcreate : o.invCreateUac with
  | false =>
      refine ⟨by simpa using hdialog, _, rfl, ?_⟩
      cases hptr : t.invitedlg with
      | unset => simp [State.dialog, hptr] at hfresh
      | object d =>
          have hentry : t.dialogs[d]? = some newDialog := by
            simpa [State.dialog, hptr] using hfresh
          have hgone : ¬ Unused t.notCreated.dialog := by
            rintro ⟨dlg, hdlg, halive, -⟩
            rw [State.notCreated, hptr] at hdlg
            simp only [State.dialog, List.getElem?_modify_eq, hentry] at hdlg
            cases hdlg
            cases halive
          rw [State.notCreated, hptr] at hgone ⊢
          exact ⟨hinit, hgone, hnone⟩
  | true =>
      rcases session_created (haccepts.trans hcreate) with ⟨d, hptr, hcreated, -⟩
      refine ⟨List.forall_mem_cons.mpr ⟨hdialog, inviteEvents_onLive o⟩, _, rfl, ?_⟩
      rw [hcreated]
      exact knows_created o hinit hptr hfresh hnone

theorem play_idle (o : InviteOutcome) {s : State} {m : Progress} (hk : Knows .idle s)
    (hm : clicks .idle (.play o) = some m) : Step m (.play o) s := by
  rcases hk with ⟨hinit, husage, hlive⟩
  cases hu : o.usageInit with
  | false =>
      have hafter : afterInit o s = (false, s) := by simp [afterInit, hinit, hu]
      simp only [clicks, hu, Bool.false_eq_true, if_false, Option.some.injEq] at hm
      rw [← hm, Step, perform_play_run, played, hafter]
      exact ⟨by simp, s, rfl, hinit, husage, hlive⟩
  | true =>
      cases hd : o.dlgCreateUac with
      | false =>
          have hafter : afterInit o s = (false, { s with usageRegistered := true }) := by
            simp [afterInit, hinit, husage, hu, hd]
          simp only [clicks, hu, hd, Bool.false_eq_true, if_false, if_true,
            Option.some.injEq] at hm
          rw [← hm, Step, perform_play_run, played, hafter]
          exact ⟨by simp, _, rfl, hinit, rfl, hlive⟩
      | true =>
          have hafter : afterInit o s = (true, { s with
              usageRegistered := true
              dialogs := s.dialogs ++ [newDialog]
              invitedlg := .object s.dialogs.length
              invInit := true }) := by
            simp [afterInit, hinit, husage, hu, hd]
          simp only [clicks, hu, hd, if_true, Option.some.injEq] at hm
          rw [← hm]
          exact play_fresh o hafter rfl rfl (by simp [State.dialog]) hlive

theorem play_refused (o : InviteOutcome) {s : State} (hk : Knows .refused s) :
    Step .refused (.play o) s := by
  have hafter : afterInit o s = (false, s) := by simp [afterInit, hk.1, hk.2.1]
  rw [Step, perform_play_run, played, hafter]
  exact ⟨by simp, s, rfl, hk⟩

/-- `initInvParam` takes the dialog for good, which it is not. -/
theorem play_stale (o : InviteOutcome) {s : State} (hinit : s.invInit = true)
    (hused : ¬ Unused s.dialog) :
    ¬ GoodStep perform Event.onLive (fun _ => True) (.play o) s := by
  have hafter : afterInit o s = (true, s) := by rw [afterInit, if_pos hinit]
  rintro ⟨hevents, -⟩
  have hdialog := hevents (.useDialog s.dialog s.usageRegistered) (by
    rw [perform_play_run, played, hafter]
    simp only [if_true]
    split <;> simp)
  exact hused hdialog.1

/-! ## Stop -/

section Stop

variable {s : State} {k : Nat} {x : InvSession} (o : ByeOutcome)

theorem hungUp_onlyLive (hptr : s.invsession = .object k) (hx : s.sessions[k]? = some x)
    (honly : OnlyLive s k) :
    (s.hungUp o).invsession = .object k ∧ OnlyLive (s.hungUp o) k := by
  have hs : s.session = some x := by rw [State.session, hptr]; exact hx
  have hchanged (f : InvSession → InvSession) (g : InvSession → Dialog → Dialog) :
      (s.changeCurrent f g).invsession = .object k ∧ OnlyLive (s.changeCurrent f g) k := by
    rw [changeCurrent_eq hptr]
    exact ⟨(change_frame s k f g).2.2.1.trans hptr, onlyLive_change honly⟩
  rcases hungUp_cases o hs with ⟨-, heq | ⟨g, heq⟩⟩ | ⟨f, g, heq, -⟩
  · rw [heq]
    exact ⟨hptr, honly⟩
  · rw [heq]
    exact hchanged id g
  · rw [heq]
    exact hchanged f g

theorem stop_talking (hk : Knows (.talking x) s) (hbreaks : o.breaks x = false) :
    Step .idle (.stop o) s := by
  rcases hk with ⟨hinit, hused, k, d, hptr, hx, hne, honly⟩
  have hs : s.session = some { x with dlg := d } := by rw [State.session, hptr]; exact hx
  have hlast : (s.hungUp o).session = some { x with dlg := d } := by
    have hsame : o.breaks { x with dlg := d } = o.breaks x := rfl
    rw [hungUp_session o hs, hsame, hbreaks]
    rfl
  rcases hungUp_onlyLive o hptr hx honly with ⟨hptr', honly'⟩
  rw [Step, perform, sendBye_run]
  refine ⟨by simp [byeEvents, Event.onLive, hs, hlast, hne], _, rfl, rfl, rfl, ?_⟩
  rw [State.terminated, changeCurrent_eq hptr']
  exact noLive_change honly' fun _ => rfl

/-- The session is gone when it is to be terminated. -/
theorem stop_breaks (hk : Knows (.talking x) s) (hbreaks : o.breaks x = true) :
    ¬ GoodStep perform Event.onLive (fun _ => True) (.stop o) s := by
  rcases hk with ⟨hinit, hused, k, d, hptr, hx, hne, honly⟩
  have hs : s.session = some { x with dlg := d } := by rw [State.session, hptr]; exact hx
  have hlast : (s.hungUp o).session = some { x with dlg := d }.disconnected := by
    have hsame : o.breaks { x with dlg := d } = o.breaks x := rfl
    rw [hungUp_session o hs, hsame, hbreaks, if_pos rfl]
  rintro ⟨hevents, -⟩
  have huse := hevents (.useSession (some .disconnected)) (by
    rw [perform, sendBye_run]
    simp [byeEvents, hlast, InvSession.disconnected])
  rcases huse with ⟨state, hstate, hlive⟩
  exact hlive (Option.some.inj hstate).symm

theorem stop_noLive (h : NoLive s) :
    ¬ GoodStep perform Event.onLive (fun _ => True) (.stop o) s := by
  rintro ⟨hevents, -⟩
  have huse := hevents (.useSession (s.session.map InvSession.state)) (by
    rw [perform, sendBye_run]
    simp [byeEvents])
  exact noLive_session h huse

end Stop

/-! ## The remote side -/

section Remote

variable {s : State} {k : Nat} {e : RemoteEvent} {x : InvSession}

theorem perform_remote_run (k : Nat) (e : RemoteEvent) (s : State) :
    perform (.remote k e) s = ⟨[], .ok ((), s.change k e.session e.dialog)⟩ := rfl

/-- Nothing arrives for a session that is over, but for the end of its transactions. -/
theorem remote_live (hx : possible s (.remote k e) = true) (he : e ≠ .tsxOver) :
    ∃ x, s.sessions[k]? = some x ∧ x.state ≠ .disconnected := by
  have hlive (p : InvSession → Bool) (hp : ∀ x, p x = true → x.state ≠ .disconnected)
      (hany : (s.sessions[k]?).any p = true) :
      ∃ x, s.sessions[k]? = some x ∧ x.state ≠ .disconnected := by
    rw [Option.any_eq_true] at hany
    rcases hany with ⟨x, hx, hpx⟩
    exact ⟨x, hx, hp x hpx⟩
  have hwaits : ∀ x : InvSession, x.waits = true → x.state ≠ .disconnected := by
    intro x hw hover
    simp [InvSession.waits, hover] at hw
  cases e with
  | provisional statusCode toTag =>
      simp only [possible, Bool.and_eq_true] at hx
      exact hlive _ hwaits hx.1.1
  | answered =>
      refine hlive _ (fun x hp hover => ?_) hx
      simp [InvSession.waits, hover] at hp
  | rejected => exact hlive _ hwaits hx
  | timedOut => exact hlive _ hwaits hx
  | bye =>
      refine hlive _ (fun x hp hover => ?_) hx
      simp [hover] at hp
  | tsxOver => exact absurd rfl he

theorem session_dlg (e : RemoteEvent) (x : InvSession) (d : Nat) :
    e.session { x with dlg := d } = { e.session x with dlg := d } := by
  cases e <;> rfl

/-- An event that leaves the sessions alone. -/
theorem knows_tsxOver {m : Progress} (hk : Knows m s) (k : Nat) :
    Knows m (s.change k id RemoteEvent.tsxOver.dialog) := by
  rcases change_frame s k id RemoteEvent.tsxOver.dialog with ⟨hinit, -, hptr, husage⟩
  have hsessions : (s.change k id RemoteEvent.tsxOver.dialog).sessions = s.sessions := by
    rw [change_sessions, List.modify_id]
  have hused : ¬ Unused s.dialog →
      ¬ Unused (s.change k id RemoteEvent.tsxOver.dialog).dialog :=
    fun h => used_change h RemoteEvent.tsxOver.keepsUsage
  cases m with
  | idle => rwa [Knows, hinit, husage, NoLive, hsessions]
  | refused => rwa [Knows, hinit, husage, NoLive, hsessions]
  | ended =>
      rw [Knows, hinit, NoLive, hsessions]
      exact ⟨hk.1, hused hk.2.1, hk.2.2⟩
  | talking x =>
      rw [Knows, hinit, hptr]
      simp only [OnlyLive, hsessions]
      exact ⟨hk.1, hused hk.2.1, hk.2.2⟩

theorem remote_talking (hk : Knows (.talking x) s) (hp : possible s (.remote k e) = true) :
    Knows (.ofSession (e.session x)) (s.change k e.session e.dialog) := by
  by_cases he : e = .tsxOver
  · subst he
    have hlive : x.state ≠ .disconnected := by
      rcases hk with ⟨-, -, -, -, -, -, hlive, -⟩
      exact hlive
    have hsame : Progress.ofSession (RemoteEvent.tsxOver.session x) = .talking x :=
      if_neg hlive
    rw [hsame]
    exact knows_tsxOver hk k
  · rcases hk with ⟨hinit, hused, j, d, hptr, hx, hne, honly⟩
    rcases remote_live hp he with ⟨y, hy, hlive⟩
    have hjk : k = j := honly k y hy hlive
    subst hjk
    have hframe := change_frame s k e.session e.dialog
    refine knows_ofSession (d := d) (hframe.1.trans hinit) (used_change hused e.keepsUsage)
      (hframe.2.2.1.trans hptr) ?_ (onlyLive_change honly)
    rw [change_sessions, List.getElem?_modify_eq, hx]
    exact congrArg some (session_dlg e x d)

end Remote

/-! ## Runs -/

theorem knows_noLive {m : Progress} {s : State} (hk : Knows m s)
    (hm : ∀ x, m ≠ .talking x) : NoLive s := by
  cases m with
  | idle => exact hk.2.2
  | refused => exact hk.2.2
  | talking x => exact absurd rfl (hm x)
  | ended => exact hk.2.2

/-- Without a session that lives only transactions may come to their end. -/
theorem remote_quiet {m : Progress} {k : Nat} {e : RemoteEvent} {s : State} (hk : Knows m s)
    (hm : ∀ x, m ≠ .talking x) (hp : possible s (.remote k e) = true) :
    Knows m (s.change k e.session e.dialog) := by
  by_cases he : e = .tsxOver
  · subst he
    exact knows_tsxOver hk k
  · rcases remote_live hp he with ⟨x, hx, hne⟩
    exact absurd (knows_noLive hk hm x (List.mem_of_getElem? hx)) hne

theorem clicks_allowed {m m' : Progress} {x : Input} {s : State} (hk : Knows m s)
    (hx : possible s x = true) (hm : clicks m x = some m') : Step m' x s := by
  cases x with
  | play o =>
      cases m with
      | idle => exact play_idle o hk hm
      | refused =>
          cases hm
          exact play_refused o hk
      | talking y => cases hm
      | ended => cases hm
  | stop o =>
      cases m with
      | talking y =>
          cases hbreaks : o.breaks y with
          | false =>
              simp only [clicks, hbreaks, Bool.false_eq_true, if_false, Option.some.injEq] at hm
              rw [← hm]
              exact stop_talking o hk hbreaks
          | true => simp [clicks, hbreaks] at hm
      | _ => cases hm
  | remote k e =>
      rw [Step, perform_remote_run]
      refine ⟨by simp, _, rfl, ?_⟩
      cases m with
      | talking y =>
          cases hm
          exact remote_talking hk hx
      | _ =>
          cases hm
          exact remote_quiet hk (by simp) hx

theorem clicks_refused {m : Progress} {x : Input} {s : State} (hk : Knows m s)
    (hm : clicks m x = none) : ¬ GoodStep perform Event.onLive (fun _ => True) x s := by
  cases x with
  | play o =>
      cases m with
      | idle =>
          simp only [clicks] at hm
          split at hm
          · split at hm <;> cases hm
          · cases hm
      | refused => cases hm
      | talking y => exact play_stale o hk.1 hk.2.1
      | ended => exact play_stale o hk.1 hk.2.1
  | stop o =>
      cases m with
      | talking y =>
          cases hbreaks : o.breaks y with
          | false => simp [clicks, hbreaks] at hm
          | true => exact stop_breaks o hk hbreaks
      | _ => exact stop_noLive o (knows_noLive hk (by simp))
  | remote k e => cases m <;> cases hm

theorem safe_iff_clicks (r : Run perform possible mediaClient) :
    r.Safe Event.onLive (fun _ => True) ↔ Accepts clicks .idle r.inputs := by
  apply r.safe_iff_accepts .idle (R := Knows)
  · exact fun _ _ _ => trivial
  · exact ⟨rfl, rfl, by simp [NoLive, mediaClient]⟩
  · exact fun m m' x s hk hx hm => clicks_allowed hk hx hm
  · exact fun m x s hk _ hm => clicks_refused hk hm

/-- Dialogs and sessions are used alive and for the first time exactly when the clicks
are those that the monitor accepts. -/
theorem invite_live_iff (r : Run perform possible mediaClient) :
    (∀ e ∈ r.events, e.onLive) ↔ Accepts clicks .idle r.inputs := by
  rw [← safe_iff_clicks r, Run.Safe]
  simp

/-- The remote side rejects the INVITE, and Stop is clicked afterwards. -/
def stopAfterRejection : Run perform possible mediaClient where
  inputs := [.play ⟨true, true, true, true, .sent⟩, .remote 0 (.provisional 100 false),
    .remote 0 .rejected, .stop ⟨true, true, .sent⟩]
  each_possible := by decide +kernel

theorem stop_after_rejection : ¬ ∀ e ∈ stopAfterRejection.events, e.onLive := by
  intro h
  rcases h (.useSession (some .disconnected)) (by decide +kernel) with ⟨x, hx, hne⟩
  exact hne (Option.some.inj hx).symm

end SimpleSipClient.MediaClient
