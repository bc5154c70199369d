import SimpleSipClient.MediaClient.Step

/-! # Out-parameters of PJSIP calls

A message, a transaction or a session pointer may be used only after the call that
produces it has succeeded and set it to an object. The routines mostly do not look at
the status; for each of them the outcomes are stated under which its uses are sound.
-/

namespace SimpleSipClient.MediaClient

open Foundation

/-- What is used was set by a successful call, and not to null. -/
def Event.fromSuccess : Event → Prop
  | .useRegc p | .useTdata p | .useTsx p => p = .object
  | .useDialog _ _ => True
  | .useSession state => state.isSome

/-- A routine together with the outcomes of its calls. -/
inductive Routine where
  | registerClient (o : RegcOutcome)
  | unregisterClient (o : RegcOutcome)
  | sendInvite (o : InviteOutcome)
  | sendBye (o : ByeOutcome)
  | queryDeviveInfo (created : Bool)
  | sendKeepAlive (created : Bool)
  | onRxRequest (method : Method) (o : RxOutcome)

def call : Routine → Client Unit
  | .registerClient o => registerClient o
  | .unregisterClient o => unregisterClient o
  | .sendInvite o => do
      let _ ← sendInvite o
  | .sendBye o => sendBye o
  | .queryDeviveInfo created => queryDeviveInfo created
  | .sendKeepAlive created => sendKeepAlive created
  | .onRxRequest method o => onRxRequest method o

/-- A session in this state gives a CANCEL or BYE at once. -/
def endsWithMessage (o : ByeOutcome) (x : InvSession) : Prop :=
  match x.state with
  | .calling | .early => ∃ statusCode, x.inviteTsx = some statusCode ∧ 100 ≤ statusCode ∧
      o.createCancel = true
  | .connecting | .confirmed => o.createRequest = true
  | .disconnected | .null => False

/-- The outcomes under which a routine uses objects only. -/
def Sound (s : State) : Routine → Prop
  | .registerClient o | .unregisterClient o =>
      o.create = true → o.init = true → o.message = true
  | .sendInvite _ => True
  | .sendBye o => ∃ x, s.session = some x ∧ endsWithMessage o x
  | .queryDeviveInfo created | .sendKeepAlive created => created = true
  | .onRxRequest method o => method ≠ .ack ∧ o.createUas = true ∧ o.createResponse = true

/-- Every use in a run of the routine is of an object. -/
def UsesObjects {α : Type} (x : Client α) (s : State) : Prop := ∀ e ∈ (x s).events, e.fromSuccess

@[simp] theorem out_eq_object {success : Bool} : out success = .object ↔ success = true := by
  cases success <;> simp [out]

@[simp] theorem fromSuccess_useRegc {p : OutParam} :
    (Event.useRegc p).fromSuccess ↔ p = .object := Iff.rfl

@[simp] theorem fromSuccess_useTdata {p : OutParam} :
    (Event.useTdata p).fromSuccess ↔ p = .object := Iff.rfl

@[simp] theorem fromSuccess_useTsx {p : OutParam} :
    (Event.useTsx p).fromSuccess ↔ p = .object := Iff.rfl

@[simp] theorem fromSuccess_useSession {state : Option InvState} :
    (Event.useSession state).fromSuccess ↔ state.isSome = true := Iff.rfl

section Composition

variable {α β : Type} {s : State}

theorem usesObjects_pure (a : α) : UsesObjects (pure a) s := by simp [UsesObjects]

theorem usesObjects_emit {e : Event} : UsesObjects (Traced.emit e) s ↔ e.fromSuccess := by
  simp [UsesObjects]

theorem usesObjects_emit_bind {e : Event} {f : Unit → Client α} :
    UsesObjects (Traced.emit e >>= f) s ↔ e.fromSuccess ∧ UsesObjects (f ()) s := by
  rw [UsesObjects, Traced.emit_bind]
  exact List.forall_mem_cons

/-- A routine that returns is followed by the rest at the state it leaves. -/
theorem usesObjects_bind {x : Client α} {f : α → Client β} {a : α} {s' : State}
    (hx : (x s).outcome = .ok (a, s')) :
    UsesObjects (x >>= f) s ↔ UsesObjects x s ∧ UsesObjects (f a) s' := by
  rw [UsesObjects, Traced.bind_ok hx]
  exact List.forall_mem_append

end Composition

/-! ## The routines -/

theorem regcRequest_sound_iff (o : RegcOutcome) (s : State) :
    UsesObjects (regcRequest o) s ↔ (o.create = true → o.init = true → o.message = true) := by
  rcases o with ⟨create, init, message⟩
  cases create with
  | false => simp [regcRequest, usesObjects_pure]
  | true =>
      cases init with
      | false => simp [regcRequest, usesObjects_emit_bind, usesObjects_pure]
      | true => simp [regcRequest, usesObjects_emit_bind, usesObjects_emit]

theorem endptRequest_sound_iff (created : Bool) (s : State) :
    UsesObjects (endptRequest created) s ↔ created = true := by
  simp [endptRequest, usesObjects_emit_bind, usesObjects_emit]

theorem onRxRequest_sound_iff (method : Method) (o : RxOutcome) (s : State) :
    UsesObjects (onRxRequest method o) s ↔
      method ≠ .ack ∧ o.createUas = true ∧ o.createResponse = true := by
  simp only [onRxRequest, usesObjects_emit_bind, usesObjects_emit, fromSuccess_useTsx,
    fromSuccess_useTdata, out_eq_object, Bool.and_eq_true, decide_eq_true_eq]
  tauto

/-- The session was just created, and the message by a successful call. -/
theorem sendInvite_sound (o : InviteOutcome) (s : State) : UsesObjects (sendInvite o) s := by
  have hinvite : ∀ e ∈ inviteEvents o, e.fromSuccess := by
    rw [inviteEvents]
    split <;> simp
  have hrun := sendInvite_run o s
  rw [UsesObjects, hrun, played]
  split
  · split
    · exact List.forall_mem_cons.mpr ⟨trivial, hinvite⟩
    · simp [Event.fromSuccess]
  · simp

theorem endSession_object_iff (o : ByeOutcome) (x : InvSession) :
    pjsipInvEndSession o (some x) = .object ↔ endsWithMessage o x := by
  rcases x with ⟨dlg, state, inviteTsx⟩
  have hcancel : state = .calling ∨ state = .early →
      (pjsipInvEndSession o (some ⟨dlg, state, inviteTsx⟩) = .object ↔
        ∃ statusCode, inviteTsx = some statusCode ∧ 100 ≤ statusCode ∧ o.createCancel = true) := by
    intro hstate
    cases inviteTsx with
    | none => rcases hstate with rfl | rfl <;> simp [pjsipInvEndSession]
    | some statusCode =>
        by_cases hlt : statusCode < 100
        · rcases hstate with rfl | rfl <;>
            simp [pjsipInvEndSession, hlt, Nat.not_le_of_lt hlt]
        · rcases hstate with rfl | rfl <;>
            simp [pjsipInvEndSession, hlt, Nat.le_of_not_lt hlt]
  cases state with
  | calling => exact hcancel (.inl rfl)
  | early => exact hcancel (.inr rfl)
  | connecting => exact out_eq_object
  | confirmed => exact out_eq_object
  | null => simp [pjsipInvEndSession, endsWithMessage]
  | disconnected => simp [pjsipInvEndSession, endsWithMessage]

theorem sendBye_sound_iff (o : ByeOutcome) (s : State) :
    UsesObjects (sendBye o) s ↔ ∃ x, s.session = some x ∧ endsWithMessage o x := by
  rw [UsesObjects, sendBye_run]
  cases hs : s.session with
  | none => simp [byeEvents, hs]
  | some x => simp [byeEvents, hs, hungUp_session o hs, endSession_object_iff]

/-- For every routine, every combination of outcomes and every state of the session. -/
theorem out_params_sound_iff (s : State) (r : Routine) : UsesObjects (call r) s ↔ Sound s r := by
  cases r with
  | registerClient o => exact regcRequest_sound_iff o s
  | unregisterClient o => exact regcRequest_sound_iff o s
  | sendInvite o =>
      have hsound := sendInvite_sound o s
      have hrun := sendInvite_run o s
      rw [call, usesObjects_bind (show _ = _ by rw [hrun])]
      simp [hsound, usesObjects_pure, Sound]
  | sendBye o => exact sendBye_sound_iff o s
  | queryDeviveInfo created => exact endptRequest_sound_iff created s
  | sendKeepAlive created => exact endptRequest_sound_iff created s
  | onRxRequest method o => exact onRxRequest_sound_iff method o s

/-- Stop is pressed before any response to the INVITE has arrived: the message is null. -/
theorem bye_without_response :
    ¬ UsesObjects (call (.sendBye ⟨true, true, .sent⟩))
      { mediaClient with
        invsession := .object 0
        sessions := [{ dlg := 0, state := .calling, inviteTsx := some 0 }] } := by
  intro h
  have hnull := h (.useTdata .null) (by decide +kernel)
  cases hnull

end SimpleSipClient.MediaClient
