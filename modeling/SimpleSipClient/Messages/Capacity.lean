import SimpleSipClient.Messages.Step

/-! # Texts that fit

A registration prints its two addresses without a bound; everything else is cut where
the buffer ends and sent all the same. The texts are safe and complete exactly when the
addresses, the session description, the subject and the body fit into their buffers, or
when some PJSIP call fails before the request goes out.
-/

namespace SimpleSipClient.Messages

open Foundation
open MediaClient (RegcOutcome InviteOutcome)

/-! ## Safe and complete -/

/-- The print stays inside its buffer. -/
def Event.contained : Event → Prop
  | .format _ size _ text => text.length < size
  | _ => True

/-- The buffer holds all that the format says. -/
def Event.complete : Event → Prop
  | .format _ _ ps text => text = whole ps
  | _ => True

def Event.sends : Event → Prop
  | .register _ | .invite _ _ _ | .message _ => True
  | .format _ _ _ _ | .createDialog _ => False

/-- A registration stays inside its buffers; any other operation prints complete texts or
sends nothing. -/
def TextsFit (op : Operation) (s : State) : Prop :=
  match op with
  | .registerClient _ | .unregisterClient _ => ∀ e ∈ (perform op s).events, e.contained
  | .sendInvite _ _ _ _ | .queryDeviveInfo _ _ _ | .sendKeepAlive _ _ =>
      (∀ e ∈ (perform op s).events, e.complete) ∨ ∀ e ∈ (perform op s).events, ¬ e.sends

/-! ## Room in the buffers -/

def Fits (size : Nat) (ps : List Piece) : Prop := NoZero ps ∧ (whole ps).length < size

def UrisFit (t : TransportContext) : Prop :=
  Fits 64 (fromUri t) ∧ Fits 64 (contactUri t) ∧ Fits 64 (toUri t)

def AddressesFit (p : SIPClient) : Prop :=
  (printed (localAddr p)).length < 64 ∧ (printed (dstAddr p)).length < 64

/-- All calls on the way to the INVITE succeed. -/
def reachesInvite (o : InviteOutcome) (s : State) : Bool :=
  initOk o s && (o.invCreateUac && o.invInvite)

/-- Where PJSIP lets the request out, there is room for its texts. -/
def RoomFor (op : Operation) (s : State) : Prop :=
  match op with
  | .registerClient o | .unregisterClient o => o.create = true → AddressesFit s.sipClientparam
  | .sendInvite o deviceid mediaRecvIp mediaRecvPort =>
      reachesInvite o s = true ∧ o.invSendMsg = .sent →
        (s.invInit = false → UrisFit s.tsxContext) ∧
          Fits 512 (sdpPieces deviceid mediaRecvIp mediaRecvPort) ∧
            Fits 128 (subjectPieces s deviceid)
  | .queryDeviveInfo created deviceid cmdType =>
      created = true → UrisFit s.tsxContext ∧ Fits 256 (queryInfo cmdType deviceid)
  | .sendKeepAlive created deviceid =>
      created = true → UrisFit s.tsxContext ∧ Fits 256 (keepAliveInfo deviceid)

/-! ## Prints and requests -/

theorem printEvent_complete {size : Nat} (hsize : 0 < size) (buffer : Buffer)
    (ps : List Piece) : (printEvent buffer size ps).complete ↔ Fits size ps :=
  bounded_eq_whole_iff hsize ps

theorem printEvent_contained {size : Nat} (hsize : 0 < size) (buffer : Buffer)
    (ps : List Piece) : (printEvent buffer size ps).contained :=
  bounded_length_lt hsize ps

theorem printEvent_silent (buffer : Buffer) (size : Nat) (ps : List Piece) :
    ¬ (printEvent buffer size ps).sends := id

theorem uriEvents_complete (t : TransportContext) :
    (∀ e ∈ uriEvents t, e.complete) ↔ UrisFit t := by
  simp only [uriEvents, List.forall_mem_cons, printEvent_complete (show 0 < 64 by decide),
    UrisFit, List.not_mem_nil, false_implies, implies_true, and_true, and_self]

theorem uriEvents_silent (t : TransportContext) : ∀ e ∈ uriEvents t, ¬ e.sends := by
  simp only [uriEvents, List.forall_mem_cons, printEvent_silent, not_false_eq_true,
    List.not_mem_nil, false_implies, implies_true, and_self]

/-- Prints, and a request if it gets that far. -/
theorem completeOrSilent_iff {prints : List Event} {sent : Bool} (r : Event)
    (hprints : ∀ e ∈ prints, ¬ e.sends) (hsends : r.sends) (hcomplete : r.complete) :
    ((∀ e ∈ prints ++ (if sent then [r] else []), e.complete) ∨
      ∀ e ∈ prints ++ (if sent then [r] else []), ¬ e.sends) ↔
        (sent = true → ∀ e ∈ prints, e.complete) := by
  cases sent with
  | false => simpa using Or.inr hprints
  | true =>
      simp only [if_true, List.forall_mem_append, List.forall_mem_singleton, hcomplete, and_true,
        hsends, not_true_eq_false, and_false, or_false, forall_const]

/-! ## The operations -/

theorem regcRequest_contained (unregister : Bool) (o : RegcOutcome) (p : SIPClient)
    (s : State) : (∀ e ∈ (regcRequest unregister o p s).events, e.contained) ↔
      (o.create = true → AddressesFit p) := by
  have hrest : ∀ e ∈ regcEvents unregister o p, e.contained := by
    intro e he
    rw [regcEvents] at he
    split at he
    · rcases List.mem_append.mp he with he | he
      · simp only [credentialEvents, List.mem_cons, List.not_mem_nil, or_false] at he
        rcases he with rfl | rfl
        · exact printEvent_contained (by decide) _ _
        · exact printEvent_contained (by decide) _ _
      · split at he
        · rw [List.mem_singleton.mp he]
          trivial
        · simp at he
    · simp at he
  rw [regcRequest_events, AddressesFit]
  cases o.create with
  | false => simp
  | true =>
      rw [if_pos rfl, forall_prop_of_true rfl]
      by_cases hlocal : (printed (localAddr p)).length < 64
      · have hlocal' : (localEvent p).contained := hlocal
        by_cases hdst : (printed (dstAddr p)).length < 64
        · have hdst' : (dstEvent p).contained := hdst
          rw [if_pos hlocal, if_pos hdst, List.forall_mem_cons, List.forall_mem_cons]
          exact iff_of_true ⟨hlocal', hdst', hrest⟩ ⟨hlocal, hdst⟩
        · rw [if_pos hlocal, if_neg hdst]
          exact iff_of_false (fun h => hdst (h (dstEvent p) (by simp))) fun h => hdst h.2
      · rw [if_neg hlocal]
        exact iff_of_false (fun h => hlocal (h (localEvent p) (by simp))) fun h => hlocal h.1

theorem initEvents_silent (o : InviteOutcome) (s : State) :
    ∀ e ∈ initEvents o s, ¬ e.sends := by
  intro e he
  rw [initEvents] at he
  split at he
  · simp at he
  · split at he
    · rcases List.mem_append.mp he with he | he
      · exact uriEvents_silent _ e he
      · rw [List.mem_singleton.mp he]
        exact id
    · simp at he

theorem initEvents_complete {o : InviteOutcome} {s : State} (h : initOk o s = true) :
    (∀ e ∈ initEvents o s, e.complete) ↔ (s.invInit = false → UrisFit s.tsxContext) := by
  rw [initOk] at h
  rw [initEvents]
  cases hinit : s.invInit with
  | true => simp
  | false =>
      rw [hinit, Bool.false_or, Bool.and_eq_true] at h
      have hdialog : ∀ dlg, (Event.createDialog dlg).complete := fun _ => trivial
      rw [if_neg (by decide), if_pos h.1, forall_prop_of_true rfl, List.forall_mem_append,
        uriEvents_complete, List.forall_mem_singleton]
      exact and_iff_left (hdialog _)

theorem sendInvite_fit (o : InviteOutcome) (deviceid mediaRecvIp : Text) (mediaRecvPort : UInt16)
    (s : State) : TextsFit (.sendInvite o deviceid mediaRecvIp mediaRecvPort) s ↔
      RoomFor (.sendInvite o deviceid mediaRecvIp mediaRecvPort) s := by
  have hevents : (perform (.sendInvite o deviceid mediaRecvIp mediaRecvPort) s).events =
      (sendInvite o deviceid mediaRecvIp mediaRecvPort s).events := by
    rw [perform, Traced.bind_run]
    rcases sendInvite o deviceid mediaRecvIp mediaRecvPort s with ⟨es, _ | _⟩ <;> simp
  rw [TextsFit, RoomFor, hevents, sendInvite_events, ← reachesInvite]
  cases hreach : reachesInvite o s with
  | false => simpa using Or.inr (initEvents_silent o s)
  | true =>
      have hinit : initOk o s = true := by
        rw [reachesInvite, Bool.and_eq_true] at hreach
        exact hreach.1
      have hsplit : initEvents o s ++ inviteEvents o s deviceid mediaRecvIp mediaRecvPort =
          (initEvents o s ++
            [printEvent .str 512 (sdpPieces deviceid mediaRecvIp mediaRecvPort),
              printEvent .subjectUrl 128 (subjectPieces s deviceid)]) ++
            if decide (o.invSendMsg = .sent) then
              [.invite (initState o s).invitedlg
                (bounded 512 (sdpPieces deviceid mediaRecvIp mediaRecvPort))
                (bounded 128 (subjectPieces s deviceid))]
            else [] := by
        simp [inviteEvents]
      have hsilent : ∀ e ∈ initEvents o s ++
          [printEvent .str 512 (sdpPieces deviceid mediaRecvIp mediaRecvPort),
            printEvent .subjectUrl 128 (subjectPieces s deviceid)], ¬ e.sends := by
        simp only [List.forall_mem_append, List.forall_mem_cons, printEvent_silent,
          not_false_eq_true, List.not_mem_nil, false_implies, implies_true, and_true]
        exact initEvents_silent o s
      rw [if_pos rfl, hsplit, completeOrSilent_iff (.invite _ _ _) hsilent trivial trivial]
      simp only [true_and, decide_eq_true_eq, List.forall_mem_append, List.forall_mem_cons,
        initEvents_complete hinit, printEvent_complete (show 0 < 512 by decide),
        printEvent_complete (show 0 < 128 by decide), List.not_mem_nil, false_implies,
        implies_true, and_true]

theorem endptRequest_fit (created : Bool) (body : List Piece) (s : State) :
    ((∀ e ∈ (endptRequest created body s).events, e.complete) ∨
      ∀ e ∈ (endptRequest created body s).events, ¬ e.sends) ↔
        (created = true → UrisFit s.tsxContext ∧ Fits 256 body) := by
  have hsplit : (endptRequest created body s).events =
      (uriEvents s.tsxContext ++ [printEvent .querInfo 256 body]) ++
        if created then [.message (messageRequest body s)] else [] := by
    simp [endptRequest_run]
  have hsilent : ∀ e ∈ uriEvents s.tsxContext ++ [printEvent .querInfo 256 body],
      ¬ e.sends := by
    simp only [List.forall_mem_append, List.forall_mem_singleton]
    exact ⟨uriEvents_silent _, printEvent_silent _ _ _⟩
  rw [hsplit, completeOrSilent_iff (.message _) hsilent trivial trivial]
  simp only [List.forall_mem_append, List.forall_mem_singleton, uriEvents_complete,
    printEvent_complete (show 0 < 256 by decide)]

/-- The texts of an operation are safe and complete, or nothing is sent, exactly when there
is room for them wherever PJSIP lets the request out. -/
theorem texts_fit_iff (op : Operation) (s : State) : TextsFit op s ↔ RoomFor op s := by
  cases op with
  | registerClient o => exact regcRequest_contained false o s.sipClientparam s
  | unregisterClient o => exact regcRequest_contained true o s.sipClientparam s
  | sendInvite o deviceid mediaRecvIp mediaRecvPort =>
      exact sendInvite_fit o deviceid mediaRecvIp mediaRecvPort s
  | queryDeviveInfo created deviceid cmdType =>
      exact endptRequest_fit created (queryInfo cmdType deviceid) s
  | sendKeepAlive created deviceid =>
      exact endptRequest_fit created (keepAliveInfo deviceid) s

/-- The parameters of a client whose id has fifty digits. -/
def longId : State where
  tsxContext := {
    fromID := List.replicate 50 49
    fromIP := ascii "192.168.21.76"
    fromPort := 5060
    toID := ascii "34020000000020000002"
    toIP := ascii "192.168.5.138"
    toPort := 5060
    contactID := List.replicate 50 49
    contactIP := ascii "192.168.21.76"
    contactPort := 5060 }
  sipClientparam := {
    sipserverID := ascii "34020000000020000002"
    sipserverAddress := ascii "192.168.5.138"
    sipserverPort := 5060
    localDeviceID := List.replicate 50 49
    localAddress := ascii "192.168.21.76"
    localSipPort := 5060
    localPasswd := ascii "12345678"
    regValidSeconds := 600 }
  invInit := false
  invitedlg := none

/-- The registration overruns its buffer, and a query goes out with a cut address. -/
theorem long_id_does_not_fit :
    ¬ TextsFit (.registerClient { create := true, init := true, message := true }) longId ∧
      ¬ TextsFit (.queryDeviveInfo true (ascii "34020000001320000002") (ascii "Catalog"))
        longId := by
  constructor
  · intro h
    have hfits := (regcRequest_contained false _ longId.sipClientparam longId).mp h rfl
    exact absurd hfits.1 (by decide)
  · intro h
    have hfits := (endptRequest_fit true (queryInfo (ascii "Catalog")
      (ascii "34020000001320000002")) longId).mp h rfl
    exact absurd hfits.1.1.2 (by decide)

end SimpleSipClient.Messages
