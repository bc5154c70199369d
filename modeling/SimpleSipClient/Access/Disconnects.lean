import SimpleSipClient.Access.Step

/-! # Whose connection ends

`stopSMS` deletes the object that the pointer names, whoever sent the signal, and a start
command replaces the pointer without stopping anything. A disconnect hits its own
object, and nothing that was replaced stays connected, exactly when no start command
arrives while a connection is open.
-/

namespace SimpleSipClient.Access

open Foundation SMS

/-- A disconnect deletes its sender, and there is something to delete. -/
def Event.ownDelete : Event → Prop
  | .deleteLater sender target => sender = target
  | .badUse (.stopSMS _) _ => False
  | _ => True

/-- What the disconnects have done so far. -/
structure OwnDisconnects (s : State) : Prop where
  at_most_once : ∀ (k : Nat) f, s.fates[k]? = some f → f.deletions ≤ 1
  by_own : ∀ (k : Nat) f, s.fates[k]? = some f → (0 < f.deletions ↔ f.socket = .disconnected)
  replaced_stopped : ∀ (k : Nat) f, s.fates[k]? = some f → k + 1 < s.fates.length →
    0 < f.deletions ∨ f.socket.isOpen = false

/-- A start command finds every earlier connection ended. -/
def StartsAlone (fromJson : SMS.Bytes → JsonDoc) (x : Input) (s : State) : Prop :=
  match x with
  | .textMessage _ recv => isStart fromJson recv = true → ∀ f ∈ s.fates, f.socket.isOpen = false
  | _ => True

/-! ## The invariant -/

/-- Deleted once by its own disconnect or not at all, and destroyed only then. -/
def Matched (f : Fate) : Prop :=
  f.deletions = (if f.socket = .disconnected then 1 else 0) ∧
    (f.destroyed = true → f.socket = .disconnected)

/-- At most the current object is connected. -/
structure Exclusive (s : State) : Prop where
  matched : ∀ (k : Nat) f, s.fates[k]? = some f → Matched f
  older : ∀ (k : Nat) f, s.fates[k]? = some f → k + 1 < s.fates.length → f.socket.isOpen = false
  current : ∀ (k : Nat) f, s.fates[k]? = some f → f.socket.isOpen = true → s.sms = .object k

section Exclusive

variable {s s' : State} {k : Nat} {f : Fate}

theorem Matched.deletions_pos (h : Matched f) : 0 < f.deletions ↔ f.socket = .disconnected := by
  rw [h.1]
  split <;> simp_all

theorem Exclusive.ownDisconnects (h : Exclusive s) : OwnDisconnects s where
  at_most_once := by
    intro k f hf
    rw [(h.matched k f hf).1]
    split <;> omega
  by_own := fun k f hf => (h.matched k f hf).deletions_pos
  replaced_stopped := fun k f hf hk => .inr (h.older k f hf hk)

theorem Exclusive.same (h : Exclusive s) (hs : Same s s') : Exclusive s' where
  matched := by rw [hs.fates]; exact h.matched
  older := by rw [hs.fates]; exact h.older
  current := by rw [hs.fates, hs.sms]; exact h.current

theorem fates_withFate (s : State) (k j : Nat) (g : Fate → Fate) :
    (s.withFate k g).fates[j]? = (s.fates[j]?).map fun f => if k = j then g f else f := by
  rw [State.withFate, List.getElem?_modify]
  rfl

/-- One object moves on without opening a connection. -/
theorem Exclusive.withFate {g : Fate → Fate} (h : Exclusive s) (hk : s.fates[k]? = some f)
    (hm : Matched (g f)) (ho : (g f).socket.isOpen = true → f.socket.isOpen = true) :
    Exclusive (s.withFate k g) := by
  have hlength : (s.withFate k g).fates.length = s.fates.length := by simp [State.withFate]
  constructor
  · intro j f' hf'
    rcases entry_of_modify hf' with ⟨y, hy, rfl⟩
    split
    · subst j
      rw [hk, Option.some.injEq] at hy
      rw [← hy]
      exact hm
    · exact h.matched j y hy
  · intro j f' hf' hj
    rw [hlength] at hj
    rcases entry_of_modify hf' with ⟨y, hy, rfl⟩
    have hclosed := h.older j y hy hj
    split
    · subst j
      rw [hk, Option.some.injEq] at hy
      rw [← hy] at hclosed ⊢
      by_contra hopen
      simp [ho (by simpa using hopen)] at hclosed
    · exact hclosed
  · intro j f' hf' hopen
    rcases entry_of_modify hf' with ⟨y, hy, rfl⟩
    split at hopen
    · subst j
      rw [hk, Option.some.injEq] at hy
      rw [← hy] at hopen
      exact h.current k f hk (ho hopen)
    · exact h.current j y hy hopen

/-- The end of the current connection, as one change. -/
theorem Exclusive.disconnected (h : Exclusive s) (hk : s.fates[k]? = some f)
    (hopen : f.socket.isOpen = true) : Exclusive ((s.closed k).stopped k) := by
  have hdeletions : f.deletions = 0 := by
    rw [(h.matched k f hk).1, if_neg]
    intro hd
    simp [hd, Socket.isOpen] at hopen
  have hfates : ∀ j : Nat, ((s.closed k).stopped k).fates[j]? = (s.fates[j]?).map fun y =>
      if k = j then { y with socket := .disconnected, deletions := y.deletions + 1 } else y := by
    intro j
    rw [State.stopped, fates_withFate, State.closed, fates_withFate, Option.map_map]
    apply congrArg (fun g => Option.map g s.fates[j]?)
    funext y
    simp only [Function.comp]
    split <;> rfl
  have hlength : ((s.closed k).stopped k).fates.length = s.fates.length := by
    simp [State.stopped, State.closed, State.withFate, State.withSms]
  constructor
  · intro j f' hf'
    rw [hfates] at hf'
    rcases Option.map_eq_some_iff.mp hf' with ⟨y, hy, rfl⟩
    split
    · subst j
      rw [hk, Option.some.injEq] at hy
      rw [← hy]
      exact ⟨by simp [hdeletions], fun _ => rfl⟩
    · exact h.matched j y hy
  · intro j f' hf' hj
    rw [hlength] at hj
    rw [hfates] at hf'
    rcases Option.map_eq_some_iff.mp hf' with ⟨y, hy, rfl⟩
    split
    · rfl
    · exact h.older j y hy hj
  · intro j f' hf' hopen'
    rw [hfates] at hf'
    rcases Option.map_eq_some_iff.mp hf' with ⟨y, hy, rfl⟩
    split at hopen'
    · cases hopen'
    · -- two open connections would both be the current one
      have hj := h.current j y hy hopen'
      rw [h.current k f hk hopen, Pointer.object.injEq] at hj
      contradiction

end Exclusive

/-! ## One input -/

theorem Event.harmless.ownDelete {e : Event} (h : e.harmless) : e.ownDelete := by
  cases e <;> trivial

theorem Harmless.proper {x : Handler Unit} {s : State} (hx : Harmless x s) (h : Exclusive s) :
    Keeps Event.ownDelete Exclusive x s := by
  rcases hx with ⟨he, t, ht, hsame⟩
  refine ⟨fun e hm => (he e hm).ownDelete, fun s' hs' => ?_⟩
  rw [ht, Except.ok.injEq, Prod.mk.injEq] at hs'
  rw [← hs'.2]
  exact h.same hsame

theorem proper_writeFrame (env : Surroundings) (barray : SMS.Bytes) {s : State}
    (h : Exclusive s) : Keeps Event.ownDelete Exclusive (writeFrame env barray) s := by
  cases hs : s.smsStarted with
  | false => exact (harmless_writeFrame_idle env barray hs).proper h
  | true =>
      cases htarget : s.target s.sms with
      | some k => exact (harmless_writeFrame_target env barray htarget).proper h
      | none =>
          have hrun : writeFrame env barray s =
              ⟨[.badUse .writeFrame s.sms], .error .invalid⟩ := by
            rw [writeFrame, Traced.get_bind, Traced.ite_run, if_pos hs]
            simp only [htarget]
            rfl
          rw [Keeps, hrun]
          exact ⟨by simp [Event.ownDelete], fun _ h' => by cases h'⟩

/-- A start command adds an object that nothing open precedes. -/
theorem proper_start (fromJson : SMS.Bytes → JsonDoc) (recv : List UInt16) {s : State}
    (h : Exclusive s) (halone : ∀ f ∈ s.fates, f.socket.isOpen = false) :
    Keeps Event.ownDelete Exclusive (started fromJson recv) s := by
  refine ⟨by simp [started, startSMS, Traced.get_bind], ?_⟩
  intro s' hs'
  simp only [started, startSMS, Traced.get_bind, Traced.set_run, Except.ok.injEq, Prod.mk.injEq,
    true_and] at hs'
  rw [← hs']
  constructor
  · intro k f hf
    rcases entry_of_append hf with hf | ⟨-, rfl⟩
    · exact h.matched k f hf
    · exact ⟨rfl, fun hd => by cases hd⟩
  · intro k f hf hk
    rw [List.length_append, List.length_singleton] at hk
    rw [List.getElem?_append_left (by omega)] at hf
    exact halone f (List.mem_of_getElem? hf)
  · intro k f hf hopen
    rcases entry_of_append hf with hf | ⟨rfl, -⟩
    · rw [halone f (List.mem_of_getElem? hf)] at hopen
      cases hopen
    · rfl

theorem isOpen_connected : Socket.connected.isOpen = true := rfl

theorem perform_proper (fromJson : SMS.Bytes → JsonDoc) {x : Input} {s : State} (h : Exclusive s)
    (hx : possible s x = true) (halone : StartsAlone fromJson x s) :
    Keeps Event.ownDelete Exclusive (perform fromJson x) s := by
  cases x with
  | textMessage ws recv =>
      cases hstart : isStart fromJson recv with
      | false => exact (harmless_onTextMessageReceived fromJson ws hstart s).proper h
      | true =>
          rw [perform, onTextMessageReceived_start fromJson ws hstart]
          exact proper_start fromJson recv h (halone hstart)
  | writeFrame env barray => exact proper_writeFrame env barray h
  | onConnected => exact (harmless_emit (e := .sendTextMessage .login) trivial).proper h
  | onHeartbeatTimeout ws => exact (harmless_onHeartbeatTimeout ws).proper h
  | onError => exact (harmless_startTimer 1000).proper h
  | smsConnected k env =>
      rcases liveFate_eq_some hx with ⟨f, hf, hlive, hsocket⟩
      have hconnecting : f.socket = .connecting := by simpa using hsocket
      have hmatched := (h.matched k f hf).1
      rw [hconnecting] at hmatched
      rw [Keeps, perform, setSocket_bind]
      refine (harmless_inSms ⟨_, (perform_run ⟨.onConnected, env⟩ _).2⟩).proper
        (h.withFate hf ⟨hmatched, ?_⟩ ?_)
      · simp [hlive]
      · simp [hconnecting, Socket.isOpen]
  | smsRead k env msg =>
      exact (harmless_inSms ⟨_, (perform_run ⟨.onRead msg, env⟩ _).2⟩).proper h
  | smsHeartbeat k env =>
      exact (harmless_inSms ⟨_, (perform_run ⟨.onHeartbeatTimeout, env⟩ _).2⟩).proper h
  | smsConnectFailed k =>
      rcases liveFate_eq_some hx with ⟨f, hf, hlive, hsocket⟩
      have hconnecting : f.socket = .connecting := by simpa using hsocket
      have hmatched := (h.matched k f hf).1
      rw [hconnecting] at hmatched
      rw [Keeps, perform, setSocket_bind]
      refine (harmless_inSms ⟨_, rfl⟩).proper (h.withFate hf ⟨hmatched, ?_⟩ ?_)
      · simp [hlive]
      · simp [Socket.isOpen]
  | smsDisconnected k =>
      rcases liveFate_eq_some hx with ⟨f, hf, hlive, hsocket⟩
      have hopen : f.socket.isOpen = true := by
        rw [show f.socket = .connected by simpa using hsocket, isOpen_connected]
      have hsms : (s.closed k).sms = .object k := h.current k f hf hopen
      have hfate : ((s.closed k).liveFate k).isSome := by
        rw [State.liveFate, State.closed, fates_withFate]
        simp [State.withSms, hf, hlive, Option.filter]
      have htarget : (s.closed k).target (s.closed k).sms = some k := by
        rw [hsms]
        exact target_object hfate
      rw [Keeps, perform, disconnect_run, stopSMS_run k htarget]
      refine ⟨by simp [Event.ownDelete], fun s' hs' => ?_⟩
      rw [Except.ok.injEq, Prod.mk.injEq] at hs'
      rw [← hs'.2]
      exact h.disconnected hf hopen
  | deferredDelete k =>
      rcases liveFate_eq_some hx with ⟨f, hf, hlive, hdeletions⟩
      have hsocket : f.socket = .disconnected :=
        (h.matched k f hf).deletions_pos.mp (by simpa using hdeletions)
      have hclosed : (s.liveFate k).any (fun f => f.socket = .connected) = false := by
        simp [State.liveFate, hf, hlive, hsocket, Option.filter]
      have hrun : destroy k s =
          ⟨[], .ok ((), s.withFate k fun f => { f with destroyed := true })⟩ := by
        rw [destroy, Traced.get_bind, hclosed]
        rfl
      rw [Keeps, perform, hrun]
      refine ⟨by simp, fun s' hs' => ?_⟩
      rw [Except.ok.injEq, Prod.mk.injEq] at hs'
      rw [← hs'.2]
      refine h.withFate hf ⟨?_, fun _ => hsocket⟩ fun hopen => hopen
      exact (h.matched k f hf).1

/-- A start command leaves a connection behind that is open and never deleted by itself. -/
theorem start_leaves_open (fromJson : SMS.Bytes → JsonDoc) {x : Input} {s : State}
    (h : Exclusive s) (hx : ¬ StartsAlone fromJson x s) :
    ¬ GoodStep (perform fromJson) Event.ownDelete OwnDisconnects x s := by
  cases x with
  | textMessage ws recv =>
      simp only [StartsAlone, not_forall] at hx
      rcases hx with ⟨hstart, f, hf, hopen⟩
      rcases List.mem_iff_getElem?.mp hf with ⟨k, hk⟩
      have hlt : k < s.fates.length := (List.getElem?_eq_some_iff.mp hk).choose
      have hdeletions : ¬ 0 < f.deletions := by
        rw [(h.matched k f hk).deletions_pos]
        intro hd
        simp [hd, Socket.isOpen] at hopen
      rintro ⟨-, hnext⟩
      rw [perform, onTextMessageReceived_start fromJson ws hstart] at hnext
      have hbad := (hnext _ rfl).replaced_stopped k f (by
        simp only [List.getElem?_append_left hlt, hk]) (by simpa using hlt)
      rcases hbad with hbad | hbad
      · exact hdeletions hbad
      · exact hopen hbad
  | _ => exact absurd trivial hx

/-! ## Runs -/

theorem exclusive_access : Exclusive access where
  matched := by simp [access]
  older := by simp [access]
  current := by simp [access]

/-- Disconnects hit their own objects and nothing replaced stays connected exactly when
every start command finds the earlier connections ended. -/
theorem disconnects_safe_iff (fromJson : SMS.Bytes → JsonDoc)
    (r : Run (perform fromJson) possible access) :
    r.Safe Event.ownDelete OwnDisconnects ↔ ∀ v ∈ r.steps, StartsAlone fromJson v.1 v.2 := by
  apply r.safe_iff_condition (I := Exclusive)
  · exact fun s h => h.ownDisconnects
  · exact exclusive_access
  · exact fun x s h hx halone => perform_proper fromJson h hx halone
  · exact fun x s h _ hx => start_leaves_open fromJson h hx

/-- A second start command while the first connection is open, and the end of the first. -/
def secondStart : Run (perform parseStart) possible access where
  inputs := [.textMessage .connected startText, .smsConnected 0 quiet,
    .textMessage .connected startText, .smsConnected 1 quiet, .smsDisconnected 0]
  each_possible := by decide +kernel

theorem second_start_deletes_other : ¬ secondStart.Safe Event.ownDelete OwnDisconnects := by
  intro h
  have hsender : 0 = 1 := h.1 (.deleteLater 0 1) (by decide +kernel)
  cases hsender

end SimpleSipClient.Access
