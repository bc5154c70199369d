import SimpleSipClient.Access.Step

/-! # Frames go to a live connection

`stopSMS` clears the pointer and leaves `m_smsStarted` as it is. As long as no connection
ends, the flag implies a live object; the first connection that ends leaves the flag
behind with a null pointer.
-/

namespace SimpleSipClient.Access

open Foundation SMS

/-- The flag promises an object that can be used. -/
def StartedLive (s : State) : Prop :=
  s.smsStarted = true → ∃ k, s.sms = .object k ∧ (s.liveFate k).isSome

/-- No pointer is used without a live object behind it. -/
def Event.usesLive : Event → Prop
  | .badUse _ _ => False
  | _ => True

/-- No connection of an `SMS` ends. -/
def staysConnected : Unit → Input → Option Unit
  | (), .smsDisconnected _ => none
  | (), _ => some ()

/-- Nothing has been deleted, and the newest object is the current one. -/
structure Undeleted (s : State) : Prop where
  kept : ∀ f ∈ s.fates, f.deletions = 0 ∧ f.destroyed = false
  current : s.smsStarted = true → ∃ k, s.sms = .object k ∧ k < s.fates.length
  flagged : s.fates ≠ [] → s.smsStarted = true

theorem Event.harmless.usesLive {e : Event} (h : e.harmless) : e.usesLive := by
  cases e <;> trivial

section Undeleted

variable {s s' : State} {k : Nat}

theorem Undeleted.liveFate (h : Undeleted s) (hk : k < s.fates.length) :
    (s.liveFate k).isSome := by
  have hd : s.fates[k].destroyed = false := (h.kept _ (List.getElem_mem hk)).2
  simp [State.liveFate, List.getElem?_eq_getElem hk, Option.filter, hd]

theorem Undeleted.startedLive (h : Undeleted s) : StartedLive s := by
  intro hs
  rcases h.current hs with ⟨k, hk, hlt⟩
  exact ⟨k, hk, h.liveFate hlt⟩

theorem Undeleted.same (h : Undeleted s) (hs : Same s s') : Undeleted s' where
  kept := by rw [hs.fates]; exact h.kept
  current := by rw [hs.smsStarted, hs.sms, hs.fates]; exact h.current
  flagged := by rw [hs.smsStarted, hs.fates]; exact h.flagged

theorem Undeleted.started (h : Undeleted s) (hk : (s.liveFate k).isSome) : s.smsStarted = true := by
  apply h.flagged
  intro hnil
  simp [State.liveFate, hnil] at hk

theorem fates_modify_kept {f : Fate → Fate}
    (hf : ∀ x, (f x).deletions = x.deletions ∧ (f x).destroyed = x.destroyed)
    (h : ∀ x ∈ s.fates, x.deletions = 0 ∧ x.destroyed = false) :
    ∀ x ∈ s.fates.modify k f, x.deletions = 0 ∧ x.destroyed = false := by
  intro x hx
  rcases List.mem_iff_getElem?.mp hx with ⟨i, hi⟩
  rcases entry_of_modify hi with ⟨y, hy, rfl⟩
  have hkept := h y (List.mem_of_getElem? hy)
  split
  · rw [(hf y).1, (hf y).2]
    exact hkept
  · exact hkept

/-- A change of the connection alone deletes nothing. -/
theorem Undeleted.setSocket (h : Undeleted s) (socket : Socket) :
    Undeleted (s.withFate k fun f => { f with socket := socket }) where
  kept := fates_modify_kept (fun _ => ⟨rfl, rfl⟩) h.kept
  current := by simpa [State.withFate] using h.current
  flagged := by
    intro hne
    apply h.flagged
    intro hnil
    simp [State.withFate, hnil] at hne

end Undeleted

/-! ## One input -/

/-- A step without a bad use that leaves nothing deleted. -/
def Fine (x : Handler Unit) (s : State) : Prop :=
  (∀ e ∈ (x s).events, e.usesLive) ∧ ∃ s', (x s).outcome = .ok ((), s') ∧ Undeleted s'

theorem Harmless.fine {x : Handler Unit} {s : State} (hx : Harmless x s) (h : Undeleted s) :
    Fine x s := by
  rcases hx with ⟨he, s', hs', hsame⟩
  exact ⟨fun e hm => (he e hm).usesLive, s', hs', h.same hsame⟩

theorem fine_start (fromJson : SMS.Bytes → JsonDoc) (recv : List UInt16) {s : State}
    (h : Undeleted s) : Fine (started fromJson recv) s := by
  refine ⟨by simp [started, startSMS, Traced.get_bind], _, rfl, ?_, ?_, ?_⟩
  · intro f hf
    rcases List.mem_append.mp hf with hf | hf
    · exact h.kept f hf
    · rw [List.mem_singleton.mp hf]
      exact ⟨rfl, rfl⟩
  · exact fun _ => ⟨s.fates.length, rfl, by simp⟩
  · exact fun _ => rfl

theorem perform_fine (fromJson : SMS.Bytes → JsonDoc) {x : Input} {s : State} (h : Undeleted s)
    (hx : possible s x = true) (hm : staysConnected () x = some ()) :
    Fine (perform fromJson x) s := by
  cases x with
  | textMessage ws recv =>
      cases hstart : isStart fromJson recv with
      | false => exact (harmless_onTextMessageReceived fromJson ws hstart s).fine h
      | true =>
          rw [perform, onTextMessageReceived_start fromJson ws hstart]
          exact fine_start fromJson recv h
  | writeFrame env barray =>
      cases hs : s.smsStarted with
      | false => exact (harmless_writeFrame_idle env barray hs).fine h
      | true =>
          rcases h.startedLive hs with ⟨k, hk, hlive⟩
          have htarget : s.target s.sms = some k := by rw [hk]; exact target_object hlive
          exact (harmless_writeFrame_target env barray htarget).fine h
  | onConnected => exact (harmless_emit (e := .sendTextMessage .login) trivial).fine h
  | onHeartbeatTimeout ws => exact (harmless_onHeartbeatTimeout ws).fine h
  | onError => exact (harmless_startTimer 1000).fine h
  | smsConnected k env =>
      rw [Fine, perform, setSocket_bind]
      exact (harmless_inSms ⟨_, (perform_run ⟨.onConnected, env⟩ _).2⟩).fine (h.setSocket _)
  | smsRead k env msg =>
      exact (harmless_inSms ⟨_, (perform_run ⟨.onRead msg, env⟩ _).2⟩).fine h
  | smsHeartbeat k env =>
      exact (harmless_inSms ⟨_, (perform_run ⟨.onHeartbeatTimeout, env⟩ _).2⟩).fine h
  | smsConnectFailed k =>
      rw [Fine, perform, setSocket_bind]
      exact (harmless_inSms ⟨_, rfl⟩).fine (h.setSocket _)
  | smsDisconnected k => cases hm
  | deferredDelete k =>
      -- nothing is scheduled for deletion
      rcases liveFate_eq_some hx with ⟨f, hf, -, hdel⟩
      have hzero := (h.kept f (List.mem_of_getElem? hf)).1
      simp [hzero] at hdel

/-- The end of a connection clears the pointer behind the flag. -/
theorem disconnect_breaks (fromJson : SMS.Bytes → JsonDoc) {k : Nat} {s : State} (h : Undeleted s)
    (hx : possible s (.smsDisconnected k) = true) :
    ¬ GoodStep (perform fromJson) Event.usesLive StartedLive (.smsDisconnected k) s := by
  have hlive : (s.liveFate k).isSome := by
    rw [possible, Option.any_eq_true] at hx
    rcases hx with ⟨f, hf, -⟩
    rw [hf]
    rfl
  have hsame : Same s (s.withSms k { s.smsOf k with writable := false }) := ⟨rfl, rfl, rfl⟩
  have hclosed : Undeleted (s.closed k) := (h.same hsame).setSocket _
  have hstarted : (s.closed k).smsStarted = true := h.started hlive
  rcases hclosed.startedLive hstarted with ⟨j, hj, hjlive⟩
  have hrun := stopSMS_run k (show (s.closed k).target (s.closed k).sms = some j by
    rw [hj]
    exact target_object hjlive)
  rintro ⟨-, hnext⟩
  have hnull := hnext ((s.closed k).stopped j) (by rw [perform, disconnect_run, hrun])
  rcases hnull hstarted with ⟨i, hi, -⟩
  cases hi

/-! ## Runs -/

theorem accepts_staysConnected_iff (xs : List Input) :
    Accepts staysConnected () xs ↔ ∀ k, Input.smsDisconnected k ∉ xs := by
  induction xs with
  | nil => simp [Accepts]
  | cons x xs ih =>
      cases x with
      | smsDisconnected k =>
          simp only [Accepts, staysConnected, List.mem_cons, false_iff]
          exact fun h => h k (.inl rfl)
      | _ => simp [Accepts, staysConnected, ih]

theorem undeleted_access : Undeleted access where
  kept := by simp [access]
  current := by simp [access]
  flagged := by simp [access]

/-- The flag is truthful and no pointer is used in vain exactly as long as no connection
of an `SMS` ends. -/
theorem forwarding_safe_iff (fromJson : SMS.Bytes → JsonDoc)
    (r : Run (perform fromJson) possible access) :
    r.Safe Event.usesLive StartedLive ↔ ∀ k, Input.smsDisconnected k ∉ r.inputs := by
  rw [← accepts_staysConnected_iff]
  apply r.safe_iff_accepts () (R := fun _ s => Undeleted s)
  · exact fun _ s hs => hs.startedLive
  · exact undeleted_access
  · intro m m' x s h hx hm
    exact perform_fine fromJson h hx hm
  · intro m x s h hx hm
    cases x with
    | smsDisconnected k => exact disconnect_breaks fromJson h hx
    | _ => cases hm

/-- A frame arrives after the connection has ended. -/
def frameAfterDisconnect : Run (perform parseStart) possible access where
  inputs := [.textMessage .connected startText, .smsConnected 0 quiet, .smsDisconnected 0,
    .writeFrame quiet []]
  each_possible := by decide +kernel

theorem frame_after_disconnect : ¬ frameAfterDisconnect.Safe Event.usesLive StartedLive := by
  intro h
  exact h.1 (.badUse .writeFrame .null) (by decide +kernel)

end SimpleSipClient.Access
