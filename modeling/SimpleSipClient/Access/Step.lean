import SimpleSipClient.Access.Source
import SimpleSipClient.Sms.Step

/-! # One slot of the access client

Most slots are harmless: they return, use no pointer in vain, and leave alone what
decides about the `SMS` objects. The others are a start command, the end of a
connection, and the deletion of an object.
-/

namespace SimpleSipClient.Access

open Foundation SMS

/-! ## Harmless slots -/

/-- Nothing has changed that decides about pointers and deletions. -/
structure Same (s s' : State) : Prop where
  fates : s'.fates = s.fates
  sms : s'.sms = s.sms
  smsStarted : s'.smsStarted = s.smsStarted

theorem Same.refl (s : State) : Same s s := ⟨rfl, rfl, rfl⟩

theorem Same.trans {s s' s'' : State} (h : Same s s') (h' : Same s' s'') : Same s s'' :=
  ⟨h'.fates.trans h.fates, h'.sms.trans h.sms, h'.smsStarted.trans h.smsStarted⟩

def Event.harmless : Event → Prop
  | .deleteLater _ _ | .badUse _ _ => False
  | _ => True

def Harmless (x : Handler Unit) (s : State) : Prop :=
  (∀ e ∈ (x s).events, e.harmless) ∧ ∃ s', (x s).outcome = .ok ((), s') ∧ Same s s'

section Harmless

variable {s : State}

theorem harmless_pure : Harmless (pure ()) s := ⟨by simp, s, rfl, Same.refl s⟩

theorem harmless_emit {e : Event} (he : e.harmless) : Harmless (Traced.emit e) s :=
  ⟨by simpa using he, s, rfl, Same.refl s⟩

theorem harmless_bind {x : Handler Unit} {f : Unit → Handler Unit} (hx : Harmless x s)
    (hf : ∀ s', Same s s' → Harmless (f ()) s') : Harmless (x >>= f) s := by
  rcases hx with ⟨hxe, s', hxo, hs'⟩
  rcases hf s' hs' with ⟨hfe, s'', hfo, hs''⟩
  rw [Harmless, Traced.bind_ok hxo]
  refine ⟨fun e he => ?_, s'', hfo, hs'.trans hs''⟩
  rcases List.mem_append.mp he with he | he
  · exact hxe e he
  · exact hfe e he

theorem harmless_ite {p : Prop} [Decidable p] {x y : Handler Unit} (hx : p → Harmless x s)
    (hy : ¬ p → Harmless y s) : Harmless (if p then x else y) s := by
  by_cases hp : p
  · rw [if_pos hp]
    exact hx hp
  · rw [if_neg hp]
    exact hy hp

/-- A slot of an `SMS` changes that object only. -/
theorem harmless_inSms {k : Nat} {x : SMS.Sms Unit}
    (hx : ∃ t, (x (s.smsOf k)).outcome = .ok ((), t)) : Harmless (inSms k x) s := by
  rcases hx with ⟨t, ht⟩
  refine ⟨?_, s.withSms k t, ?_, ⟨rfl, rfl, rfl⟩⟩
  · intro e he
    rcases List.mem_map.mp he with ⟨e', -, rfl⟩
    trivial
  · simp only [inSms, Traced.zoom, ht]

theorem harmless_startTimer (msec : Int) : Harmless (startTimer msec) s :=
  ⟨by simp [startTimer, Traced.get_bind], { s with heartbeatTimer := msec },
    by simp [startTimer, Traced.get_bind], ⟨rfl, rfl, rfl⟩⟩

theorem harmless_onHeartbeatTimeout (ws : WsState) : Harmless (onHeartbeatTimeout ws) s := by
  cases ws with
  | unconnected => exact harmless_emit trivial
  | connected =>
      exact harmless_bind (harmless_emit trivial) fun _ _ => harmless_emit trivial
  | other => exact harmless_pure

end Harmless

/-! ## Text messages -/

section Messages

variable (fromJson : SMS.Bytes → JsonDoc)

/-- The message is a start command. -/
def isStart (recv : List UInt16) : Bool :=
  !rejected fromJson recv && (value fromJson recv "type").toInt == 3 &&
    (value fromJson recv "cmd").toInt == 0x3000001

/-- The `SMS` that a start command asks for. -/
def started (recv : List UInt16) : Handler Unit :=
  startSMS (value fromJson recv "sms_ip").toString (value fromJson recv "sms_port").toInt
    (value fromJson recv "stream_id").toString

theorem onTextMessageReceived_start {recv : List UInt16} (ws : WsState)
    (h : isStart fromJson recv = true) :
    onTextMessageReceived fromJson ws recv = started fromJson recv := by
  simp only [isStart, Bool.and_eq_true, Bool.not_eq_true', beq_iff_eq] at h
  rcases h with ⟨⟨hok, htype⟩, hcmd⟩
  simp [onTextMessageReceived, hok, htype, hcmd, started]

theorem harmless_onTextMessageReceived {recv : List UInt16} (ws : WsState)
    (h : isStart fromJson recv = false) (s : State) :
    Harmless (onTextMessageReceived fromJson ws recv) s := by
  rw [onTextMessageReceived]
  apply harmless_ite
  · exact fun _ => harmless_emit trivial
  intro hok
  apply harmless_ite
  · intro _
    apply harmless_ite
    · intro _
      exact harmless_bind (harmless_onHeartbeatTimeout ws) fun _ _ => harmless_startTimer _
    · exact fun _ => harmless_pure
  intro _
  apply harmless_ite
  · intro htype
    apply harmless_ite
    · intro hcmd
      simp [isStart, hok, htype, hcmd] at h
    intro _
    apply harmless_ite
    · exact fun _ => harmless_emit trivial
    · exact fun _ => harmless_pure
  intro _
  apply harmless_ite
  · intro _
    apply harmless_ite
    · exact fun _ => harmless_emit trivial
    · exact fun _ => harmless_pure
  · exact fun _ => harmless_pure

end Messages

/-- The text of an object with type 3 and cmd 0x3000001, in compact form. -/
def startText : List UInt16 :=
  [123, 34, 116, 121, 112, 101, 34, 58, 51, 44, 34, 99, 109, 100, 34, 58, 53, 48, 51, 51, 49, 54,
    52, 57, 125]

/-- A parser that knows this text only. -/
def parseStart (text : SMS.Bytes) : JsonDoc :=
  if text = toLatin1 startText then
    { parseError := false
      isObject := true
      object := fun key =>
        if key = "type" then .number 3
        else if key = "cmd" then .number 0x3000001
        else .other }
  else { parseError := true, isObject := false, object := fun _ => .other }

/-! ## Slots that use the pointer -/

theorem liveFate_eq_some {s : State} {k : Nat} {p : Fate → Bool}
    (h : (s.liveFate k).any p = true) : ∃ f, s.fates[k]? = some f ∧ f.destroyed = false ∧
      p f = true := by
  rw [Option.any_eq_true] at h
  rcases h with ⟨f, hf, hp⟩
  rw [State.liveFate, Option.filter_eq_some_iff] at hf
  exact ⟨f, hf.1, by simpa using hf.2, hp⟩

theorem target_object {s : State} {k : Nat} (h : (s.liveFate k).isSome) :
    s.target (.object k) = some k := by
  rcases Option.isSome_iff_exists.mp h with ⟨f, hf⟩
  simp [State.target, hf]

theorem harmless_writeFrame_target {s : State} {k : Nat} (env : Surroundings) (barray : SMS.Bytes)
    (h : s.target s.sms = some k) : Harmless (writeFrame env barray) s := by
  have hsms : Harmless (inSms k (SMS.writeFrame env barray)) s :=
    harmless_inSms ⟨_, (perform_run ⟨.writeFrame barray, env⟩ (s.smsOf k)).2⟩
  rw [Harmless, writeFrame, Traced.get_bind, Traced.ite_run]
  split
  · simp only [h]
    exact hsms
  · exact harmless_pure

theorem harmless_writeFrame_idle {s : State} (env : Surroundings) (barray : SMS.Bytes)
    (h : s.smsStarted = false) : Harmless (writeFrame env barray) s := by
  rw [Harmless, writeFrame, Traced.get_bind, Traced.ite_run, if_neg (by simp [h])]
  exact harmless_pure

def State.stopped (s : State) (k : Nat) : State :=
  { s.withFate k (fun f => { f with deletions := f.deletions + 1 }) with sms := .null }

theorem stopSMS_run {s : State} {k : Nat} (sender : Nat) (h : s.target s.sms = some k) :
    stopSMS sender s = ⟨[.deleteLater sender k], .ok ((), s.stopped k)⟩ := by
  rw [stopSMS, Traced.get_bind]
  simp only [h]
  rfl

theorem setSocket_bind (k : Nat) (socket : Socket) (f : Unit → Handler Unit) (s : State) :
    (setSocket k socket >>= f) s = f () (s.withFate k fun f => { f with socket := socket }) := by
  rw [Traced.bind_run, setSocket, Traced.get_bind, Traced.set_run]
  rfl

/-- The object's socket is closed, as seen from both sides. -/
def State.closed (s : State) (k : Nat) : State :=
  (s.withSms k { s.smsOf k with writable := false }).withFate k
    fun f => { f with socket := .disconnected }

theorem disconnect_run (k : Nat) (s : State) : disconnect k s = stopSMS k (s.closed k) := by
  have hclose : inSms k SMS.onError s =
      ⟨[], .ok ((), s.withSms k { s.smsOf k with writable := false })⟩ := rfl
  rw [disconnect, Traced.bind_run, hclose]
  simp only
  rw [setSocket_bind]
  rfl

end SimpleSipClient.Access
