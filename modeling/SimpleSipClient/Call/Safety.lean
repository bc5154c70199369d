import SimpleSipClient.Call.Needs

/-! # Which calls stay clean

Every step that meets its condition is clean and leads from rest to rest, and a clean step meets
its condition. So the clean runs of a call are those whose steps all meet their conditions.
-/

namespace SimpleSipClient.Call

open Foundation
open MediaClient (InvState)

/-- What an input needs. Without the module a report finds no session, a 2xx is not accepted
without an ACK, and the end of the call needs a dialog that outlives its request. -/
def Condition : Input → State → Prop
  | .invite _, _ => True
  | .stop env, s => StopOk env s
  | .response k code env, s => ∀ t, s.tsxs[k]? = some t →
      t.state = .calling ∨ t.state = .proceeding →
        s.loaded = true ∧ (takes t code → AckOk env s k)
  | .stray2xx k env, s => s.loaded = true ∧ AckOk env s k
  | .timeout k _, s => ∀ t, s.tsxs[k]? = some t → t.sends = true → s.loaded = true
  | .transportError _ _ _, s => s.loaded = true
  | .bye env, s => env.createUas = true → s.loaded = true
  | .usageInit, _ => True

/-- The INVITEs that the input is a 2xx for, where the session takes it. -/
def accepted : Input → State → List Nat
  | .response k code _, s =>
      match s.tsxs[k]? with
      | some t => if (t.state = .calling ∨ t.state = .proceeding) ∧ takes t code then [k] else []
      | none => []
  | .stray2xx k _, _ => [k]
  | _, _ => []

instance : DecidablePred Event.Clean
  | .useDestroyed | .outOfRange | .unsetTdata | .assertion _ => isFalse id
  | .destroyDialog | .destroySession | .send _ | .ack _ | .respond _ | .stateChanged _ =>
      isTrue trivial

section Steps

variable {s : State}

theorem stray_of_possible {k : Nat} {env : Env} (hp : possible s (.stray2xx k env) = true) :
    s.destroyed = false ∧ ∃ t, s.tsxs[k]? = some t ∧ t.method = .invite ∧
      TsxState.terminated.rank ≤ t.state.rank := by
  cases ht : s.tsxs[k]? with
  | none => simp [possible, ht] at hp
  | some t =>
      simp only [possible, ht, Option.any_some, Bool.and_eq_true, decide_eq_true_eq,
        Bool.not_eq_true'] at hp
      exact ⟨hp.1, t, rfl, hp.2.1.2, hp.2.2⟩

theorem Coherent.detached_of_rank {k : Nat} {t : Tsx} (h : Coherent [] 0 s)
    (ht : s.tsxs[k]? = some t) (hover : TsxState.terminated.rank ≤ t.state.rank) :
    t.attached = false := by
  have hok := h.ok k t ht (by simp)
  unfold Tsx.Ok at hok
  cases hs : t.state <;> simp_all [TsxState.rank]

theorem Coherent.connecting_of_confirming {env : Env} {t : Tsx} (h : Coherent [] 0 s)
    (ht : s.tsxs[0]? = some t) (hattached : t.attached = false) (hconfirming : confirming env s 0) :
    s.inv.state = .connecting := by
  have hrank := hconfirming.2
  obtain hs | ⟨hs | hs, -⟩ := h.given_up ht hattached
  · simp [hs, rank] at hrank
  · exact hs
  · simp [hs] at hrank

/-- A step that meets its condition is clean, and it leads from rest to rest. -/
theorem settles_step (x : Input) (h : Coherent [] 0 s) (hp : possible s x = true)
    (hC : Condition x s) :
    Returns (perform x) s fun es _ u =>
      Coherent [] 0 u ∧ Outcome (accepted x s) s es u := by
  cases x with
  | invite env =>
      have hs : s.tsxs = [] := by simpa [possible] using hp
      exact (returns_invite h hs).mono fun es _ u hu => ⟨hu.coherent, hu.outcome⟩
  | stop env =>
      exact (returns_sendBye h hC).mono fun es _ u hu => ⟨hu.1, hu.2.1⟩
  | response k code env =>
      cases ht : s.tsxs[k]? with
      | none => simp [possible, ht] at hp
      | some t =>
          have hcode : 100 ≤ code := by
            simp [possible, ht] at hp
            omega
          simp only [accepted, ht]
          exact (returns_rxResponse h ht hcode (fun hs => (hC t ht hs).1)
            fun hs => (hC t ht hs).2).mono fun es _ u hu => ⟨hu.coherent, hu.outcome⟩
  | stray2xx k env =>
      obtain ⟨hd, t, ht, hmethod, hover⟩ := stray_of_possible hp
      obtain rfl : k = 0 := (h.methods k t ht).mp hmethod
      have hattached := h.detached_of_rank ht hover
      have htagged : Coherent [] 0 (s.tagged env 200) := h.tagged
      have hphase := phase_acknowledged env htagged ht hattached
      have hreport : Report 0 [0] (s.tagged env 200) (acknowledging env s 0)
          (acknowledged env 0 (s.tagged env 200)) :=
        .acknowledged env 0 (h.connecting_of_confirming ht hattached)
      refine (returns_rxStray2xx h ht hattached hd hC.1).mpr ⟨hC.2, ?_, ?_⟩
      · exact htagged.acknowledged fun _ => hphase
      · simpa [accepted] using ((Report.tagged env 200).trans hreport).outcome
  | timeout k env =>
      cases ht : s.tsxs[k]? with
      | none => simp [possible, ht] at hp
      | some t =>
          exact (returns_timeout h ht (hC t ht)).mono fun es _ u hu => ⟨hu.coherent, hu.outcome⟩
  | transportError k posted env =>
      cases ht : s.tsxs[k]? with
      | none => simp [possible, ht] at hp
      | some t =>
          have hsends : t.sends = true := by simpa [possible, ht] using hp
          exact (returns_transportError h ht posted hsends hC).mono
            fun es _ u hu => ⟨hu.coherent, hu.outcome⟩
  | bye env =>
      have hlive : s.destroyed = false ∧ s.tsxs ≠ [] := by simpa [possible] using hp
      exact (returns_rxBye h hlive.1 hlive.2 hC).mono
        fun es _ u hu => ⟨hu.coherent, hu.outcome⟩
  | usageInit =>
      have hloaded : Coherent [] 0 { s with loaded := true } := { h with loaded := fun _ => rfl }
      simp only [perform, pjsipInvUsageInit, returns_update]
      exact ⟨hloaded, .silent rfl rfl⟩

theorem needs_step (x : Input) (s : State) (h : Coherent [] 0 s) (hp : possible s x = true)
    (hclean : Clean (perform x) s) : Condition x s := by
  cases x with
  | invite env => trivial
  | stop env => exact needs_sendBye hclean h
  | response k code env =>
      intro t ht hstate
      exact needs_rxResponse hclean h ht hstate
  | stray2xx k env =>
      obtain ⟨hd, t, ht, hmethod, hover⟩ := stray_of_possible hp
      obtain rfl : k = 0 := (h.methods k t ht).mp hmethod
      exact needs_rxStray2xx hclean h ht (h.detached_of_rank ht hover) hd
  | timeout k env =>
      intro t ht hsends
      exact needs_timeout hclean h ht hsends
  | transportError k posted env =>
      cases ht : s.tsxs[k]? with
      | none => simp [possible, ht] at hp
      | some t => exact needs_transportError hclean h ht (by simpa [possible, ht] using hp)
  | bye env => exact needs_rxBye hclean
  | usageInit => trivial

end Steps

/-! ## Runs -/

section Runs

theorem good_step (x : Input) (s : State) (h : Coherent [] 0 s) (hp : possible s x = true)
    (hC : Condition x s) :
    Returns (perform x) s fun es _ t => (∀ e ∈ es, e.Clean) ∧ Coherent [] 0 t :=
  (settles_step x h hp hC).mono fun _ _ _ hu => ⟨hu.2.clean, hu.1⟩

theorem clean_iff_conditions (r : Run perform possible created) :
    r.Completes Event.Clean ↔ ∀ v ∈ r.steps, Condition v.1 v.2 :=
  r.completes_iff_condition coherent_created good_step needs_step

variable {r : Run perform possible created}

theorem conditions_of_clean (hclean : r.Completes Event.Clean) : ∀ v ∈ r.steps, Condition v.1 v.2 :=
  (r.completes_iff_condition coherent_created good_step needs_step).mp hclean

theorem coherent_of_clean (hclean : r.Completes Event.Clean) {s : State} (hs : r.Reached s) :
    Coherent [] 0 s := by
  have hsafe : r.Safe Event.Clean (Coherent [] 0) := r.safe_of_condition (fun _ h => h)
    coherent_created (fun x s h hp hC => keeps_of_returns (good_step x s h hp hC))
    (conditions_of_clean hclean)
  exact hsafe.2 s hs

/-- What the run has done to the outside. -/
theorem outcome_of_clean (hclean : r.Completes Event.Clean) {t : State} (ht : r.EndsIn t) :
    Outcome (r.steps.flatMap fun v => accepted v.1 v.2) created r.events t :=
  r.sums (S := fun x s es u => Outcome (accepted x s) s es u)
    (R := fun vs s es u => Outcome (vs.flatMap fun v => accepted v.1 v.2) s es u)
    (fun _ => .silent rfl rfl) (fun {x _ s _ _ _ _} h h' => by simpa using h.trans h')
    (fun x _ => settles_step x) coherent_created (conditions_of_clean hclean) ht

/-- The dialog's counters say who holds it, and it is there as long as somebody does. -/
structure AtRest (s : State) : Prop where
  sessCount : s.sessCount = if s.inv.state = .disconnected then 0 else 1
  tsxCount : s.tsxCount = s.tsxs.countP Tsx.attached
  attached : ∀ t ∈ s.tsxs, t.attached = true ↔ t.state.rank < TsxState.terminated.rank
  destroyed : s.destroyed = true ↔
    s.inv.state = .disconnected ∧ ∀ t ∈ s.tsxs, t.attached = false

theorem Coherent.atRest {s : State} (h : Coherent [] 0 s) : AtRest s where
  sessCount := by simpa using h.counted
  tsxCount := h.attached
  attached t ht := by
    obtain ⟨k, hk⟩ := List.mem_iff_getElem?.mp ht
    have hok := h.ok k t hk (by simp)
    unfold Tsx.Ok at hok
    cases hs : t.state <;> simp_all [TsxState.rank]
  destroyed := by
    rw [h.destroyed, h.free_iff, h.attached, List.countP_eq_zero]
    simp

/-! A call that the other side accepts, confirms and ends. -/

def willing : Env where
  sent _ := .sent
  createRequest := true
  createCancel := true
  createUas := true
  createResponse := true
  respond := true
  ackCreated := true
  ackSent := true
  ackPending := false
  finalAckSent := true
  toTag := true

def answered : List Input :=
  [.invite willing, .response 0 180 willing, .response 0 200 willing, .stray2xx 0 willing]

def answeredCall : Run perform possible created := ⟨answered, by decide +kernel⟩

def hungUpCall : Run perform possible created :=
  ⟨answered ++ [.bye willing, .timeout 0 willing, .timeout 1 willing], by decide +kernel⟩

def acceptedInvite (state : TsxState) (timeoutTimer : Bool) : Tsx where
  role := .uac
  method := .invite
  state := state
  statusCode := 200
  timeoutTimer := timeoutTimer
  attached := false

def confirmedInv : Inv where
  state := .confirmed
  inviteTsx := none
  cause := 0
  cancelling := false
  pendingCancel := false
  notify := true
  callingNotified := true
  lastAck := some 0
  refCnt := some 1

def confirmed : State where
  sessCount := 1
  tsxCount := 0
  destroyed := false
  remoteTag := true
  uacHas2xx := true
  tsxs := [acceptedInvite .terminated true]
  inv := confirmedInv
  loaded := true

def hungUp : State where
  sessCount := 0
  tsxCount := 0
  destroyed := true
  remoteTag := true
  uacHas2xx := true
  tsxs := [acceptedInvite .destroyed false, {
    role := .uas
    method := .bye
    state := .terminated
    statusCode := 200
    timeoutTimer := true
    attached := false }]
  inv := { confirmedInv with
    state := .disconnected
    cause := 200
    lastAck := none
    refCnt := none }
  loaded := true

theorem answeredCall_ends : answeredCall.EndsIn confirmed := by
  unfold Run.EndsIn
  decide +kernel

theorem hungUpCall_ends : hungUpCall.EndsIn hungUp := by
  unfold Run.EndsIn
  decide +kernel

theorem answeredCall_clean : answeredCall.Completes Event.Clean :=
  ⟨⟨confirmed, answeredCall_ends⟩, by decide +kernel⟩

theorem hungUpCall_clean : hungUpCall.Completes Event.Clean :=
  ⟨⟨hungUp, hungUpCall_ends⟩, by decide +kernel⟩

/-! What is so in every clean call. -/

theorem atRest_of_reached (hclean : r.Completes Event.Clean) {s : State} (hs : r.Reached s) :
    AtRest s :=
  (coherent_of_clean hclean hs).atRest

theorem atRest_of_reached_hungUp : AtRest hungUp :=
  atRest_of_reached hungUpCall_clean hungUpCall_ends.reached

theorem acks_of_accepted (hclean : r.Completes Event.Clean) :
    r.events.filterMap Event.acked = r.steps.flatMap fun v => accepted v.1 v.2 := by
  obtain ⟨t, ht⟩ := hclean.1
  exact (outcome_of_clean hclean ht).acks

theorem acks_of_accepted_answered :
    answeredCall.events.filterMap Event.acked =
      answeredCall.steps.flatMap fun v => accepted v.1 v.2 :=
  acks_of_accepted answeredCall_clean

theorem announced_sorted (hclean : r.Completes Event.Clean) :
    (r.events.filterMap Event.announced).Pairwise fun a b => rank a ≤ rank b := by
  obtain ⟨t, ht⟩ := hclean.1
  exact (outcome_of_clean hclean ht).told.sorted

theorem announced_sorted_hungUp :
    (hungUpCall.events.filterMap Event.announced).Pairwise fun a b => rank a ≤ rank b :=
  announced_sorted hungUpCall_clean

/-- The session ends once and is announced once, and the dialog is destroyed once. -/
theorem ended_once (hclean : r.Completes Event.Clean) {t : State} (ht : r.EndsIn t) :
    r.events.count .destroySession = (if t.inv.state = .disconnected then 1 else 0) ∧
      r.events.count (.stateChanged .disconnected) = r.events.count .destroySession ∧
      r.events.count .destroyDialog = if t.destroyed then 1 else 0 := by
  have houtcome := outcome_of_clean hclean ht
  refine ⟨by simpa [created] using houtcome.told.ended, houtcome.told.last, ?_⟩
  have hfreed := houtcome.freed
  cases hd : t.destroyed <;> simpa [State.gone, created, hd] using hfreed

theorem ended_once_hungUp :
    hungUpCall.events.count .destroySession = 1 ∧
      hungUpCall.events.count (.stateChanged .disconnected) =
        hungUpCall.events.count .destroySession ∧
      hungUpCall.events.count .destroyDialog = 1 :=
  ended_once hungUpCall_clean hungUpCall_ends

/-- A call is not confirmed before its INVITE has been acknowledged twice. -/
theorem acked_of_talking (hclean : r.Completes Event.Clean) {t : State} (ht : r.EndsIn t) :
    (t.inv.state = .connecting → 1 ≤ (r.events.filterMap Event.acked).length) ∧
      (t.inv.state = .confirmed → 2 ≤ (r.events.filterMap Event.acked).length) := by
  have hacked := (outcome_of_clean hclean ht).told.acked
  constructor <;> (intro hs; simpa [acksFor, created, hs] using hacked)

theorem acked_of_talking_answered : 2 ≤ (answeredCall.events.filterMap Event.acked).length :=
  (acked_of_talking answeredCall_clean answeredCall_ends).2 rfl

end Runs

end SimpleSipClient.Call
