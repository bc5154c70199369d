import SimpleSipClient.Call.Report

/-! # Reports about the INVITE

Nothing that such a report leads to is a request with a transaction, so that the state it leaves
can be written down. A 2xx is acknowledged; without a cached ACK the client makes one.
-/

namespace SimpleSipClient.Call

open Foundation
open MediaClient (InvState)

/-! ## Acknowledging -/

/-- The session repeats its last ACK. -/
def Cached (env : Env) (s : State) (k : Nat) : Prop :=
  s.inv.lastAck = some k ∧ env.ackPending = false

instance (env : Env) (s : State) (k : Nat) : Decidable (Cached env s k) :=
  inferInstanceAs (Decidable (_ ∧ _))

def AckOk (env : Env) (s : State) (k : Nat) : Prop :=
  env.ackSent = true ∧ (Cached env s k ∨ env.ackCreated = true)

def confirming (env : Env) (s : State) (k : Nat) : Prop :=
  Cached env s k ∧ rank s.inv.state < rank .confirmed

instance (env : Env) (s : State) (k : Nat) : Decidable (confirming env s k) :=
  inferInstanceAs (Decidable (_ ∧ _))

def acknowledging (env : Env) (s : State) (k : Nat) : List Event :=
  .ack k :: if confirming env s k then [.stateChanged .confirmed] else []

def acknowledged (env : Env) (k : Nat) (s : State) : State :=
  s.withInv fun inv => { inv with
    state := if confirming env s k then .confirmed else inv.state
    lastAck := some k }

section Acknowledging

variable {env : Env} {notify : Notify} {b : List Nat} {n k : Nat} {s : State}

theorem returns_invSetState (st : InvState) (hst : st ≠ .disconnected)
    (hconfirmed : st = .confirmed → s.inv.inviteTsx = none) (hnotify : s.inv.notify = true)
    {post : List Event → Unit → State → Prop} :
    Returns (invSetState env notify st) s post ↔
      post (if st = .calling ∧ s.inv.callingNotified = true then [] else [.stateChanged st]) ()
        (s.withInv fun inv => { inv with
          state := st
          callingNotified := inv.callingNotified || decide (st = .calling) }) := by
  have hguard : ¬ (st = .confirmed ∧ s.inv.inviteTsx.isSome = true) := fun h => by
    simp [hconfirmed h.1] at h
  simp only [invSetState, returns_bind, returns_get, hguard, returns_ite, if_false,
    returns_updateInv, returns_pjAssert, returns_emit, returns_pure, State.withInv_inv, hnotify,
    hst, false_and]
  by_cases hquiet : st = .calling ∧ s.inv.callingNotified = true
  · simp [hquiet]
  · simp [hquiet, hst]

theorem returns_sendAck (hd : s.destroyed = false) (hheld : ¬ s.Free)
    {post : List Event → Bool → State → Prop} :
    Returns (sendAck env k) s post ↔
      if env.ackSent then post [.ack k] true s else post [] false s := by
  simp [sendAck, returns_locked, State.access, hd, State.settling_of_held hheld,
    State.settle_of_held hheld]

theorem returns_pjsipInvCreateAck (hd : s.destroyed = false) (hheld : ¬ s.Free)
    {post : List Event → Bool → State → Prop} :
    Returns (pjsipInvCreateAck env k) s post ↔
      post [] env.ackCreated (s.withInv fun inv => { inv with
        lastAck := if env.ackCreated then some k else none }) := by
  cases hcreated : env.ackCreated <;>
    simp [pjsipInvCreateAck, returns_locked, State.access, hd, hcreated, State.lock_withInv,
      State.settling_of_held, State.settle_of_held, hheld]
  rfl

theorem returns_callOnSendAck (hd : s.destroyed = false) (hheld : ¬ s.Free)
    {post : List Event → Unit → State → Prop} :
    Returns (callOnSendAck env k) s post ↔
      (env.ackCreated = true ∧ env.ackSent = true) ∧
        post [.ack k] () (s.withInv fun inv => { inv with lastAck := some k }) := by
  have hheld' : ¬ (s.withInv fun inv => { inv with
      lastAck := if env.ackCreated then some k else none }).Free := hheld
  have hd' : (s.withInv fun inv => { inv with
      lastAck := if env.ackCreated then some k else none }).destroyed = false := hd
  simp only [callOnSendAck, returns_bind, returns_pjsipInvCreateAck hd hheld, returns_pjAssert,
    returns_locked_pure hd' hheld', returns_sendAck hd' hheld']
  cases hcreated : env.ackCreated <;> cases hsent : env.ackSent <;> simp

theorem returns_invSendAck (env : Env) (notify : Notify) (k : Nat) (hd : s.destroyed = false) (hheld : ¬ s.Free)
    (hnotify : s.inv.notify = true) (hinvite : confirming env s k → s.inv.inviteTsx = none)
    {post : List Event → Unit → State → Prop} :
    Returns (invSendAck env notify k) s post ↔
      AckOk env s k ∧ post (acknowledging env s k) () (acknowledged env k s) := by
  by_cases hcached : Cached env s k
  · have hlast : (s.withInv fun inv => { inv with lastAck := some k }) = s := by
      simp [State.withInv, ← hcached.1]
    have hcached' := hcached
    unfold Cached at hcached'
    simp only [invSendAck, returns_bind, returns_get, returns_ite, hcached', and_self, if_true,
      returns_sendAck hd hheld, returns_pjAssert, returns_pure]
    by_cases hrank : rank s.inv.state < rank .confirmed
    · have hset := hinvite ⟨hcached, hrank⟩
      cases hsent : env.ackSent <;>
        simp [AckOk, acknowledging, acknowledged, confirming, hcached, hsent, hrank,
          returns_invSetState, hset, hnotify, State.withInv, hcached.1]
    · cases hsent : env.ackSent <;>
        simp [AckOk, acknowledging, acknowledged, confirming, hcached, hsent, hrank, hlast]
  · have hcached' := hcached
    unfold Cached at hcached'
    simp only [invSendAck, returns_bind, returns_get, returns_ite, hcached', if_false,
      returns_callOnSendAck hd hheld]
    simp [AckOk, acknowledging, acknowledged, confirming, hcached, and_comm]

theorem returns_invSendAck_first (env : Env) (notify : Notify) (k : Nat)
    (hd : s.destroyed = false) (hheld : ¬ s.Free) (hlast : s.inv.lastAck = none)
    {post : List Event → Unit → State → Prop} :
    Returns (invSendAck env notify k) s post ↔
      AckOk env s k ∧ post [.ack k] () (s.withInv fun inv => { inv with lastAck := some k }) := by
  have hcached : ¬ Cached env s k := fun h => by simp [Cached, hlast] at h
  simp only [invSendAck, returns_bind, returns_get, returns_ite, hlast, reduceCtorEq, false_and,
    if_false, returns_callOnSendAck hd hheld]
  simp [AckOk, hcached, and_comm]

end Acknowledging

/-! ## The response itself -/

def State.tagged (env : Env) (code : Nat) (s : State) : State :=
  { s with
    remoteTag := if 100 < code ∧ code < 300 ∧ s.uacHas2xx = false then env.toTag else s.remoteTag
    uacHas2xx := if 100 < code ∧ code < 300 ∧ s.uacHas2xx = false then decide (200 ≤ code)
      else s.uacHas2xx }

/-- The response alone makes the session acknowledge. -/
def Repeated (s : State) (k code : Nat) : Prop :=
  code / 100 = 2 ∧
    (s.inv.inviteTsx = none ∨ s.inv.state = .disconnected ∨ s.inv.lastAck = some k)

instance (s : State) (k code : Nat) : Decidable (Repeated s k code) :=
  inferInstanceAs (Decidable (_ ∧ _))

section Response

variable {env : Env} {notify : Notify} {b : List Nat} {n k code : Nat} {s : State}

@[simp] theorem State.tagged_inv : (s.tagged env code).inv = s.inv := rfl
@[simp] theorem State.tagged_tsxs : (s.tagged env code).tsxs = s.tsxs := rfl
@[simp] theorem State.tagged_loaded : (s.tagged env code).loaded = s.loaded := rfl
@[simp] theorem State.tagged_destroyed : (s.tagged env code).destroyed = s.destroyed := rfl
@[simp] theorem State.free_tagged : (s.tagged env code).Free ↔ s.Free := Iff.rfl
@[simp] theorem free_acknowledged : (acknowledged env k s).Free ↔ s.Free := Iff.rfl

@[simp] theorem acknowledging_tagged :
    acknowledging env (s.tagged env code) k = acknowledging env s k := rfl

theorem State.lock_tagged : s.lock.tagged env code = (s.tagged env code).lock := rfl

theorem lock_acknowledged : acknowledged env k s.lock = (acknowledged env k s).lock := rfl

theorem Coherent.tagged (h : Coherent b n s) : Coherent b n (s.tagged env code) :=
  { h with }

theorem Report.tagged (env : Env) (code : Nat) : Report k [] s [] (s.tagged env code) :=
  { Report.refl (k := k) (s := s) with }

theorem returns_dlgUpdateTag {post : List Event → Unit → State → Prop} :
    Returns (dlgUpdateTag env .invite code) s post ↔ post [] () (s.tagged env code) := by
  rw [dlgUpdateTag, returns_update, State.tagged]
  by_cases h : 100 < code ∧ code < 300 ∧ s.uacHas2xx = false <;> simp [h]

theorem returns_pjsipDlgOnRxResponse (env : Env) (notify : Notify) (k code : Nat) (hd : s.destroyed = false) (hheld : ¬ s.Free)
    (hloaded : s.loaded = true) (hnotify : s.inv.notify = true)
    (hinvite : confirming env s k → s.inv.inviteTsx = none)
    {post : List Event → Unit → State → Prop} :
    Returns (pjsipDlgOnRxResponse env notify k .invite code) s post ↔
      if Repeated s k code then
        AckOk env s k ∧ post (acknowledging env s k) () (acknowledged env k (s.tagged env code))
      else post [] () (s.tagged env code) := by
  have hheld' : ¬ (s.lock.tagged env code).Free := by
    simpa using s.not_free_lock
  have hinvite' : confirming env (s.lock.tagged env code) k →
      (s.lock.tagged env code).inv.inviteTsx = none := hinvite
  simp only [pjsipDlgOnRxResponse, returns_locked, returns_bind, returns_dlgUpdateTag,
    modInvOnRxResponse, pjsipDlgGetInvSession, returns_get, State.tagged_loaded, State.lock_loaded,
    hloaded, if_true, returns_pure, returns_ite,
    returns_invSendAck env notify k (s := s.lock.tagged env code) hd hheld' hnotify hinvite']
  by_cases hrepeated : Repeated s k code
  · have hguard : code / 100 = 2 ∧
        (s.inv.inviteTsx = none ∨ s.inv.state = .disconnected ∨ s.inv.lastAck = some k) :=
      hrepeated
    simp [hrepeated, hguard, State.lock_tagged, lock_acknowledged, State.access, hd,
      State.settling_of_held, State.settle_of_held, hheld]
    rfl
  · have hguard : ¬ (code / 100 = 2 ∧
        (s.inv.inviteTsx = none ∨ s.inv.state = .disconnected ∨ s.inv.lastAck = some k)) :=
      hrepeated
    simp [hrepeated, hguard, State.lock_tagged, State.access, hd, State.settling_of_held,
      State.settle_of_held, hheld]

/-- The dialog is locked once more around the response. -/
theorem returns_locked_onRxResponse (env : Env) (notify : Notify) (k code : Nat)
    (hd : s.destroyed = false) (hheld : ¬ s.Free) (hloaded : s.loaded = true)
    (hnotify : s.inv.notify = true) (hinvite : confirming env s k → s.inv.inviteTsx = none)
    {post : List Event → Unit → State → Prop} :
    Returns (locked (pjsipDlgOnRxResponse env notify k .invite code)) s post ↔
      if Repeated s k code then
        AckOk env s k ∧ post (acknowledging env s k) () (acknowledged env k (s.tagged env code))
      else post [] () (s.tagged env code) := by
  rw [returns_locked, returns_pjsipDlgOnRxResponse env notify k code (s := s.lock) hd
    s.not_free_lock hloaded hnotify hinvite]
  by_cases hrepeated : Repeated s k code
  · have hlocked : Repeated s.lock k code := hrepeated
    simp [hrepeated, hlocked, State.lock_tagged, lock_acknowledged, State.access, hd,
      State.settling_of_held, State.settle_of_held, hheld]
    rfl
  · have hlocked : ¬ Repeated s.lock k code := hrepeated
    simp [hrepeated, hlocked, State.lock_tagged, State.access, hd, State.settling_of_held,
      State.settle_of_held, hheld]

theorem acknowledged_disconnected :
    (acknowledged env k s).inv.state = .disconnected ↔ s.inv.state = .disconnected := by
  simp only [acknowledged, State.withInv_inv]
  split
  · rename_i hconfirming
    have hs : s.inv.state ≠ .disconnected := by
      intro hs
      simp [confirming, hs, rank] at hconfirming
    simp [hs]
  · rfl

theorem Coherent.acknowledged (h : Coherent b n s)
    (hphase : 0 ∉ b → Phase (acknowledged env k s)) : Coherent b n (acknowledged env k s) :=
  h.withInv acknowledged_disconnected rfl rfl rfl hphase

theorem Report.acknowledged (env : Env) (j : Nat)
    (hconnecting : confirming env s j → s.inv.state = .connecting) :
    Report k [j] s (acknowledging env s j) (acknowledged env j s) := by
  refine .session ?_ ?_ ?_ ?_ fun _ => rfl
  · unfold acknowledging
    split <;> simp [Event.Clean]
  · unfold acknowledging
    split <;> simp
  · unfold acknowledging
    split <;> simp [Event.acked]
  · unfold acknowledging
    split
    · rename_i hconfirming
      exact .step (Nat.le_of_lt hconfirming.2) (by simp) rfl (by simp)
        (by simp [acksFor, hconnecting hconfirming, Event.acked, List.filterMap_cons])
    · exact .quiet (by simp [Event.announced])

end Response

/-! ## The session's part -/

def Tsx.Accepted (t : Tsx) : Prop := t.state = .terminated ∧ t.statusCode / 100 = 2

instance (t : Tsx) : Decidable t.Accepted := inferInstanceAs (Decidable (_ ∧ _))

/-- The INVITE has changed, and the change is to be reported. -/
structure Inviting (n : Nat) (t : Tsx) (source : Source) (s : State) : Prop where
  coherent : Coherent [0] n s
  get : s.tsxs[0]? = some t
  attached : t.attached = true
  ok : t.Ok ∨ t.Ended
  accepted : t.Accepted → source = .rxMsg
  phase : match s.inv.state with
    | .null => s.inv.inviteTsx = none ∧ s.inv.lastAck = none ∧ source ≠ .rxMsg ∧
        (t.state = .calling ∨ t.Ended)
    | .calling | .early => s.inv.inviteTsx = some 0 ∧ s.inv.lastAck = none ∧ t.state ≠ .calling
    | .connecting | .confirmed => False
    | .disconnected => (s.inv.inviteTsx = none ∨ s.inv.inviteTsx = some 0) ∧
        (s.inv.lastAck = none ∨ s.inv.lastAck = some 0)

/-- The session has heard of the change; a transaction that is over is still attached. -/
structure Heard (n : Nat) (acks : List Nat) (t : Tsx) (s : State) (es : List Event)
    (u : State) : Prop where
  coherent : Coherent [0] n u
  report : Report 0 acks s es u
  get : u.tsxs[0]? = some t
  phase : Phase (if t.state = .terminated then u.detach 0 else u)

section Handlers

variable {env : Env} {notify : Notify} {n : Nat} {source : Source} {t : Tsx} {s : State}

theorem Inviting.method (h : Inviting n t source s) : t.method = .invite :=
  (h.coherent.methods 0 t h.get).mpr rfl

theorem Inviting.role (h : Inviting n t source s) : t.role = .uac := by
  cases hrole : t.role with
  | uac => rfl
  | uas =>
      have hbye := h.coherent.uas 0 t h.get hrole
      rw [h.method] at hbye
      cases hbye

/-- The invite transaction is forgotten when it is over. -/
def State.forget (t : Tsx) (s : State) : State :=
  s.withInv fun inv => { inv with
    inviteTsx := if TsxState.confirmed.rank ≤ t.state.rank ∧ inv.inviteTsx = some 0 then none
      else inv.inviteTsx }

theorem returns_modInvOnTsxState {post : List Event → Unit → State → Prop}
    (hloaded : s.loaded = true)
    (hhandler : Returns (invStateHandler env notify 0 source) s fun es _ u =>
      u.tsxs[0]? = some t ∧ post es () (u.forget t)) :
    Returns (modInvOnTsxState env notify 0 source) s post := by
  simp only [modInvOnTsxState, pjsipDlgGetInvSession, returns_bind, returns_get, hloaded, if_true,
    returns_pure]
  refine hhandler.mono fun es _ u hu => ?_
  simp only [returns_tsx hu.1, returns_updateInv]
  simpa [State.forget] using hu.2

theorem Coherent.forget {b : List Nat} (h : Coherent (0 :: b) n s) :
    Coherent (0 :: b) n (s.forget t) :=
  h.withInv Iff.rfl rfl rfl rfl (by simp)

theorem Report.forget {as : List Nat} {es : List Event} {u : State} (h : Report 0 as s es u) :
    Report 0 as s es (u.forget t) := by
  have hforget : Report 0 [] u [] (u.forget t) :=
    { Report.refl (k := 0) (s := u) with inviteTsx := fun h => absurd rfl h }
  simpa using h.trans hforget

theorem heard_over (hcoherent : Coherent [0] (n + 1) s) (hget : s.tsxs[0]? = some t)
    (hinvite : s.inv.inviteTsx = some 0) (hs : s.inv.state ≠ .disconnected) (c : Nat) :
    Heard (n + 1) [] t s [.stateChanged .disconnected, .destroySession] ((s.over c).forget t) := by
  have htsxs : s.tsxs ≠ [] := List.ne_nil_of_mem (List.mem_of_getElem? hget)
  refine ⟨(hcoherent.over hs htsxs c).forget, (Report.over hs c).forget, hget, ?_⟩
  have hforget : ((s.over c).forget t).inv.inviteTsx = none ∨
      ((s.over c).forget t).inv.inviteTsx = some 0 := by
    simp only [State.forget, State.withInv_inv, State.over, hinvite]
    split <;> simp
  split
  · exact ⟨hforget, .inl rfl, by simpa [State.forget, State.detach, State.over] using htsxs⟩
  · exact ⟨hforget, .inl rfl, htsxs⟩

/-- The session goes on, in a state in which the INVITE is still pending. -/
theorem heard_enter (hcoherent : Coherent [0] n s) (hget : s.tsxs[0]? = some t)
    (hpending : s.inv.lastAck = none) {st : InvState}
    (hst : st = .calling ∧ t.state = .calling ∨ st = .early ∧ t.state = .proceeding)
    (hle : rank s.inv.state ≤ rank st) (p : Prop) [Decidable p] (c : Bool) {f : Inv → Inv}
    (hf : f s.inv = { s.inv with state := st, inviteTsx := some 0, callingNotified := c }) :
    Heard n [] t s (if p then [] else [.stateChanged st]) ((s.withInv f).forget t) := by
  have hactive : st ≠ .disconnected ∧ s.inv.state ≠ .disconnected := by
    refine ⟨?_, fun h => ?_⟩
    · rcases hst with h | h <;> simp [h.1]
    · rw [h] at hle
      rcases hst with h' | h' <;> simp [h'.1, rank] at hle
  have hgoes : ¬ (TsxState.confirmed.rank ≤ t.state.rank) := by
    rcases hst with h | h <;> simp [h.2, TsxState.rank]
  have hsame : (s.withInv f).forget t = s.withInv fun inv => { inv with
      state := st, inviteTsx := some 0, callingNotified := c } := by
    simp [State.forget, State.withInv, hgoes, hf]
  rw [hsame]
  refine ⟨hcoherent.withInv (by simp [hactive]) rfl rfl rfl (by simp), ?_, hget, ?_⟩
  · have hacks : acksFor st = 0 := by
      rcases hst with h | h <;> simp [h.1, acksFor]
    have htold := Told.enter hle hactive.1 hacks p
    exact .session (by split <;> simp [Event.Clean]) (by split <;> simp) (by split <;> rfl) htold
      (by simp)
  · rcases hst with ⟨rfl, ht⟩ | ⟨rfl, ht⟩
    · rw [if_neg (by simp [ht])]
      exact ⟨rfl, hpending, t, hget, .inl ht⟩
    · rw [if_neg (by simp [ht])]
      exact ⟨rfl, hpending, t, hget, ht⟩

/-- A 2xx is acknowledged. -/
def State.accept (s : State) : State :=
  s.withInv fun inv => { inv with state := .connecting, inviteTsx := none, lastAck := some 0 }

theorem heard_accept (hcoherent : Coherent [0] n s) (hget : s.tsxs[0]? = some t)
    (haccepted : t.Accepted) (hle : rank s.inv.state ≤ rank .connecting) :
    Heard n [0] t s [.stateChanged .connecting, .ack 0] s.accept := by
  have hactive : s.inv.state ≠ .disconnected := by
    intro h
    simp [h, rank] at hle
  refine ⟨hcoherent.withInv (by simp [hactive]) rfl rfl rfl (by simp), ?_, hget, ?_⟩
  · have htold : Told s.inv.state [.stateChanged .connecting, .ack 0] .connecting :=
      .step hle (by simp) rfl (by simp) (by simp [acksFor, Event.acked, List.filterMap_cons])
    exact .session (by simp [Event.Clean]) (by simp) rfl htold (by simp)
  · rw [if_pos haccepted.1]
    exact ⟨rfl, rfl, { t with attached := false }, by simp [State.detach, State.accept, hget], rfl⟩

theorem Inviting.cases (h : Inviting n t source s) :
    t.state = .calling ∨ t.state = .proceeding ∨ (t.state = .completed ∧ 300 ≤ t.statusCode) ∨
      t.Ended := by
  obtain hok | hend := h.ok
  · have hrole := h.role
    have hmethod := h.method
    have hattached := h.attached
    cases hstate : t.state <;> simp_all [Tsx.Ok]
  · exact .inr (.inr (.inr hend))

/-- The INVITE has failed. -/
theorem heard_failed (hcoherent : Coherent [0] (n + 1) s) (hget : s.tsxs[0]? = some t)
    (hinvite : s.inv.inviteTsx = some 0) (hs : s.inv.state ≠ .disconnected)
    (hcode : 200 ≤ t.statusCode) :
    Returns (disconnect env notify t.statusCode) s fun es _ u =>
      u.tsxs[0]? = some t ∧ Heard (n + 1) [] t s es (u.forget t) :=
  (returns_disconnect (by omega) hcoherent hs).mpr
    ⟨hget, heard_over hcoherent hget hinvite hs t.statusCode⟩

theorem calling_failed (hcoherent : Coherent [0] (n + 1) s) (hget : s.tsxs[0]? = some t)
    (hinvite : s.inv.inviteTsx = some 0) (hs : s.inv.state ≠ .disconnected) (hend : t.Ended)
    (haccepted : ¬ t.Accepted) :
    Returns (invOnStateCalling env notify 0 source) s fun es _ u =>
      u.tsxs[0]? = some t ∧ Heard (n + 1) [] t s es (u.forget t) := by
  have hcode : ¬ t.statusCode / 100 = 2 := fun h => haccepted ⟨hend.1, h⟩
  simp only [invOnStateCalling, returns_bind, returns_get, returns_tsx hget, hinvite, if_true,
    hend.1, hcode, if_false]
  exact heard_failed hcoherent hget hinvite hs hend.2.1

theorem Inviting.calling (h : Inviting (n + 1) t source s) (hs : s.inv.state = .calling)
    (haccepted : ¬ t.Accepted) :
    Returns (invOnStateCalling env notify 0 source) s fun es _ u =>
      u.tsxs[0]? = some t ∧ Heard (n + 1) [] t s es (u.forget t) := by
  have hphase := h.phase
  simp only [hs] at hphase
  obtain ⟨hinvite, hack, hstate⟩ := hphase
  obtain hcalling | hproceeding | ⟨hcompleted, hcode⟩ | hend := h.cases
  · exact absurd hcalling hstate
  · have hsame : s.forget t = s := by
      simp [State.forget, State.withInv, hproceeding, TsxState.rank]
    simp only [invOnStateCalling, returns_bind, returns_get, returns_tsx h.get, hinvite, if_true,
      hproceeding, h.coherent.pendingCancel, returns_ite, Bool.false_eq_true, if_false,
      returns_pure]
    split
    · rw [returns_invSetState .early (by simp) (by simp) h.coherent.notify]
      simp only [List.nil_append]
      exact ⟨h.get, heard_enter h.coherent h.get hack (.inr ⟨rfl, hproceeding⟩)
        (by simp [hs, rank]) _ s.inv.callingNotified (by simp [hinvite])⟩
    · refine ⟨h.get, ?_⟩
      rw [hsame]
      refine ⟨h.coherent, .refl, h.get, ?_⟩
      rw [if_neg (by simp [hproceeding])]
      simp only [Phase, hs]
      exact ⟨hinvite, hack, t, h.get, .inr hproceeding⟩
  · have hcode' : ¬ t.statusCode / 100 = 2 := by omega
    simp only [invOnStateCalling, returns_bind, returns_get, returns_tsx h.get, hinvite, if_true,
      hcompleted, hcode', if_false, handleUacCallRejection]
    exact heard_failed h.coherent h.get hinvite (by simp [hs]) (by omega)
  · exact calling_failed h.coherent h.get hinvite (by simp [hs]) hend haccepted

theorem Inviting.early (h : Inviting (n + 1) t source s) (hs : s.inv.state = .early)
    (haccepted : ¬ t.Accepted) :
    Returns (invOnStateEarly env notify 0 source) s fun es _ u =>
      u.tsxs[0]? = some t ∧ Heard (n + 1) [] t s es (u.forget t) := by
  have hphase := h.phase
  simp only [hs] at hphase
  obtain ⟨hinvite, hack, hstate⟩ := hphase
  simp only [invOnStateEarly, returns_bind, returns_get, returns_tsx h.get, hinvite, if_true]
  obtain hcalling | hproceeding | ⟨hcompleted, hcode⟩ | hend := h.cases
  · exact absurd hcalling hstate
  · simp only [hproceeding]
    rw [returns_invSetState .early (by simp) (by simp) h.coherent.notify]
    simp only [List.nil_append]
    exact ⟨h.get, heard_enter h.coherent h.get hack (.inr ⟨rfl, hproceeding⟩)
      (by simp [hs, rank]) _ s.inv.callingNotified (by simp [hinvite])⟩
  · have hcode' : ¬ t.statusCode / 100 = 2 := by omega
    simp only [hcompleted, hcode', if_false, handleUacCallRejection, returns_bind,
      returns_tsx h.get]
    exact heard_failed h.coherent h.get hinvite (by simp [hs]) (by omega)
  · have hcode : ¬ t.statusCode / 100 = 2 := fun h' => haccepted ⟨hend.1, h'⟩
    simp only [hend.1, hcode, if_false]
    exact heard_failed h.coherent h.get hinvite (by simp [hs]) hend.2.1

theorem Heard.start {as : List Nat} {es : List Event} {u : State} {f : Inv → Inv}
    (h : Heard n as t (s.withInv f) es u) (hstate : (f s.inv).state = s.inv.state) :
    Heard n as t s es u :=
  { h with
    report := { h.report with
      told := by simpa [hstate] using h.report.told
      inviteTsx := fun h' => absurd rfl h' } }

theorem Inviting.null (h : Inviting (n + 1) t source s) (hs : s.inv.state = .null)
    (haccepted : ¬ t.Accepted) :
    Returns (invOnStateNull env notify 0 source) s fun es _ u =>
      u.tsxs[0]? = some t ∧ Heard (n + 1) [] t s es (u.forget t) := by
  have hphase := h.phase
  simp only [hs] at hphase
  obtain ⟨hinvite, hack, hsource, hstate⟩ := hphase
  have hcoherent : Coherent [0] (n + 1) (s.withInv fun inv => { inv with
      inviteTsx := if inv.inviteTsx = none then some 0 else inv.inviteTsx }) :=
    h.coherent.withInv Iff.rfl rfl rfl rfl (by simp)
  simp only [invOnStateNull, returns_bind, returns_tsx h.get, h.method, if_true,
    returns_updateInv, returns_ite]
  split
  · rename_i hcalling
    refine (returns_invSetState .calling (by simp) (by simp) hcoherent.notify).mpr ⟨h.get, ?_⟩
    simp only [List.nil_append]
    exact (heard_enter hcoherent h.get hack (.inl ⟨rfl, hcalling⟩) (by simp [hs, rank]) _
      (s.inv.callingNotified || decide (InvState.calling = .calling)) (by simp [hinvite])).start rfl
  · rename_i hcalling
    have hend : t.Ended := hstate.resolve_left hcalling
    refine (calling_failed hcoherent h.get (by simp [hinvite]) (by simp [hs]) hend
      haccepted).mono fun es _ u hu => ⟨hu.1, ?_⟩
    simpa using hu.2.start rfl

theorem heard_disconnected (hcoherent : Coherent [0] n s) (hget : s.tsxs[0]? = some t)
    (hs : s.inv.state = .disconnected) (hack : s.inv.lastAck = none ∨ s.inv.lastAck = some 0)
    {f : Inv → Inv} {x : Option Nat} (hx : x = none ∨ x = some 0)
    (hf : f s.inv = { s.inv with inviteTsx := x }) :
    Heard n [] t s [] ((s.withInv f).forget t) := by
  have htsxs : s.tsxs ≠ [] := List.ne_nil_of_mem (List.mem_of_getElem? hget)
  have hcoherent' : Coherent [0] n (s.withInv f) :=
    hcoherent.withInv (by simp [hf]) (by simp [hf]) (by simp [hf]) (by simp [hf]) (by simp)
  have hreport : Report 0 [] s [] (s.withInv f) :=
    .session (by simp) (by simp) rfl (by simpa [hf] using Told.nil) (by simp)
  have hforget : ((s.withInv f).forget t).inv.inviteTsx = none ∨
      ((s.withInv f).forget t).inv.inviteTsx = some 0 := by
    simp only [State.forget, State.withInv_inv, hf]
    split <;> simp [hx]
  have hphase : Phase ((s.withInv f).forget t) := by
    simp only [Phase, State.forget, State.withInv_inv, hf, hs]
    exact ⟨by simpa [State.forget, hf] using hforget, hack, htsxs⟩
  refine ⟨hcoherent'.forget, hreport.forget, hget, ?_⟩
  split
  · exact hphase.detach (by simp [State.forget, hf, hs])
  · exact hphase

theorem Inviting.disconnected (h : Inviting (n + 1) t source s)
    (hs : s.inv.state = .disconnected) :
    Returns (invOnStateDisconnected env notify 0 source) s fun es _ u =>
      u.tsxs[0]? = some t ∧ Heard (n + 1) [] t s es (u.forget t) := by
  have hphase := h.phase
  simp only [hs] at hphase
  obtain ⟨hinvite, hack⟩ := hphase
  have hother (x : Option Nat) (hx : x = none ∨ x = some 0) {f : Inv → Inv}
      (hf : f s.inv = { s.inv with inviteTsx := x }) :=
    heard_disconnected h.coherent h.get hs hack hx hf
  simp only [invOnStateDisconnected, handleUacTsxResponse, returns_bind, returns_get,
    returns_tsx h.get, h.role, h.method, hs, returns_ite, returns_updateInv, returns_pure,
    reduceCtorEq, false_and, ne_eq, not_true, if_false, if_true, List.nil_append]
  split
  · exact ⟨h.get, hother none (.inl rfl) rfl⟩
  · exact ⟨h.get, hother s.inv.inviteTsx hinvite (f := id) rfl⟩

theorem returns_accept (h : Inviting (n + 1) t source s) (haccepted : t.Accepted)
    (hs : s.inv.state = .calling ∨ s.inv.state = .early)
    {post : List Event → Unit → State → Prop} :
    Returns (invStateHandler env notify 0 source) s post ↔
      AckOk env s 0 ∧ post [.stateChanged .connecting, .ack 0] ()
        (s.withInv fun inv => { inv with state := .connecting, lastAck := some 0 }) := by
  have hphase : s.inv.inviteTsx = some 0 ∧ s.inv.lastAck = none := by
    have hphase := h.phase
    rcases hs with hs | hs <;> simp only [hs] at hphase <;> exact ⟨hphase.1, hphase.2.1⟩
  have hsource := h.accepted haccepted
  have hheld := h.coherent.held h.coherent.alive
  have hsend (post : List Event → Unit → State → Prop) :
      Returns (invSendAck env notify 0) (s.withInv fun inv => { inv with
        state := .connecting
        callingNotified := inv.callingNotified || decide (InvState.connecting = .calling) }) post ↔
      AckOk env s 0 ∧ post [.ack 0] () (s.withInv fun inv => { inv with
        state := .connecting, lastAck := some 0 }) := by
    rw [returns_invSendAck_first env notify 0 (by exact h.coherent.alive) (by exact hheld)
      (by exact hphase.2)]
    simp [AckOk, Cached, State.withInv]
  rcases hs with hs | hs
  · simp only [invStateHandler, hs, invOnStateCalling, returns_bind, returns_get,
      returns_tsx h.get, hphase.1, if_true, haccepted.1, haccepted.2, hsource, returns_pjAssert,
      returns_invSetState .connecting (by simp) (by simp) h.coherent.notify, hsend]
    simp
  · simp only [invStateHandler, hs, invOnStateEarly, returns_bind, returns_get,
      returns_tsx h.get, hphase.1, if_true, haccepted.1, haccepted.2, hsource, returns_pjAssert,
      returns_invSetState .connecting (by simp) (by simp) h.coherent.notify, hsend]
    simp

theorem Inviting.lock (h : Inviting n t source s) : Inviting (n + 1) t source s.lock :=
  ⟨h.coherent.lock (h.coherent.alive_of_attached h.get h.attached), h.get, h.attached, h.ok,
    h.accepted, h.phase⟩

/-- Whether the session acknowledges when it hears of the change. -/
def Accepting (t : Tsx) (s : State) : Prop := t.Accepted ∧ s.inv.state ≠ .disconnected

instance (t : Tsx) (s : State) : Decidable (Accepting t s) := inferInstanceAs (Decidable (_ ∧ _))

theorem Inviting.accepting_state (h : Inviting n t source s) (haccepting : Accepting t s) :
    s.inv.state = .calling ∨ s.inv.state = .early := by
  have hphase := h.phase
  cases hs : s.inv.state <;> simp only [hs] at hphase
  case null => exact absurd (h.accepted haccepting.1) hphase.2.2.1
  case calling => simp
  case early => simp
  case disconnected => exact absurd hs haccepting.2

theorem Inviting.session (h : Inviting (n + 1) t source s) (hloaded : s.loaded = true)
    (hack : Accepting t s → AckOk env s 0) :
    Returns (modInvOnTsxState env notify 0 source) s fun es _ u =>
      Heard (n + 1) (if Accepting t s then [0] else []) t s es u := by
  refine returns_modInvOnTsxState (t := t) hloaded ?_
  by_cases haccepting : Accepting t s
  · have hs := h.accepting_state haccepting
    rw [if_pos haccepting, returns_accept h haccepting.1 hs]
    have hrank : rank s.inv.state ≤ rank .connecting := by
      rcases hs with hs | hs <;> simp [hs, rank]
    have hinvite : s.inv.inviteTsx = some 0 := by
      have hphase := h.phase
      rcases hs with hs | hs <;> simp only [hs] at hphase <;> exact hphase.1
    have hsame : (s.withInv fun inv => { inv with
        state := .connecting, lastAck := some 0 }).forget t = s.accept := by
      simp [State.forget, State.withInv, State.accept, haccepting.1.1, TsxState.rank, hinvite]
    refine ⟨hack haccepting, h.get, ?_⟩
    rw [hsame]
    exact heard_accept h.coherent h.get haccepting.1 hrank
  · rw [if_neg haccepting]
    have hrejected (hs : s.inv.state ≠ .disconnected) : ¬ t.Accepted := fun h' =>
      haccepting ⟨h', hs⟩
    have hphase := h.phase
    simp only [invStateHandler, returns_bind, returns_get]
    cases hs : s.inv.state <;> simp only [hs] at hphase
    case null => exact h.null hs (hrejected (by simp [hs]))
    case calling => exact h.calling hs (hrejected (by simp [hs]))
    case early => exact h.early hs (hrejected (by simp [hs]))
    case disconnected => exact h.disconnected hs

/-- The session hears of the change, and an INVITE that is over is given up. -/
theorem Inviting.tsxState (env : Env) (notify : Notify) (h : Inviting n t source s) (hloaded : s.loaded = true)
    (hack : Accepting t s → AckOk env s 0) :
    Returns (pjsipDlgOnTsxState env notify 0 source) s fun es _ u =>
      Followed [] n 0 (if Accepting t s then [0] else []) t s es u := by
  have hd := h.coherent.alive_of_attached h.get h.attached
  refine returns_pjsipDlgOnTsxState hd h.attached
    ((h.lock.session hloaded hack).mono fun es _ u hu => ?_)
  exact ⟨hu.coherent, hu.report, t, hu.get, h.ok, fun _ => ⟨t.timeoutTimer, rfl⟩,
    fun _ => by simpa [h.attached] using hu.phase⟩

theorem Inviting.with (h : Inviting n t source s) {u : State} (hcoherent : Coherent [0] n u)
    (hget : u.tsxs = s.tsxs) (hstate : u.inv.state = s.inv.state)
    (hinvite : u.inv.inviteTsx = s.inv.inviteTsx)
    (hack : u.inv.lastAck = s.inv.lastAck ∨ u.inv.lastAck = some 0 ∧ s.inv.state = .disconnected) :
    Inviting n t source u := by
  refine ⟨hcoherent, by rw [hget]; exact h.get, h.attached, h.ok, h.accepted, ?_⟩
  have hphase := h.phase
  rw [hstate, hinvite]
  rcases hack with hack | ⟨hack, hs⟩
  · rwa [hack]
  · simp only [hs] at hphase ⊢
    exact ⟨hphase.1, .inr hack⟩

theorem Inviting.accepted_iff (h : Inviting n t source s) :
    t.Accepted ↔ t.statusCode / 100 = 2 := by
  refine ⟨fun h' => h'.2, fun hcode => ⟨?_, hcode⟩⟩
  obtain hcalling | hproceeding | ⟨-, hcompleted⟩ | hend := h.cases
  · have hok := h.ok.resolve_right fun h' => by simp [h'.1] at hcalling
    simp only [Tsx.Ok, hcalling] at hok
    omega
  · have hok := h.ok.resolve_right fun h' => by simp [h'.1] at hproceeding
    simp only [Tsx.Ok, hproceeding] at hok
    omega
  · omega
  · exact hend.1

/-- In a session that is over, the response alone is acknowledged. -/
theorem Inviting.repeated_iff (h : Inviting n t source s) (hsource : source = .rxMsg) :
    Repeated s 0 t.statusCode ↔ t.Accepted ∧ s.inv.state = .disconnected := by
  have hphase := h.phase
  rw [Repeated, h.accepted_iff]
  cases hs : s.inv.state <;> simp only [hs] at hphase
  case null => exact absurd hsource hphase.2.2.1
  case calling => simp [hphase]
  case early => simp [hphase]
  case disconnected => simp

theorem Inviting.not_confirming (env : Env) (h : Inviting n t source s) : ¬ confirming env s 0 := by
  rintro ⟨⟨hlast, -⟩, hrank⟩
  have hphase := h.phase
  cases hs : s.inv.state <;> simp only [hs] at hphase
  case null => simp [hphase.2.1] at hlast
  case calling => simp [hphase.2.1] at hlast
  case early => simp [hphase.2.1] at hlast
  case disconnected => simp [hs, rank] at hrank

theorem Inviting.notified (env : Env) (notify : Notify) (h : Inviting n t source s) (hloaded : s.loaded = true)
    (hack : t.Accepted → AckOk env s 0) :
    Returns (modUaNotify env notify 0 source) s fun es _ u =>
      Followed [] n 0 (if t.Accepted then [0] else []) t s es u := by
  have hd := h.coherent.alive_of_attached h.get h.attached
  have hheld := h.coherent.held hd
  by_cases hsource : source = .rxMsg
  · have hconfirming := Inviting.not_confirming env h
    simp only [modUaNotify, returns_bind, returns_tsx h.get, h.attached, hsource, h.role, h.method,
      and_self, if_true, returns_locked_onRxResponse env notify 0 t.statusCode hd hheld hloaded
        h.coherent.notify fun h' => absurd h' hconfirming]
    subst hsource
    by_cases hrepeated : Repeated s 0 t.statusCode
    · obtain ⟨haccepted, hs⟩ := (h.repeated_iff rfl).mp hrepeated
      have hstate : (acknowledged env 0 (s.tagged env t.statusCode)).inv.state = s.inv.state :=
        if_neg hconfirming
      have hnext : Inviting n t .rxMsg (acknowledged env 0 (s.tagged env t.statusCode)) :=
        h.with (h.coherent.tagged.acknowledged (by simp)) rfl hstate rfl
          (.inr ⟨rfl, hs⟩)
      have hnot : ¬ Accepting t (acknowledged env 0 (s.tagged env t.statusCode)) := fun h' =>
        h'.2 (hstate.trans hs)
      have hreport := Inviting.tsxState env notify hnext hloaded fun h' => absurd h' hnot
      have hack' := Report.trans (.tagged env t.statusCode)
        (Report.acknowledged (k := 0) (s := s.tagged env t.statusCode) env 0
          fun h' => absurd h' hconfirming)
      rw [if_neg hnot] at hreport
      rw [if_pos hrepeated, if_pos haccepted]
      refine ⟨hack haccepted, hreport.mono fun es _ u hu => ?_⟩
      simpa using hu.after hack'
    · have hnext : Inviting n t .rxMsg (s.tagged env t.statusCode) :=
        h.with h.coherent.tagged rfl rfl rfl (.inl rfl)
      have hiff : Accepting t (s.tagged env t.statusCode) ↔ t.Accepted :=
        ⟨And.left, fun h' => ⟨h', fun hs => hrepeated ((h.repeated_iff rfl).mpr ⟨h', hs⟩)⟩⟩
      have hreport := Inviting.tsxState env notify hnext hloaded fun h' => hack h'.1
      simp only [hiff] at hreport
      rw [if_neg hrepeated]
      refine hreport.mono fun es _ u hu => ?_
      simpa using hu.after (.tagged env t.statusCode)
  · have hrejected : ¬ t.Accepted := fun h' => hsource (h.accepted h')
    have hnot : ¬ Accepting t s := fun h' => hrejected h'.1
    have hreport := Inviting.tsxState env notify h hloaded fun h' => absurd h' hnot
    rw [if_neg hnot] at hreport
    rw [if_neg hrejected]
    simpa [modUaNotify, returns_tsx h.get, h.attached, hsource] using hreport

/-- An INVITE is not accepted without an ACK. -/
theorem Inviting.ack_needed (h : Inviting n t source s) (hloaded : s.loaded = true)
    (haccepted : t.Accepted)
    (hreturns : Returns (modUaNotify env notify 0 source) s fun _ _ _ => True) :
    AckOk env s 0 := by
  have hd := h.coherent.alive_of_attached h.get h.attached
  have hheld := h.coherent.held hd
  have hsource := h.accepted haccepted
  have hconfirming := Inviting.not_confirming env h
  subst hsource
  simp only [modUaNotify, returns_bind, returns_tsx h.get, h.attached, h.role, h.method,
    and_self, if_true, returns_locked_onRxResponse env notify 0 t.statusCode hd hheld hloaded
      h.coherent.notify fun h' => absurd h' hconfirming] at hreturns
  split at hreturns
  · exact hreturns.1
  · rename_i hrepeated
    have hnext : Inviting n t .rxMsg (s.tagged env t.statusCode) :=
      h.with h.coherent.tagged rfl rfl rfl (.inl rfl)
    have hs : (s.tagged env t.statusCode).lock.inv.state = .calling ∨
        (s.tagged env t.statusCode).lock.inv.state = .early :=
      hnext.accepting_state ⟨haccepted, fun hs =>
        hrepeated ((h.repeated_iff rfl).mpr ⟨haccepted, hs⟩)⟩
    have hloaded' : (s.tagged env t.statusCode).lock.loaded = true := hloaded
    simp only [pjsipDlgOnTsxState, returns_locked, modInvOnTsxState, pjsipDlgGetInvSession,
      returns_bind, returns_get, hloaded', if_true, returns_pure,
      returns_accept hnext.lock haccepted hs] at hreturns
    exact hreturns.1

end Handlers

end SimpleSipClient.Call
