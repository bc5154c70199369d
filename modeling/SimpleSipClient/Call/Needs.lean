import SimpleSipClient.Call.Inputs

/-! # What a clean step needs

The other direction: a step that returns and leaves nothing unclean behind has met its
condition. A clean composition is clean in each of its parts, so that it is enough to follow the
routine to the place where the condition is used.
-/

namespace SimpleSipClient.Call

open Foundation
open MediaClient (InvState)

/-- The routine returns, and nothing unclean has happened. -/
def Clean {α : Type} (x : Routine α) (s : State) : Prop :=
  Returns x s fun es _ _ => ∀ e ∈ es, e.Clean

section Clean

variable {α β : Type} {x : Routine α} {f : α → Routine β} {s : State}

theorem Clean.bind (h : Clean (x >>= f) s) :
    Returns x s fun es a t => (∀ e ∈ es, e.Clean) ∧ Clean (f a) t := by
  refine (returns_bind.mp h).mono fun es a t ht => ?_
  have hpair : Returns (f a) t fun fs _ _ => (∀ e ∈ es, e.Clean) ∧ ∀ e ∈ fs, e.Clean :=
    ht.mono fun fs _ _ hall => List.forall_mem_append.mp hall
  obtain ⟨_, _, _, _, hes, -⟩ := hpair.elim
  exact ⟨hes, hpair.mono fun _ _ _ hfs => hfs.2⟩

theorem Clean.first (h : Clean (x >>= f) s) : Clean x s :=
  h.bind.mono fun _ _ _ h' => h'.1

/-- The rest is clean in a state that the first part leaves. -/
theorem Clean.next {post : List Event → α → State → Prop} (h : Clean (x >>= f) s)
    (hx : Returns x s post) : ∃ es a t, post es a t ∧ Clean (f a) t := by
  obtain ⟨es, a, t, -, hpost, -, hclean⟩ := (hx.and h.bind).elim
  exact ⟨es, a, t, hpost, hclean⟩

theorem Clean.locked {x : Routine α} (h : Clean (locked x) s) :
    s.destroyed = false ∧ Clean x s.lock := by
  rw [Clean, returns_locked] at h
  have hpair : Returns x s.lock fun es _ _ =>
      (∀ e ∈ s.access, e.Clean) ∧ ∀ e ∈ es, e.Clean := h.mono fun es a t ht => by
    have hall := List.forall_mem_append.mp ht.2
    exact ⟨hall.1, (List.forall_mem_append.mp hall.2).1⟩
  obtain ⟨_, _, _, _, haccess, -⟩ := hpair.elim
  refine ⟨?_, hpair.mono fun _ _ _ h' => h'.2⟩
  cases hd : s.destroyed with
  | false => rfl
  | true => simp [State.access, hd, Event.Clean] at haccess

theorem clean_ite {p : Prop} [Decidable p] {y : Routine α} :
    Clean (if p then x else y) s ↔ if p then Clean x s else Clean y s := returns_ite

section Parts

variable {k : Nat} {f : Unit → Routine β}

theorem clean_tsx {f : Tsx → Routine β} {t : Tsx} (ht : s.tsxs[k]? = some t) :
    Clean (tsx k >>= f) s ↔ Clean (f t) s := by
  simp [Clean, returns_tsx ht]

theorem clean_updateTsx {g : Tsx → Tsx} :
    Clean (updateTsx k g >>= f) s ↔ Clean (f ()) (s.withTsx k g) := by
  simp [Clean]

theorem clean_update {g : State → State} : Clean (update g >>= f) s ↔ Clean (f ()) (g s) := by
  simp [Clean]

theorem clean_pjAssert {b : Bool} {a : Assertion} :
    Clean (pjAssert b a >>= f) s ↔ b = true ∧ Clean (f ()) s := by
  simp [Clean]

end Parts

theorem loaded_of_session (h : Clean pjsipDlgGetInvSession s) : s.loaded = true := by
  cases hloaded : s.loaded with
  | true => rfl
  | false => simp [Clean, pjsipDlgGetInvSession, hloaded, Event.Clean] at h

end Clean

/-! ## The session's module -/

section Loaded

variable {env : Env} {notify : Notify} {k code depth : Nat} {s : State} {t : Tsx}
variable {source : Source} {st : TsxState}

theorem loaded_of_tsxState (h : Clean (pjsipDlgOnTsxState env notify k source) s) :
    s.loaded = true := by
  have hbody := h.locked.2.first
  rw [modInvOnTsxState] at hbody
  exact loaded_of_session (s := s.lock) hbody.first

theorem loaded_of_rxResponse {method : Method}
    (h : Clean (pjsipDlgOnRxResponse env notify k method code) s) : s.loaded = true := by
  have htag : Returns (dlgUpdateTag env method code) s.lock fun _ _ u => u.loaded = s.loaded := by
    rw [dlgUpdateTag, returns_update]
    split <;> rfl
  obtain ⟨_, _, u, hu, hclean⟩ := h.locked.2.next htag
  rw [modInvOnRxResponse] at hclean
  exact hu.symm.trans (loaded_of_session hclean.first)

theorem loaded_of_report (h : Clean (tsxUser env (depth + 1) k source) s)
    (ht : s.tsxs[k]? = some t) (hattached : t.attached = true) : s.loaded = true := by
  rw [tsxUser, modUaNotify, clean_tsx ht, if_pos hattached] at h
  by_cases hresponse : source = .rxMsg ∧ t.role = .uac
  · simp only [hresponse, and_self, if_true] at h
    exact loaded_of_rxResponse (s := s.lock) (Clean.first h).locked.2
  · simp only [hresponse, if_false] at h
    exact loaded_of_tsxState h

theorem loaded_of_change (h : Clean (tsxSetState (tsxUser env nesting) k st source) s)
    (ht : s.tsxs[k]? = some t) (hattached : t.attached = true) : s.loaded = true := by
  rw [tsxSetState, clean_tsx ht, clean_pjAssert, clean_updateTsx] at h
  have hget : (s.withTsx k fun t => { t with state := st }).tsxs[k]? =
      some { t with state := st } := State.withTsx_get ht
  exact loaded_of_report (s := s.withTsx k fun t => { t with state := st }) h.2.first hget hattached

end Loaded

/-! ## Responses -/

section Responses

variable {env : Env} {k code : Nat} {s : State} {t x : Tsx}

theorem loaded_of_proceeding (h : Clean (tsxOnStateProceedingUac env k code) s)
    (ht : s.tsxs[k]? = some x) (hattached : x.attached = true) : s.loaded = true := by
  have hget : (s.withTsx k fun t => { t with statusCode := code }).tsxs[k]? =
      some { x with statusCode := code } := State.withTsx_get ht
  rw [tsxOnStateProceedingUac, clean_updateTsx, clean_tsx hget] at h
  simp only [clean_ite, clean_updateTsx] at h
  split at h
  · exact (loaded_of_change h hget hattached :)
  · split at h
    · split at h
      · exact (loaded_of_change h (State.withTsx_get hget) hattached :)
      · exact (loaded_of_change h (State.withTsx_get hget) hattached :)
    · split at h
      · exact (loaded_of_change h (State.withTsx_get (State.withTsx_get hget)) hattached :)
      · exact (loaded_of_change h.first (State.withTsx_get hget) hattached :)

theorem ack_of_proceeding (h : Clean (tsxOnStateProceedingUac env k code) s)
    (hcoherent : Coherent [k] 0 s) (hpending : k = 0 → Pending s) (ht : s.tsxs[k]? = some x)
    (hattached : x.attached = true) (htakes : takes x code) : AckOk env s k := by
  have hloaded := loaded_of_proceeding h ht hattached
  obtain rfl : k = 0 := (hcoherent.methods k x ht).mp htakes.1
  have hget : (s.withTsx 0 fun t => { t with statusCode := code }).tsxs[0]? =
      some { x with statusCode := code } := State.withTsx_get ht
  have hcode : ¬ code / 100 = 1 := by
    have htwo := htakes.2
    omega
  rw [tsxOnStateProceedingUac, clean_updateTsx, clean_tsx hget, if_neg hcode, if_pos htakes.2,
    if_pos htakes.1, clean_updateTsx, tsxSetState, clean_tsx (State.withTsx_get hget),
    clean_pjAssert, clean_updateTsx] at h
  have hcoded := hcoherent.withTsx (f := fun t => { t with statusCode := code })
    List.mem_cons_self ht rfl rfl rfl
  have hover := (hcoded.withTimer 0 false).withTsx (f := fun t => { t with state := .terminated })
    List.mem_cons_self (State.withTsx_get hget) rfl rfl rfl
  have hfinal : 200 ≤ code := by
    have htwo := htakes.2
    omega
  have hinviting : Inviting 0 _ .rxMsg _ := Pending.inviting (by exact hpending rfl) hover
    (State.withTsx_get (State.withTsx_get hget)) hattached (.inr ⟨rfl, hfinal, hattached⟩)
    (by simp) fun _ => rfl
  have hack := hinviting.ack_needed hloaded ⟨rfl, htakes.2⟩
    (h.2.first.mono fun _ _ _ _ => trivial)
  exact hack

theorem needs_rxResponse (h : Clean (rxResponse env k code) s) (hcoherent : Coherent [] 0 s)
    (ht : s.tsxs[k]? = some t) (hstate : t.state = .calling ∨ t.state = .proceeding) :
    s.loaded = true ∧ (takes t code → AckOk env s k) := by
  obtain ⟨hattached, -⟩ := hcoherent.uac_rank ht hstate
  have hpending : k = 0 → Pending s := by
    rintro rfl
    exact hcoherent.pending ht hattached
  rw [rxResponse, clean_tsx ht] at h
  obtain hs | hs := hstate
  · simp only [hs, tsxOnStateCalling] at h
    rw [clean_tsx ht] at h
    by_cases hstop : 200 ≤ code ∨ t.method = .invite
    · simp only [hstop, if_true, clean_updateTsx] at h
      have hget : (s.withTsx k fun t => { t with timeoutTimer := false }).tsxs[k]? =
          some { t with timeoutTimer := false } := State.withTsx_get ht
      have hack := ack_of_proceeding h ((hcoherent.busy k).withTimer k false) (by exact hpending)
        hget hattached
      exact ⟨(loaded_of_proceeding h hget hattached :), hack⟩
    · simp only [hstop, if_false] at h
      exact ⟨loaded_of_proceeding h ht hattached,
        ack_of_proceeding h (hcoherent.busy k) hpending ht hattached⟩
  · simp only [hs] at h
    exact ⟨loaded_of_proceeding h ht hattached,
      ack_of_proceeding h (hcoherent.busy k) hpending ht hattached⟩

theorem needs_rxStray2xx (h : Clean (rxStray2xx env 0) s) (hcoherent : Coherent [] 0 s)
    (ht : s.tsxs[0]? = some t) (hattached : t.attached = false) (hd : s.destroyed = false) :
    s.loaded = true ∧ AckOk env s 0 := by
  have hloaded : s.loaded = true := loaded_of_rxResponse (s := s.lock) h.locked.2
  exact ⟨hloaded, ((returns_rxStray2xx hcoherent ht hattached hd hloaded).mp h).1⟩

end Responses

/-! ## Timers, the transport and the other side -/

section Ends

variable {env : Env} {k : Nat} {s : State} {t : Tsx}

theorem needs_timeout (h : Clean (timeout env k) s) (hcoherent : Coherent [] 0 s)
    (ht : s.tsxs[k]? = some t) (hsends : t.sends = true) : s.loaded = true := by
  have hattached := hcoherent.attached_of_sends ht hsends
  have hget : (s.withTsx k fun t => { t with timeoutTimer := false }).tsxs[k]? =
      some { t with timeoutTimer := false } := State.withTsx_get ht
  rw [timeout, clean_tsx ht, clean_updateTsx] at h
  cases hs : t.state <;> simp only [hs, clean_updateTsx] at h
  case calling => exact (loaded_of_change h (State.withTsx_get hget) hattached :)
  case proceeding => exact (loaded_of_change h (State.withTsx_get hget) hattached :)
  case completed => exact (loaded_of_change h hget hattached :)
  all_goals simp [Tsx.sends, hs] at hsends

theorem needs_transportError {posted : Bool} (h : Clean (transportError env k posted) s)
    (hcoherent : Coherent [] 0 s) (ht : s.tsxs[k]? = some t) (hsends : t.sends = true) :
    s.loaded = true := by
  have hattached := hcoherent.attached_of_sends ht hsends
  rw [transportError, clean_updateTsx] at h
  exact (loaded_of_change h (State.withTsx_get ht) hattached :)

theorem needs_rxBye (h : Clean (rxBye env) s) (hcreated : env.createUas = true) :
    s.loaded = true := by
  have hbody := (Clean.locked (Clean.locked h).2).2
  simp only [clean_update, hcreated, if_true] at hbody
  have hcreate : Returns pjsipTsxCreateUas { s.lock.lock with remoteTag := true }
      fun _ _ u => u.loaded = s.loaded := by
    simp [State.append]
  obtain ⟨_, _, u, hu, hclean⟩ := hbody.next hcreate
  exact hu.symm.trans (loaded_of_session hclean.first)

end Ends

/-! ## The end of the call

A BYE that cannot be sent ends the session, and where it is the last transaction the dialog is
gone before the session is terminated.
-/

section Stop

variable {env : Env} {notify : Notify} {n k : Nat} {s : State} {x : Tsx}

theorem handler_of_failed (hcoherent : Coherent [k] (n + 1) s) (hk : k ≠ 0)
    (ht : s.tsxs[k]? = some x) (hx : x.role = .uac ∧ x.method = .bye ∧ x.state = .terminated)
    (hs : s.inv.state = .connecting ∨ s.inv.state = .confirmed)
    {post : List Event → Unit → State → Prop} :
    Returns (invStateHandler env notify k .transportError) s post ↔
      post [.stateChanged .disconnected, .destroySession] () (s.over 200) := by
  obtain ⟨hrole, hmethod, hstate⟩ := hx
  have hinvite := hcoherent.inviteTsx_ne (by simp [Ne.symm hk]) hk
  have hactive : s.inv.state ≠ .disconnected := by
    obtain hs | hs := hs <;> simp [hs]
  have hover (post : List Event → Unit → State → Prop) :
      Returns (disconnect env notify 200) s post ↔
        post [.stateChanged .disconnected, .destroySession] () (s.over 200) :=
    returns_disconnect (by simp) hcoherent hactive
  obtain hs | hs := hs
  · simp [invStateHandler, invOnStateConnecting, invHandleByeResponse, hs, returns_tsx ht, hinvite,
      hrole, hmethod, hstate, hover]
  · simp [invStateHandler, invOnStateConfirmed, invHandleByeResponse, hs, returns_tsx ht, hrole,
      hmethod, hstate, hover]

/-- The session is over, and the transaction is given up. -/
theorem returns_failed (env : Env) (notify : Notify) (hcoherent : Coherent [k] n s) (hk : k ≠ 0) (ht : s.tsxs[k]? = some x)
    (hattached : x.attached = true)
    (hx : x.role = .uac ∧ x.method = .bye ∧ x.state = .terminated)
    (hs : s.inv.state = .connecting ∨ s.inv.state = .confirmed)
    (hloaded : s.loaded = true) :
    Returns (modUaNotify env notify k .transportError) s fun _ _ u =>
      u.sessCount = s.sessCount - 1 ∧ u.tsxCount = s.tsxCount - 1 ∧
        u.tsxs[k]? = some { x with attached := false } := by
  have hd := hcoherent.alive_of_attached ht hattached
  have hlock := hcoherent.lock hd
  have hcount : 0 < s.tsxCount := by
    rw [hcoherent.attached, List.countP_pos_iff]
    exact ⟨x, List.mem_of_getElem? ht, hattached⟩
  have hsess := hcoherent.counted
  have hactive : s.inv.state ≠ .disconnected := by
    obtain hs | hs := hs <;> simp [hs]
  rw [if_neg hactive] at hsess
  have hget (f : Inv → Inv) : ((s.lock.over 200).withInv f).tsxs[k]? = some x := ht
  have hbusy : (s.lock.over 200).tsxs[k]? = some x := ht
  have hlocked : s.lock.inv.state = .connecting ∨ s.lock.inv.state = .confirmed := hs
  simp only [modUaNotify, returns_bind, returns_tsx ht, hattached, if_true, reduceCtorEq, false_and,
    if_false, pjsipDlgOnTsxState, returns_locked, modInvOnTsxState, pjsipDlgGetInvSession,
    returns_get, State.lock_loaded, hloaded, returns_pure,
    handler_of_failed hlock hk (by exact ht) hx hlocked, returns_tsx hbusy, returns_updateInv,
    returns_tsx (hget _), hx.2.2, and_self, returns_pjAssert, returns_update, returns_updateTsx]
  simp [State.over, State.withInv, State.withTsx, hsess, hcount, ht, hx.2.2]

/-- Nothing holds the dialog when the request has failed. -/
theorem destroyed_of_failed {resolved : Bool} (hcoherent : Coherent [] 0 s)
    (hd : s.destroyed = false) (hs : s.inv.state = .connecting ∨ s.inv.state = .confirmed)
    (hcount : s.tsxCount = 0) (hsent : env.sent .bye = .transportError resolved) :
    Returns (pjsipInvSendMsg env (tsxUser env nesting) .bye) s fun _ _ u => u.destroyed = true := by
  have hactive : s.inv.state ≠ .disconnected ∧ s.inv.state ≠ .null := by
    obtain hs | hs := hs <;> simp [hs]
  have htsxs : s.tsxs ≠ [] := fun h => hactive.2 (hcoherent.fresh h).1
  have hlen : s.tsxs.length ≠ 0 := fun h => htsxs (List.length_eq_zero_iff.mp h)
  have hloaded := hcoherent.loaded hactive.1
  have hsess := hcoherent.counted
  rw [if_neg hactive.1] at hsess
  have hget := s.lock.append_get (newTsx .uac .bye)
  have hget' := State.withTsx_get
    (f := fun t => { t with statusCode := if resolved then 503 else 502 }) hget
  have hfailed := (((hcoherent.lock hd).append (t := newTsx .uac .bye) rfl
    (iff_of_false (by simp [newTsx]) htsxs) (by simp [newTsx])).withTsx
      (f := fun t => { t with statusCode := if resolved then 503 else 502 })
      List.mem_cons_self hget rfl rfl rfl).withTsx (f := fun t => { t with state := .terminated })
      List.mem_cons_self hget' rfl rfl rfl
  have hreport := returns_failed env (tsxUser env 2) hfailed hlen
    (State.withTsx_get hget') rfl ⟨rfl, rfl, rfl⟩ hs hloaded
  simp only [pjsipInvSendMsg, returns_bind, returns_get, reduceCtorEq, false_and, if_false,
    returns_locked_pure hd (hcoherent.held hd)]
  simp only [pjsipDlgSendRequest, returns_locked, hsent, reduceCtorEq, if_false, returns_bind,
    returns_pjsipTsxCreateUac, returns_get, tsxOnStateNull, returns_updateTsx, tsxSetState,
    returns_tsx hget', returns_pjAssert, if_true, returns_pure]
  refine ⟨rfl, hreport.mono fun es _ u hu => ?_⟩
  obtain ⟨husess, hucount, huget⟩ := hu
  have hone : u.sessCount = 1 := husess.trans (by simp [State.withTsx, State.append, hsess])
  have hzero : u.tsxCount = 0 := hucount.trans (by simp [State.withTsx, State.append, hcount])
  generalize hw : (u.withTsx s.lock.tsxs.length fun t => { t with timeoutTimer := true }) = w
  have hwsess : w.sessCount = 1 := by rw [← hw]; exact hone
  have hwcount : w.tsxCount = 0 := by rw [← hw]; exact hzero
  have hgone : w.tsxCount ≠ (s.lock.append (newTsx .uac .bye)).tsxCount := by
    simp [hwcount, State.append]
  have hfree : w.unlock.Free := by simp [State.Free, hwsess, hwcount]
  simp only [hgone, and_false, if_false, returns_pure, hwsess, State.settle, hfree,
    if_true]
  trivial

/-- The request with which the session is to be ended. -/
theorem Clean.request {code : Nat} {f : Option (Option Method) → Routine Unit}
    (h : Clean (pjsipInvEndSession env code >>= f) s)
    (hnone : ∀ u, ¬ Clean (f none) u) (hunset : ∀ u, ¬ Clean (f (some none)) u) :
    match s.inv.state with
    | .null | .disconnected => False
    | .calling | .early =>
        ∀ t, s.inv.inviteTsx = some 0 → s.tsxs[0]? = some t →
          100 ≤ t.statusCode ∧ env.createCancel = true
    | .connecting | .confirmed => env.createRequest = true := by
  have hend := h.bind
  simp only [pjsipInvEndSession, invSetCause, returns_bind, returns_updateInv, returns_get,
    State.withInv_inv] at hend
  cases hs : s.inv.state <;> simp only [hs] at hend ⊢
  case null => simp at hend
  case disconnected => exact hnone _ hend.2
  case calling | early =>
    intro t hinvite ht
    have hget (g : Inv → Inv) : (s.withInv g).tsxs[0]? = some t := ht
    simp only [hinvite, returns_bind, returns_tsx (hget _), returns_ite] at hend
    split at hend
    · exact absurd hend.2 (hunset _)
    · refine ⟨by omega, ?_⟩
      split at hend
      · assumption
      · exact absurd hend.2 (hnone _)
  case connecting | confirmed =>
    simp only [returns_ite] at hend
    split at hend
    · assumption
    · exact absurd hend.2 (hnone _)

theorem returns_bye {code : Nat} (hcoherent : Coherent [] 0 s)
    (hs : s.inv.state = .connecting ∨ s.inv.state = .confirmed)
    (hcreate : env.createRequest = true) :
    Returns (pjsipInvEndSession env code) s fun _ a u => a = some (some .bye) ∧
      u.inv.state = s.inv.state ∧ Coherent [] 0 u ∧ u.destroyed = s.destroyed ∧
        u.tsxCount = s.tsxCount := by
  have hphase := hcoherent.phase (by simp)
  have hended (c : Nat) :
      Coherent [] 0 (s.withInv fun inv => { inv with cause := c, cancelling := true }) :=
    hcoherent.withInv Iff.rfl rfl rfl rfl fun _ => hphase.withInv rfl rfl rfl
  simp only [pjsipInvEndSession, invSetCause, returns_bind, returns_updateInv, returns_get,
    State.withInv_inv]
  obtain hs | hs := hs <;> simp only [hs, hcreate, if_true, returns_bind, returns_updateInv,
    returns_pure, true_and] <;> exact ⟨hs, hended _, rfl, rfl⟩

theorem needs_sendBye (h : Clean (sendBye env) s) (hcoherent : Coherent [] 0 s) :
    StopOk env s := by
  have hrequest := Clean.request h (by simp [Clean]) (by simp [Clean])
  have hphase := hcoherent.phase (by simp)
  unfold Phase at hphase
  unfold StopOk
  cases hs : s.inv.state <;> simp only [hs] at hrequest hphase ⊢
  case calling | early =>
    obtain ⟨hinvite, -, t, ht, -⟩ := hphase
    obtain ⟨hcode, hcreate⟩ := hrequest t hinvite ht
    exact ⟨⟨t, ht, hcode⟩, hcreate⟩
  case connecting | confirmed =>
    refine ⟨hrequest, ?_⟩
    by_contra hnot
    simp only [not_or, not_forall, not_not] at hnot
    obtain ⟨hcount, resolved, hsent⟩ := hnot
    obtain ⟨_, _, u, ⟨rfl, hu⟩, hclean⟩ := h.next (returns_bye hcoherent (by simp [hs]) hrequest)
    obtain ⟨hstate, hsame, halive, hheld⟩ := hu
    have hd : s.destroyed = false := hcoherent.alive_of_active (by simp [hs])
    rw [← hstate] at hs
    obtain ⟨_, _, w, hw, hclean⟩ := hclean.next (destroyed_of_failed hsame (halive.trans hd)
      (by simp [hs]) (hheld.trans hcount) hsent)
    exact absurd hclean.first.locked.1 (by simp [hw])

end Stop

end SimpleSipClient.Call
