import SimpleSipClient.Call.Sending

/-! # Reports about other transactions than the INVITE

Such a report may end the session, and it may make the session send a BYE or a response, whose
first change is reported at once. That second report is a quiet one: it sends nothing more.
-/

namespace SimpleSipClient.Call

open Foundation
open MediaClient (InvState)

def Reports (notify : Notify) (P : Tsx → Source → State → Prop) : Prop :=
  ∀ ⦃b : List Nat⦄ ⦃n k : Nat⦄ ⦃t : Tsx⦄ ⦃source : Source⦄ ⦃s : State⦄,
    Coherent (k :: b) n s → 0 ∉ k :: b → s.tsxs[k]? = some t → t.attached = true →
    t.Ok ∨ t.Ended → s.loaded = true → P t source s →
    Returns (notify k source) s fun es _ u => Followed b n k [] t s es u

/-- The session sends nothing on this report. -/
def Quiet (t : Tsx) (source : Source) (s : State) : Prop :=
  (t.role = .uas → t.statusCode < 200 → source ≠ .rxMsg) ∧
    (t.role = .uac → (t.statusCode = 481 ∧ t.method ≠ .cancel) ∨ t.statusCode = 408 →
      s.inv.state = .disconnected)

section Sending

variable {env : Env} {notify : Notify} {b : List Nat} {n k : Nat} {s : State} {t : Tsx}

theorem returns_tsxSetState {P : Tsx → Source → State → Prop} (st : TsxState)
    (source : Source) (hn : Reports notify P)
    (h : Coherent (k :: b) n s) (hb : 0 ∉ k :: b) (ht : s.tsxs[k]? = some t)
    (hle : t.state.rank ≤ st.rank) (hattached : t.attached = true)
    (hok : Tsx.Ok { t with state := st } ∨ Tsx.Ended { t with state := st })
    (hloaded : s.loaded = true)
    (hP : P { t with state := st } source (s.withTsx k fun t => { t with state := st })) :
    Returns (tsxSetState notify k st source) s fun es _ u =>
      Followed b n k [] { t with state := st } s es u := by
  have hget : (s.withTsx k fun t => { t with state := st }).tsxs[k]? =
      some { t with state := st } := State.withTsx_get ht
  have hbusy := h.withTsx (f := fun t => { t with state := st }) List.mem_cons_self ht rfl rfl rfl
  exact returns_tsxSetState_of ht hle (hn hbusy hb hget hattached hok hloaded hP)

theorem Tsx.Ok.trying_uas (h : t.Ok) (huas : t.role = .uas) (hcode : t.statusCode < 200) :
    t.state = .trying ∧ t.attached = true := by
  unfold Tsx.Ok at h
  split at h <;> simp_all <;> omega

/-- A final response changes the transaction, and the change is reported quietly. -/
theorem returns_pjsipDlgSendResponse (hn : Reports notify Quiet) (h : Coherent b n s)
    (hb : 0 ∉ b) (hk : k ≠ 0) (ht : s.tsxs[k]? = some t) (hok : t.Ok) (huas : t.role = .uas)
    (hpending : t.statusCode < 200) {code : Nat} (hcode : 200 ≤ code) (hloaded : s.loaded = true) :
    Returns (pjsipDlgSendResponse env notify k code) s fun es _ u =>
      Coherent b n u ∧ Report k [] s es u ∧ ∃ v, u.tsxs[k]? = some v ∧ v.Ok := by
  obtain ⟨hstate, hattached⟩ := hok.trying_uas huas hpending
  have hmethod : t.method ≠ .invite := fun h' => hk ((h.methods k t ht).mp h')
  have hd := h.alive_of_attached ht hattached
  have hlock := (h.lock hd).busy k
  have hb' : 0 ∉ k :: b := by simp [Ne.symm hk, hb]
  have hget : (s.lock.withTsx k fun t => { t with statusCode := code }).tsxs[k]? =
      some { t with statusCode := code } := State.withTsx_get ht
  have hcoded := hlock.withTsx (f := fun t => { t with statusCode := code })
    List.mem_cons_self ht rfl rfl rfl
  have hreport := Report.withTsx (s := s.lock) (k := k) fun t => { t with statusCode := code }
  refine returns_locked_of hd ?_
  simp only [returns_bind, returns_updateTsx, returns_ite, returns_emit, returns_pure]
  split
  · have htimed := hcoded.withTimer k true
    refine (returns_tsxSetState .completed .txMsg hn htimed hb' (State.withTsx_get hget) ?_
      hattached (.inl ?_) hloaded ?_).mono fun es _ u hu => ⟨hu.coherent, ?_⟩
    · simp [hstate, TsxState.rank]
    · simp [Tsx.Ok, hcode, hmethod, hattached]
    · simp [Quiet, huas]
    · have hall := ((hreport.trans (.respond code)).trans
        (.withTsx fun t => { t with timeoutTimer := true })).trans hu.report
      obtain ⟨v, hv, hvok, -⟩ := hu.own
      exact ⟨by simpa using hall.locked hu.coherent.alive, v, by simpa using hv, hvok⟩
  · have hfailed := hcoded.withTsx (f := fun t => { t with statusCode := 503 })
      List.mem_cons_self hget rfl rfl rfl
    refine (returns_tsxSetState .terminated .transportError hn hfailed hb'
      (State.withTsx_get hget) ?_ hattached (.inr ?_) hloaded ?_).mono
        fun es _ u hu => ⟨hu.coherent, ?_⟩
    · simp [hstate, TsxState.rank]
    · simp [Tsx.Ended, hattached]
    · simp [Quiet, huas]
    · have hall := (hreport.trans (.withTsx fun t => { t with statusCode := 503 })).trans hu.report
      obtain ⟨v, hv, hvok, -⟩ := hu.own
      exact ⟨by simpa using hall.locked hu.coherent.alive, v, by simpa using hv, hvok⟩

/-- The first report about a request that the session sends is a quiet one. -/
theorem firstReport_of_quiet {method : Method} (hn : Reports notify Quiet) (hb : 0 ∉ b)
    (hs : s.tsxs ≠ []) (hloaded : s.loaded = true) :
    FirstReport notify b n s.tsxs.length method s := by
  intro x source u hcoherent hinv hload hget hx hsource
  have hlen : s.tsxs.length ≠ 0 := fun h' => hs (List.length_eq_zero_iff.mp h')
  refine hn hcoherent (by simp [Ne.symm hlen, hb]) hget hx.2.2.1 hx.ok (hload.trans hloaded)
    ⟨fun _ _ => hsource, fun _ h' => ?_⟩
  obtain ⟨-, -, -, ⟨-, hcode⟩ | ⟨-, hcode⟩⟩ := hx <;> omega

end Sending

/-! ## Handlers -/

/-- The handler's part of a report. -/
structure Handled (b : List Nat) (n k : Nat) (t : Tsx) (s : State) (es : List Event)
    (u : State) : Prop where
  coherent : Coherent b n u
  report : Report k [] s es u
  own : ∃ v, u.tsxs[k]? = some v ∧ (v.Ok ∨ v.Ended) ∧ (t.state ≠ .trying →
    ∃ c, v = { t with timeoutTimer := c })

section Handlers

variable {env : Env} {notify : Notify} {b : List Nat} {n k : Nat} {s : State} {t : Tsx}
variable {source : Source}

theorem Handled.refl (h : Coherent b n s) (ht : s.tsxs[k]? = some t) (hok : t.Ok ∨ t.Ended) :
    Handled b n k t s [] s :=
  ⟨h, .refl, t, ht, hok, fun _ => ⟨t.timeoutTimer, rfl⟩⟩

theorem Handled.over (h : Coherent b (n + 1) s) (ht : s.tsxs[k]? = some t)
    (hok : t.Ok ∨ t.Ended) (hs : s.inv.state ≠ .disconnected) (c : Nat) :
    Handled b (n + 1) k t s [.stateChanged .disconnected, .destroySession] (s.over c) := by
  have htsxs : s.tsxs ≠ [] := List.ne_nil_of_mem (List.mem_of_getElem? ht)
  exact ⟨h.over hs htsxs c, .over hs c, t, ht, hok, fun _ => ⟨t.timeoutTimer, rfl⟩⟩

/-- A request that the handler sends is another transaction. -/
theorem Handled.sent {u w : State} {es fs : List Event} (h : Handled b n k t s es u)
    (hcoherent : Coherent b n w) (hsent : Report u.tsxs.length [] u fs w) :
    Handled b n k t s (es ++ fs) w := by
  obtain ⟨v, hv, hok, hown⟩ := h.own
  have hk : k < u.tsxs.length := (List.getElem?_eq_some_iff.mp hv).choose
  obtain ⟨c, hc⟩ := hsent.others k v (by omega) hv
  refine ⟨hcoherent, h.report.trans (hsent.nested (Nat.le_refl _) (by omega)), _, hc, hok, fun hst => ?_⟩
  obtain ⟨d, rfl⟩ := hown hst
  exact ⟨c, rfl⟩

theorem returns_handleUacTsxResponse (hn : Quiet t source s ∨ Reports notify Quiet)
    (h : Coherent b (n + 1) s) (hb : 0 ∉ b) (hk : k ≠ 0) (ht : s.tsxs[k]? = some t)
    (hok : t.Ok ∨ t.Ended) (huac : t.role = .uac) (hloaded : s.loaded = true) :
    Returns (handleUacTsxResponse env notify k) s fun es _ u => Handled b (n + 1) k t s es u := by
  have hmethod : t.method ≠ .invite := fun h' => hk ((h.methods k t ht).mp h')
  simp only [handleUacTsxResponse, returns_bind, returns_get, returns_tsx ht, returns_ite]
  split
  · rename_i hover
    have hreports := hn.resolve_left fun hq => hover.1 (hq.2 huac hover.2)
    have hcode : 0 < t.statusCode := by omega
    have htsxs : s.tsxs ≠ [] := List.ne_nil_of_mem (List.mem_of_getElem? ht)
    rw [returns_disconnect hcode h hover.1]
    have hhandled := Handled.over h ht hok hover.1 t.statusCode
    split
    · have hover : Coherent b (n + 1) (s.over t.statusCode) := hhandled.coherent
      have hfirst : FirstReport notify b (n + 1 + 1) (s.over t.statusCode).tsxs.length .bye
          (s.over t.statusCode) := firstReport_of_quiet hreports hb htsxs hloaded
      refine (returns_pjsipInvSendMsg env hfirst hover hover.alive (iff_of_false (by simp) htsxs)
        (by simp)).mono ?_
      intro es _ u hu
      simpa using hhandled.sent hu.1 hu.2.1
    · simpa using hhandled
  · have hrefl := Handled.refl h ht hok
    split <;> simpa [hmethod] using hrefl

theorem returns_invRespondIncomingBye (hn : Reports notify Quiet) (h : Coherent b (n + 1) s)
    (hb : 0 ∉ b) (hk : k ≠ 0) (ht : s.tsxs[k]? = some t) (hok : t.Ok) (huas : t.role = .uas)
    (hpending : t.statusCode < 200) (hloaded : s.loaded = true) :
    Returns (invRespondIncomingBye env notify k) s fun es _ u =>
      Handled b (n + 1) k t s es u := by
  have htrying := hok.trying_uas huas hpending
  simp only [invRespondIncomingBye, returns_ite, returns_bind, returns_get, returns_pure]
  split
  · refine (returns_pjsipDlgSendResponse hn h hb hk ht hok huas hpending (Nat.le_refl _)
      hloaded).mono fun es sent u hu => ?_
    obtain ⟨hcoherent, hreport, v, hv, hvok⟩ := hu
    split
    · rename_i hover
      rw [returns_disconnect (by decide) hcoherent hover.2]
      have hend := Handled.over hcoherent hv (.inl hvok) hover.2 200
      refine ⟨hend.coherent, by simpa using hreport.trans hend.report, v, hv, .inl hvok, ?_⟩
      simp [htrying.1]
    · exact ⟨hcoherent, by simpa using hreport, v, hv, .inl hvok, by simp [htrying.1]⟩
  · exact .refl h ht (.inl hok)

end Handlers

/-- A report about a transaction that is not the INVITE has come to its handler. -/
structure Other (notify : Notify) (b : List Nat) (n k : Nat) (t : Tsx) (source : Source)
    (s : State) : Prop where
  coherent : Coherent b (n + 1) s
  phase : 0 ∉ b
  ne : k ≠ 0
  get : s.tsxs[k]? = some t
  ok : t.Ok ∨ t.Ended
  loaded : s.loaded = true
  quiet : Quiet t source s ∨ Reports notify Quiet

section Handlers

variable {env : Env} {notify : Notify} {b : List Nat} {n k : Nat} {s : State} {t : Tsx}
variable {source : Source}

theorem Other.refl (h : Other notify b n k t source s) : Handled b (n + 1) k t s [] s :=
  .refl h.coherent h.get h.ok

theorem Other.method (h : Other notify b n k t source s) : t.method ≠ .invite :=
  fun h' => h.ne ((h.coherent.methods k t h.get).mp h')

theorem Other.over (h : Other notify b n k t source s) (hs : s.inv.state ≠ .disconnected)
    {c : Nat} (hc : 0 < c) :
    Returns (disconnect env notify c) s fun es _ u => Handled b (n + 1) k t s es u :=
  (returns_disconnect hc h.coherent hs).mpr (.over h.coherent h.get h.ok hs c)

theorem Other.respond (h : Other notify b n k t source s)
    (hbye : t.role = .uas ∧ t.statusCode < 200 ∧ source = .rxMsg) :
    Returns (invRespondIncomingBye env notify k) s fun es _ u =>
      Handled b (n + 1) k t s es u := by
  obtain ⟨huas, hpending, hsource⟩ := hbye
  have hok : t.Ok := h.ok.resolve_right fun h' => absurd h'.2.1 (by omega)
  have hreports := h.quiet.resolve_left fun hq => hq.1 huas hpending hsource
  exact returns_invRespondIncomingBye hreports h.coherent h.phase h.ne h.get hok huas hpending
    h.loaded

theorem Other.response (h : Other notify b n k t source s) (huac : t.role = .uac) :
    Returns (handleUacTsxResponse env notify k) s fun es _ u => Handled b (n + 1) k t s es u :=
  returns_handleUacTsxResponse h.quiet h.coherent h.phase h.ne h.get h.ok huac h.loaded

theorem Other.calling (h : Other notify b n k t source s) (hs : s.inv.state = .calling)
    (hinvite : s.inv.inviteTsx = some 0) :
    Returns (invOnStateCalling env notify k source) s fun es _ u =>
      Handled b (n + 1) k t s es u := by
  have hother : s.inv.inviteTsx ≠ some k := by simp [hinvite, Ne.symm h.ne]
  simp only [invOnStateCalling, returns_bind, returns_get, returns_tsx h.get, hother, if_false,
    returns_ite, returns_pure]
  split
  · split
    · exact h.over (by simp [hs]) (by omega)
    · exact h.refl
  · exact h.refl

theorem Other.early (h : Other notify b n k t source s) (hinvite : s.inv.inviteTsx = some 0) :
    Returns (invOnStateEarly env notify k source) s fun es _ u =>
      Handled b (n + 1) k t s es u := by
  have hother : s.inv.inviteTsx ≠ some k := by simp [hinvite, Ne.symm h.ne]
  simp only [invOnStateEarly, returns_bind, returns_get, returns_tsx h.get, hother, if_false,
    returns_ite, returns_pure]
  split
  · exact h.response ‹_›
  · split
    · rename_i hrole hbye
      have huas : t.role = .uas := by
        cases hr : t.role <;> simp_all
      refine (h.respond ⟨huas, hbye.2⟩).mono fun es _ u hu => ?_
      obtain ⟨v, hv, hvok, -⟩ := hu.own
      have htrying := (h.ok.resolve_right fun h' => absurd h'.2.1 (by omega)).trying_uas huas
        hbye.2.1
      have hkeep : u.inv.inviteTsx = some 0 := (hu.report.inviteTsx h.ne).trans hinvite
      rw [hkeep]
      simp only [pjsipTsxSetTimeout, returns_updateTsx]
      refine ⟨hu.coherent.withTimer 0 true, ?_, v, ?_, hvok, by simp [htrying.1]⟩
      · simpa using hu.report.trans (.withTimer 0 true)
      · rw [State.withTsx_get_other h.ne.symm, hv]
    · exact h.refl

theorem Other.connecting (h : Other notify b n k t source s) (hs : s.inv.state = .connecting)
    (hinvite : s.inv.inviteTsx = none) :
    Returns (invOnStateConnecting env notify k source) s fun es _ u =>
      Handled b (n + 1) k t s es u := by
  have hother : s.inv.inviteTsx ≠ some k := by simp [hinvite]
  simp only [invOnStateConnecting, returns_bind, returns_get, returns_tsx h.get, hother, if_false,
    returns_ite, returns_pure]
  split
  · rename_i hbye
    exact h.respond ⟨hbye.1, hbye.2.2⟩
  · split
    · exact h.over (by simp [hs]) (by decide)
    · split
      · exact h.response ‹_›
      · exact h.refl

theorem Other.confirmed (h : Other notify b n k t source s) (hs : s.inv.state = .confirmed) :
    Returns (invOnStateConfirmed env notify k source) s fun es _ u =>
      Handled b (n + 1) k t s es u := by
  simp only [invOnStateConfirmed, returns_bind, returns_tsx h.get, returns_ite, returns_pure]
  split
  · exact h.over (by simp [hs]) (by decide)
  · split
    · rename_i hbye
      exact h.respond hbye.2
    · split
      · exact h.response ‹_›
      · exact h.refl

theorem Other.disconnected (h : Other notify b n k t source s) :
    Returns (invOnStateDisconnected env notify k source) s fun es _ u =>
      Handled b (n + 1) k t s es u := by
  simp only [invOnStateDisconnected, returns_bind, returns_tsx h.get, returns_ite, returns_pure]
  split
  · split
    · exact h.respond ‹_›
    · exact h.refl
  · split
    · exact h.response ‹_›
    · exact h.refl

theorem Other.handler (h : Other notify b n k t source s) :
    Returns (invStateHandler env notify k source) s fun es _ u =>
      Handled b (n + 1) k t s es u := by
  have hphase := h.coherent.phase h.phase
  unfold Phase at hphase
  simp only [invStateHandler, returns_bind, returns_get]
  cases hs : s.inv.state <;> simp only [hs] at hphase
  case null =>
    have hget := h.get
    simp [hphase.1] at hget
  case calling => exact h.calling hs hphase.1
  case early => exact h.early hphase.1
  case connecting => exact h.connecting hs hphase.1
  case confirmed => exact h.confirmed hs
  case disconnected => exact h.disconnected

theorem Coherent.inviteTsx_ne (h : Coherent b n s) (hb : 0 ∉ b) (hk : k ≠ 0) :
    s.inv.inviteTsx ≠ some k := by
  obtain hnone | hzero := (h.phase hb).inviteTsx
  · simp [hnone]
  · simp [hzero, Ne.symm hk]

theorem Other.session (h : Other notify b n k t source s) :
    Returns (modInvOnTsxState env notify k source) s fun es _ u =>
      Handled b (n + 1) k t s es u := by
  simp only [modInvOnTsxState, pjsipDlgGetInvSession, returns_bind, returns_get, h.loaded,
    if_true, returns_pure]
  refine h.handler.mono fun es _ u hu => ?_
  obtain ⟨v, hv, hvok, hown⟩ := hu.own
  have hkeep : u.inv.inviteTsx ≠ some k := hu.coherent.inviteTsx_ne h.phase h.ne
  have hsame (p : Prop) [Decidable p] : (u.withInv fun inv => { inv with
      inviteTsx := if p ∧ inv.inviteTsx = some k then none else inv.inviteTsx }) = u := by
    simp [State.withInv, hkeep]
  simp only [returns_tsx hv, returns_updateInv, hsame]
  simpa using hu

theorem Other.report (env : Env) (hcoherent : Coherent (k :: b) n s) (hb : 0 ∉ k :: b)
    (ht : s.tsxs[k]? = some t) (hattached : t.attached = true) (hok : t.Ok ∨ t.Ended)
    (hloaded : s.loaded = true) (hquiet : Quiet t source s ∨ Reports notify Quiet) :
    Returns (pjsipDlgOnTsxState env notify k source) s fun es _ u =>
      Followed b n k [] t s es u := by
  have hd := hcoherent.alive_of_attached ht hattached
  have hk : k ≠ 0 := fun h' => hb (by simp [h'])
  have hother : Other notify (k :: b) n k t source s.lock :=
    ⟨hcoherent.lock hd, hb, hk, ht, hok, hloaded, hquiet⟩
  refine returns_pjsipDlgOnTsxState hd hattached (hother.session.mono fun es _ u hu => ?_)
  obtain ⟨v, hv, hvok, hown⟩ := hu.own
  exact ⟨hu.coherent, hu.report, v, hv, hvok, hown, fun h' => absurd h' hk⟩

/-- Only a response to the INVITE says something on its own. -/
theorem returns_pjsipDlgOnRxResponse_other (env : Env) (notify : Notify) (k code : Nat)
    {method : Method} (h : Coherent b n s) (hd : s.destroyed = false) (hmethod : method ≠ .invite)
    (hloaded : s.loaded = true) {post : List Event → Unit → State → Prop} :
    Returns (pjsipDlgOnRxResponse env notify k method code) s post ↔ post [] () s := by
  refine returns_locked_same hd (h.held hd) (eq_of_returns ?_)
  simp [dlgUpdateTag, modInvOnRxResponse, pjsipDlgGetInvSession, hmethod, hloaded]

theorem reports_modUaNotify {P : Tsx → Source → State → Prop}
    (hP : ∀ t source s, P t source s → Quiet t source s ∨ Reports notify Quiet) :
    Reports (modUaNotify env notify) P := by
  intro b n k t source s hcoherent hb ht hattached hok hloaded hPs
  have hd := hcoherent.alive_of_attached ht hattached
  have hk : k ≠ 0 := fun h' => hb (by simp [h'])
  have hmethod : t.method ≠ .invite := fun h' => hk ((hcoherent.methods k t ht).mp h')
  have hreport := Other.report env hcoherent hb ht hattached hok hloaded (hP t source s hPs)
  have hlock := hcoherent.lock hd
  have hresponse := eq_of_returns ((returns_pjsipDlgOnRxResponse_other env notify k t.statusCode
    hlock hlock.alive hmethod hloaded).mpr ⟨rfl, rfl, rfl⟩)
  simp only [modUaNotify, returns_bind, returns_tsx ht, hattached, if_true, returns_ite,
    returns_pure, returns_locked_same hd (hcoherent.held hd) hresponse]
  split <;> simpa using hreport

end Handlers

/-- One level is enough for a quiet report, and two for any. -/
theorem reports_quiet (env : Env) (depth : Nat) : Reports (tsxUser env (depth + 1)) Quiet :=
  reports_modUaNotify fun _ _ _ h => .inl h

theorem reports_all (env : Env) (depth : Nat) :
    Reports (tsxUser env (depth + 2)) fun _ _ _ => True :=
  reports_modUaNotify fun _ _ _ _ => .inr (reports_quiet env depth)

end SimpleSipClient.Call
