import SimpleSipClient.Call.Report

/-! # Sending a request

A request is a new transaction, and its first change is reported before the sending returns: it
is under way, or it has already failed.
-/

namespace SimpleSipClient.Call

open Foundation

/-- The transaction of a request that has just been sent, or could not be. -/
def Tsx.Started (x : Tsx) (method : Method) : Prop :=
  x.role = .uac ∧ x.method = method ∧ x.attached = true ∧
    (x.state = .calling ∧ x.statusCode = 0 ∨
      x.state = .terminated ∧ (x.statusCode = 502 ∨ x.statusCode = 503))

def FirstReport (notify : Notify) (b : List Nat) (n k : Nat) (method : Method) (s : State) : Prop :=
  ∀ ⦃x : Tsx⦄ ⦃source : Source⦄ ⦃u : State⦄, Coherent (k :: b) n u → u.inv = s.inv →
    u.loaded = s.loaded → u.tsxs[k]? = some x → x.Started method → source ≠ .rxMsg →
    Returns (notify k source) u fun es _ w => Followed b n k [] x u es w

section Sending

variable {env : Env} {notify : Notify} {b : List Nat} {n k : Nat} {s : State} {method : Method}

theorem Tsx.Started.ok {x : Tsx} (h : x.Started method) : x.Ok ∨ x.Ended := by
  obtain ⟨hrole, -, hattached, ⟨hstate, hcode⟩ | ⟨hstate, hcode⟩⟩ := h
  · exact .inl (by simp [Tsx.Ok, hrole, hattached, hstate, hcode])
  · refine .inr ⟨hstate, ?_, hattached⟩
    omega

theorem returns_tsxOnStateNull (hn : FirstReport notify b n k method s)
    (h : Coherent (k :: b) n s) (ht : s.tsxs[k]? = some (newTsx .uac method)) :
    Returns (tsxOnStateNull env notify k method) s fun es a u =>
      Coherent b n u ∧ Report k [] s es u ∧ ∃ v, u.tsxs[k]? = some v ∧ v.Ok ∧
        (if a then v.attached = true else v.state = .terminated) ∧
        (env.sent method = .sent → a = true) := by
  unfold tsxOnStateNull
  split
  · rename_i resolved hsent
    simp only [returns_bind, returns_updateTsx, returns_pure]
    have hcoded := h.withTsx
      (f := fun t => { t with statusCode := if resolved then 503 else 502 })
      List.mem_cons_self ht rfl rfl rfl
    have hget := State.withTsx_get
      (f := fun t => { t with statusCode := if resolved then 503 else 502 }) ht
    have hover := hcoded.withTsx (f := fun t => { t with state := .terminated })
      List.mem_cons_self hget rfl rfl rfl
    refine (returns_tsxSetState_of hget (by simp [newTsx, TsxState.rank])
      (hn hover rfl rfl (State.withTsx_get hget) ?_ (by simp))).mono
        fun es _ u hu => ⟨hu.coherent, ?_⟩
    · refine ⟨rfl, rfl, rfl, .inr ⟨rfl, ?_⟩⟩
      show (if resolved then 503 else 502) = 502 ∨ (if resolved then 503 else 502) = 503
      cases resolved <;> simp
    · obtain ⟨v, hv, hvok, hown⟩ := hu.own
      have hall := (Report.withTsx (s := s) (k := k)
        fun t => { t with statusCode := if resolved then 503 else 502 }).trans hu.report
      obtain ⟨c, rfl⟩ := hown (by simp)
      exact ⟨by simpa using hall, _, hv, hvok, rfl, by simp [hsent]⟩
  · simp only [returns_bind, returns_emit, returns_updateTsx, returns_pure]
    have hget := State.withTsx_get (f := fun t => { t with timeoutTimer := true }) ht
    have hcalling := (h.withTimer k true).withTsx (f := fun t => { t with state := .calling })
      List.mem_cons_self hget rfl rfl rfl
    refine (returns_tsxSetState_of hget (by simp [newTsx, TsxState.rank])
      (hn hcalling rfl rfl (State.withTsx_get hget) ⟨rfl, rfl, rfl, .inl ⟨rfl, rfl⟩⟩
        (by simp))).mono fun es _ u hu => ⟨hu.coherent, ?_⟩
    obtain ⟨v, hv, hvok, hown⟩ := hu.own
    have hall := ((Report.send (s := s) (k := k) method).trans
      (.withTsx fun t => { t with timeoutTimer := true })).trans hu.report
    obtain ⟨c, rfl⟩ := hown (by simp)
    exact ⟨by simpa using hall, _, hv, hvok, by simp⟩

theorem returns_pjsipDlgSendRequest (env : Env)
    (hn : FirstReport notify b (n + 1) s.tsxs.length method s) (h : Coherent b n s)
    (hd : s.destroyed = false) (hmethod : method = .invite ↔ s.tsxs = []) :
    Returns (pjsipDlgSendRequest env notify method) s fun es _ u =>
      Coherent b n u ∧ Report s.tsxs.length [] s es u ∧ (env.sent method = .notCreated → u = s) ∧
        (env.sent method = .sent → ∃ v, u.tsxs[s.tsxs.length]? = some v ∧ v.attached = true) := by
  refine returns_locked_of hd ?_
  simp only [returns_ite, returns_pure]
  split
  · refine ⟨h.lock hd, ?_, ?_, ?_⟩
    · exact (Report.refl (k := s.tsxs.length) (s := s.lock)).locked hd
    · simp [State.settle_of_held (h.held hd)]
    · simp_all
  · simp only [returns_bind, returns_pjsipTsxCreateUac, returns_get]
    have hnew : Coherent (s.tsxs.length :: b) (n + 1) (s.lock.append (newTsx .uac method)) :=
      (h.lock hd).append rfl hmethod (by simp [newTsx])
    have hget : (s.lock.append (newTsx .uac method)).tsxs[s.tsxs.length]? =
        some (newTsx .uac method) := s.lock.append_get _
    have hfirst : FirstReport notify b (n + 1) s.tsxs.length method
        (s.lock.append (newTsx .uac method)) := hn
    refine (returns_tsxOnStateNull hfirst hnew hget).mono fun es a u hu => ?_
    obtain ⟨hcoherent, hreport, v, hv, hvok, hstate, hsent⟩ := hu
    have hall := (Report.append (k := s.tsxs.length) (s := s.lock) (newTsx .uac method)).trans hreport
    simp only [State.lock_tsxs, returns_ite, returns_tsx hv, returns_bind, returns_pure]
    split
    · rename_i hfailed
      simp only [hfailed.1, Bool.false_eq_true, if_false] at hstate
      have hcode : 200 ≤ v.statusCode := by
        simp only [Tsx.Ok, hstate] at hvok
        exact hvok.1
      simp only [pjsipTsxTerminate, returns_bind, returns_pjAssert, decide_eq_true hcode, true_and,
        returns_tsx hv, hstate, TsxState.rank, Nat.lt_irrefl, if_false, returns_pure]
      refine ⟨hcoherent, by simpa using hall.locked hcoherent.alive, by simp [*], fun h' => ?_⟩
      simp [hsent h'] at hfailed
    · refine ⟨hcoherent, by simpa using hall.locked hcoherent.alive, by simp [*], fun h' =>
        ⟨v, by simpa using hv, ?_⟩⟩
      simpa [hsent h'] using hstate

theorem returns_pjsipInvSendMsg (env : Env)
    (hn : FirstReport notify b (n + 1) s.tsxs.length method s) (h : Coherent b n s)
    (hd : s.destroyed = false) (hmethod : method = .invite ↔ s.tsxs = [])
    (hinvite : method = .invite → s.inv.inviteTsx = none) :
    Returns (pjsipInvSendMsg env notify method) s fun es _ u =>
      Coherent b n u ∧ Report s.tsxs.length [] s es u ∧ (env.sent method = .notCreated → u = s) ∧
        (env.sent method = .sent → ∃ v, u.tsxs[s.tsxs.length]? = some v ∧ v.attached = true) := by
  have hsend := returns_pjsipDlgSendRequest env hn h hd hmethod
  have hguard : ¬ (method = .invite ∧ s.inv.inviteTsx.isSome = true) := fun h' => by
    simp [hinvite h'.1] at h'
  simp only [pjsipInvSendMsg, returns_bind, returns_get, returns_ite, hguard, if_false,
    returns_locked_pure hd (h.held hd)]
  simpa using hsend

end Sending

end SimpleSipClient.Call
