import SimpleSipClient.Call.Others
import SimpleSipClient.Call.Inviting

/-! # What happens to a call

One input after the other is taken from rest to rest. What an input needs in order that nothing
unclean happens is its condition: a 2xx needs an ACK, a report needs the session's module, and
the end of a call needs a request to send and a dialog that outlives it.
-/

namespace SimpleSipClient.Call

open Foundation
open MediaClient (InvState)

/-- What a step does to the outside: its ACKs and the states that are announced. -/
structure Outcome (acks : List Nat) (s : State) (es : List Event) (u : State) : Prop where
  clean : ∀ e ∈ es, e.Clean
  acks : es.filterMap Event.acked = acks
  told : Told s.inv.state es u.inv.state
  freed : es.count .destroyDialog + s.gone = u.gone

section Outcome

variable {as bs : List Nat} {s t u : State} {es fs : List Event} {k : Nat}

theorem Report.outcome (h : Report k as s es u) : Outcome as s es u :=
  ⟨h.clean, h.acks, h.told, h.freed⟩

theorem Outcome.trans (h : Outcome as s es t) (h' : Outcome bs t fs u) :
    Outcome (as ++ bs) s (es ++ fs) u where
  clean e he := (List.mem_append.mp he).elim (h.clean e) (h'.clean e)
  acks := by rw [List.filterMap_append, h.acks, h'.acks]
  told := h.told.trans h'.told
  freed := by
    have hfirst := h.freed
    have hsecond := h'.freed
    rw [List.count_append]
    omega

theorem Outcome.silent (h : u.inv.state = s.inv.state) (hd : u.destroyed = s.destroyed) :
    Outcome [] s [] u :=
  ⟨by simp, rfl, h ▸ .nil, by simp [State.gone, hd]⟩

end Outcome

/-! ## A transaction changes -/

/-- The INVITE of a session is still attached. -/
def Pending (s : State) : Prop :=
  match s.inv.state with
  | .calling | .early => s.inv.inviteTsx = some 0 ∧ s.inv.lastAck = none
  | .disconnected => (s.inv.inviteTsx = none ∨ s.inv.inviteTsx = some 0) ∧
      (s.inv.lastAck = none ∨ s.inv.lastAck = some 0)
  | _ => False

section Changes

variable {env : Env} {n k : Nat} {s : State} {t x : Tsx}

theorem Coherent.pending (h : Coherent [] n s) (ht : s.tsxs[0]? = some t)
    (hattached : t.attached = true) : Pending s := by
  have hphase := h.phase (by simp)
  unfold Phase at hphase
  unfold Pending
  cases hs : s.inv.state <;> simp only [hs] at hphase ⊢
  case null => simp [hphase.1] at ht
  case calling => exact ⟨hphase.1, hphase.2.1⟩
  case early => exact ⟨hphase.1, hphase.2.1⟩
  case connecting => simp_all
  case confirmed => simp_all
  case disconnected => exact ⟨hphase.1, hphase.2.1⟩

def accepts (t : Tsx) : Prop := t.method = .invite ∧ t.Accepted

instance (t : Tsx) : Decidable (accepts t) := inferInstanceAs (Decidable (_ ∧ _))

theorem Pending.inviting {source : Source} (h : Pending s) (hcoherent : Coherent [0] n s)
    (ht : s.tsxs[0]? = some x) (hattached : x.attached = true) (hok : x.Ok ∨ x.Ended)
    (hstate : x.state ≠ .calling) (hsource : x.Accepted → source = .rxMsg) :
    Inviting n x source s := by
  refine ⟨hcoherent, ht, hattached, hok, hsource, ?_⟩
  unfold Pending at h
  cases hs : s.inv.state <;> simp only [hs] at h ⊢
  case calling => exact ⟨h.1, h.2, hstate⟩
  case early => exact ⟨h.1, h.2, hstate⟩
  case disconnected => exact h

/-- A report in any of the two ways. -/
theorem returns_modUaNotify {source : Source} (hcoherent : Coherent [k] n s)
    (hpending : k = 0 → Pending s) (ht : s.tsxs[k]? = some x) (hattached : x.attached = true)
    (hok : x.Ok ∨ x.Ended) (hstate : x.state ≠ .calling)
    (hsource : accepts x → source = .rxMsg) (hloaded : s.loaded = true)
    (hack : accepts x → AckOk env s k) :
    Returns (tsxUser env nesting k source) s fun es _ u =>
      Followed [] n k (if accepts x then [k] else []) x s es u := by
  by_cases hk : k = 0
  · subst hk
    have hmethod : x.method = .invite := (hcoherent.methods 0 x ht).mpr rfl
    have hiff : accepts x ↔ x.Accepted := and_iff_right hmethod
    have hinviting : Inviting n x source s := (hpending rfl).inviting hcoherent ht hattached hok
      hstate fun h' => hsource (hiff.mpr h')
    simp only [hiff]
    exact Inviting.notified env _ hinviting hloaded fun h' => hack (hiff.mpr h')
  · have hmethod : x.method ≠ .invite := fun h' => hk ((hcoherent.methods k x ht).mp h')
    rw [if_neg fun h' => hmethod h'.1]
    exact reports_all env 1 hcoherent (by simp [Ne.symm hk]) ht hattached hok hloaded trivial

/-- A transaction enters its next state. -/
theorem returns_change (env : Env) (st : TsxState) (source : Source) (hcoherent : Coherent [k] n s)
    (hpending : k = 0 → Pending s) (ht : s.tsxs[k]? = some x) (hattached : x.attached = true)
    (hle : x.state.rank ≤ st.rank)
    (hok : Tsx.Ok { x with state := st } ∨ Tsx.Ended { x with state := st })
    (hstate : st ≠ .calling) (hsource : accepts { x with state := st } → source = .rxMsg)
    (hloaded : s.loaded = true) (hack : accepts { x with state := st } → AckOk env s k) :
    Returns (tsxSetState (tsxUser env nesting) k st source) s fun es _ u =>
      Followed [] n k (if accepts { x with state := st } then [k] else [])
        { x with state := st } s es u := by
  have hbusy := hcoherent.withTsx (f := fun t => { t with state := st }) List.mem_cons_self ht
    rfl rfl rfl
  exact returns_tsxSetState_of ht hle (returns_modUaNotify hbusy hpending (State.withTsx_get ht)
    hattached hok hstate hsource hloaded hack)

/-- What every input comes to. -/
structure Settles (acks : List Nat) (s : State) (es : List Event) (u : State) : Prop where
  coherent : Coherent [] 0 u
  outcome : Outcome acks s es u
  loaded : u.loaded = s.loaded

theorem Settles.start {as : List Nat} {u w : State} {es : List Event} (h : Settles as u es w)
    (hinv : u.inv = s.inv) (hloaded : u.loaded = s.loaded) (hd : u.destroyed = s.destroyed) :
    Settles as s es w := by
  refine ⟨h.coherent, ⟨h.outcome.clean, h.outcome.acks, ?_, ?_⟩, h.loaded.trans hloaded⟩
  · rw [← hinv]
    exact h.outcome.told
  · rw [State.gone, ← hd]
    exact h.outcome.freed

/-- Only transactions were changed before the report. -/
theorem Followed.settles {as : List Nat} {u w : State} {es : List Event}
    (h : Followed [] 0 k as x u es w) (hinv : u.inv = s.inv) (hloaded : u.loaded = s.loaded)
    (hd : u.destroyed = s.destroyed) : Settles as s es w :=
  Settles.start ⟨h.coherent, h.report.outcome, h.report.loaded⟩ hinv hloaded hd

theorem Settles.withTimer {as : List Nat} {u : State} {es : List Event} (h : Settles as s es u)
    (k : Nat) (c : Bool) : Settles as s es (u.withTsx k fun t => { t with timeoutTimer := c }) :=
  ⟨h.coherent.withTimer k c,
    ⟨h.outcome.clean, h.outcome.acks, h.outcome.told, h.outcome.freed⟩, h.loaded⟩

end Changes

/-! ## Responses -/

section Responses

variable {env : Env} {k code : Nat} {s : State} {t x : Tsx}

/-- The response is a 2xx to the INVITE. -/
def takes (t : Tsx) (code : Nat) : Prop := t.method = .invite ∧ code / 100 = 2

instance (t : Tsx) (code : Nat) : Decidable (takes t code) := inferInstanceAs (Decidable (_ ∧ _))

theorem returns_tsxOnStateProceedingUac (hcoherent : Coherent [k] 0 s)
    (hpending : k = 0 → Pending s) (ht : s.tsxs[k]? = some x) (hattached : x.attached = true)
    (hrole : x.role = .uac) (hstate : x.state.rank ≤ TsxState.proceeding.rank)
    (hcode : 100 ≤ code) (hloaded : s.loaded = true) (hack : takes x code → AckOk env s k) :
    Returns (tsxOnStateProceedingUac env k code) s fun es _ u =>
      Settles (if takes x code then [k] else []) s es u := by
  have hget : (s.withTsx k fun t => { t with statusCode := code }).tsxs[k]? =
      some { x with statusCode := code } := State.withTsx_get ht
  have hcoded := hcoherent.withTsx (f := fun t => { t with statusCode := code })
    List.mem_cons_self ht rfl rfl rfl
  simp only [tsxOnStateProceedingUac, returns_bind, returns_updateTsx, returns_tsx hget,
    returns_ite, List.nil_append]
  split
  · rename_i hprovisional
    have hnot : ¬ takes x code := fun h => by
      have hfinal := h.2
      omega
    rw [if_neg hnot]
    refine (returns_change env .proceeding .rxMsg hcoded hpending hget hattached hstate
      (.inl ⟨hrole, hcode, by simp; omega, hattached⟩) (by simp) (fun _ => rfl) hloaded
        fun h => absurd h.2.1 (by simp)).mono fun es _ u hu => ?_
    rw [if_neg fun h => absurd h.2.1 (by simp)] at hu
    exact hu.settles rfl rfl rfl
  · split
    · rename_i hfinal
      split
      · rename_i hinvite
        have htakes : takes x code := ⟨hinvite, hfinal⟩
        have htimed := hcoded.withTimer k false
        refine (returns_change env .terminated .rxMsg htimed hpending (State.withTsx_get hget) hattached
          ?_ (.inr ⟨rfl, by simp; omega, hattached⟩) (by simp) (fun _ => rfl) hloaded
            fun _ => hack htakes).mono fun es _ u hu => ?_
        · exact Nat.le_trans hstate (by decide)
        · rw [if_pos htakes]
          rw [if_pos ⟨hinvite, rfl, hfinal⟩] at hu
          exact hu.settles rfl rfl rfl
      · rename_i hinvite
        have hnot : ¬ takes x code := fun h => hinvite h.1
        have htimed := hcoded.withTimer k true
        refine (returns_change env .completed .rxMsg htimed hpending (State.withTsx_get hget) hattached
          ?_ (.inl ⟨by simp; omega, fun h => absurd h hinvite, hattached⟩) (by simp)
            (fun _ => rfl) hloaded fun h => absurd h.1 hinvite).mono fun es _ u hu => ?_
        · exact Nat.le_trans hstate (by decide)
        · rw [if_neg hnot]
          rw [if_neg fun h => hinvite h.1] at hu
          exact hu.settles rfl rfl rfl
    · rename_i hfinal
      have hnot : ¬ takes x code := fun h => hfinal h.2
      have htimed := hcoded.withTimer k false
      have hget' := State.withTsx_get (f := fun t => { t with timeoutTimer := false }) hget
      rw [if_neg hnot]
      split
      · have hfailed := htimed.withTsx (f := fun t => { t with statusCode := 503 })
          List.mem_cons_self hget' rfl rfl rfl
        refine (returns_change env .terminated .transportError hfailed hpending
          (State.withTsx_get hget') hattached ?_ (.inr ⟨rfl, by simp, hattached⟩) (by simp)
            (fun h => absurd h.2.2 (by simp)) hloaded fun h => absurd h.2.2 (by simp)).mono
              fun es _ u hu => ?_
        · exact Nat.le_trans hstate (by decide)
        · rw [if_neg fun h => absurd h.2.2 (by simp)] at hu
          exact hu.settles rfl rfl rfl
      · refine (returns_change env .completed .rxMsg htimed hpending hget' hattached ?_
          (.inl ⟨by simp; omega, fun _ => by simp; omega, hattached⟩) (by simp) (fun _ => rfl)
            hloaded fun h => absurd h.2.1 (by simp)).mono fun es _ u hu => ?_
        · exact Nat.le_trans hstate (by decide)
        · rw [if_neg fun h => absurd h.2.1 (by simp)] at hu
          have hsettles : Settles [] s es u := hu.settles rfl rfl rfl
          simpa using hsettles.withTimer k true

theorem Coherent.attached_of_sends (h : Coherent [] 0 s) (ht : s.tsxs[k]? = some t)
    (hsends : t.sends = true) : t.attached = true := by
  have hok := h.ok k t ht (by simp)
  unfold Tsx.Ok at hok
  unfold Tsx.sends at hsends
  cases hs : t.state <;> simp_all

theorem Coherent.uac_rank (h : Coherent [] 0 s) (ht : s.tsxs[k]? = some t)
    (hstate : t.state = .calling ∨ t.state = .proceeding) : t.attached = true ∧ t.role = .uac := by
  have hok := h.ok k t ht (by simp)
  unfold Tsx.Ok at hok
  rcases hstate with hs | hs <;> simp_all

theorem returns_rxResponse (h : Coherent [] 0 s) (ht : s.tsxs[k]? = some t) (hcode : 100 ≤ code)
    (hloaded : t.state = .calling ∨ t.state = .proceeding → s.loaded = true)
    (hack : t.state = .calling ∨ t.state = .proceeding → takes t code → AckOk env s k) :
    Returns (rxResponse env k code) s fun es _ u =>
      Settles (if (t.state = .calling ∨ t.state = .proceeding) ∧ takes t code then [k] else [])
        s es u := by
  simp only [rxResponse, returns_bind, returns_tsx ht]
  have hpending (hs : t.state = .calling ∨ t.state = .proceeding) : k = 0 → Pending s := by
    rintro rfl
    exact h.pending ht (h.uac_rank ht hs).1
  split
  · rename_i hs
    obtain ⟨hattached, hrole⟩ := h.uac_rank ht (.inl hs)
    simp only [tsxOnStateCalling, returns_bind, returns_tsx ht, returns_ite, returns_updateTsx,
      List.nil_append]
    simp only [hs, true_or, true_and]
    split
    · have hget := State.withTsx_get (f := fun t => { t with timeoutTimer := false }) ht
      refine (returns_tsxOnStateProceedingUac ((h.busy k).withTimer k false)
        (hpending (.inl hs)) hget hattached hrole ?_ hcode (hloaded (.inl hs))
          (hack (.inl hs))).mono fun es _ u hu => ?_
      · simp [hs, TsxState.rank]
      · exact hu.start rfl rfl rfl
    · refine returns_tsxOnStateProceedingUac (h.busy k) (hpending (.inl hs)) ht hattached hrole
        ?_ hcode (hloaded (.inl hs)) (hack (.inl hs))
      simp [hs, TsxState.rank]
  · rename_i hs
    obtain ⟨hattached, hrole⟩ := h.uac_rank ht (.inr hs)
    simp only [hs, or_true, true_and, List.nil_append]
    refine returns_tsxOnStateProceedingUac (h.busy k) (hpending (.inr hs)) ht hattached hrole
      ?_ hcode (hloaded (.inr hs)) (hack (.inr hs))
    simp [hs, TsxState.rank]
  · rename_i hcalling hproceeding
    rw [if_neg fun h' => h'.1.elim hcalling hproceeding]
    exact ⟨h, .silent rfl rfl, rfl⟩

end Responses

/-! ## Timers and the transport -/

section Ends

variable {env : Env} {k : Nat} {s : State} {t x : Tsx}

/-- An attached transaction ends without a response. -/
theorem returns_ends (source : Source) (hcoherent : Coherent [k] 0 s)
    (hpending : k = 0 → Pending s) (ht : s.tsxs[k]? = some x) (hattached : x.attached = true)
    (hstate : x.state.rank ≤ TsxState.terminated.rank)
    (hcode : 200 ≤ x.statusCode ∧ (x.method = .invite → 300 ≤ x.statusCode))
    (hloaded : s.loaded = true) :
    Returns (tsxSetState (tsxUser env nesting) k .terminated source) s fun es _ u =>
      Settles [] s es u := by
  have hnot : ¬ accepts { x with state := .terminated } := fun h => by
    have hsuccess : x.statusCode / 100 = 2 := h.2.2
    have hfailure := hcode.2 h.1
    omega
  refine (returns_change env .terminated source hcoherent hpending ht hattached hstate
    (.inr ⟨rfl, hcode.1, hattached⟩) (by simp) (fun h => absurd h hnot) hloaded
      fun h => absurd h hnot).mono fun es _ u hu => ?_
  rw [if_neg hnot] at hu
  exact hu.settles rfl rfl rfl

theorem returns_destroyed (h : Coherent [] 0 s) (ht : s.tsxs[k]? = some t)
    (hstate : t.state = .terminated) :
    Returns (tsxSetState (tsxUser env nesting) k .destroyed .timer) s fun es _ u =>
      Settles [] s es u := by
  have hok := h.ok k t ht (by simp)
  simp only [Tsx.Ok, hstate] at hok
  have hget := State.withTsx_get (f := fun t => { t with state := .destroyed }) ht
  have hcoherent := ((h.busy k).withTsx (f := fun t => { t with state := .destroyed })
    List.mem_cons_self ht rfl rfl rfl).reported hget hok fun hk => by
      subst hk
      exact (h.phase (by simp)).gone ht hstate rfl
  have hnotify : tsxUser env nesting = modUaNotify env (tsxUser env 2) := rfl
  have hsettles : Settles [] s [] (s.withTsx k fun t => { t with state := .destroyed }) :=
    ⟨hcoherent, .silent rfl rfl, rfl⟩
  simpa [tsxSetState, hnotify, modUaNotify, returns_tsx ht, returns_tsx hget, hok.2, hstate,
    TsxState.rank] using hsettles

theorem returns_timeout (h : Coherent [] 0 s) (ht : s.tsxs[k]? = some t)
    (hloaded : t.sends = true → s.loaded = true) :
    Returns (timeout env k) s fun es _ u => Settles [] s es u := by
  have hget := State.withTsx_get (f := fun t => { t with timeoutTimer := false }) ht
  have htimed := h.withTimer k false
  have hok := h.ok k t ht (by simp)
  have hpending (hattached : t.attached = true) : k = 0 → Pending s := by
    rintro rfl
    exact h.pending ht hattached
  have hmethod : t.method = .invite → t.state = .completed → 300 ≤ t.statusCode := by
    intro hinvite hs
    simp only [Tsx.Ok, hs] at hok
    exact hok.2.1 hinvite
  simp only [timeout, returns_bind, returns_tsx ht, returns_updateTsx, List.nil_append]
  have hlate (hattached : t.attached = true) (hrank : t.state.rank ≤ TsxState.terminated.rank)
      (hsends : t.sends = true) :
      Returns (tsxSetState (tsxUser env nesting) k .terminated .timer)
        ((s.withTsx k fun t => { t with timeoutTimer := false }).withTsx k fun t =>
          { t with statusCode := 408 }) fun es _ u => Settles [] s es u := by
    have hcoded := ((h.busy k).withTimer k false).withTsx
      (f := fun t => { t with statusCode := 408 }) List.mem_cons_self hget rfl rfl rfl
    exact (returns_ends .timer hcoded (hpending hattached) (State.withTsx_get hget) hattached
      hrank ⟨by simp, by simp⟩ (hloaded hsends)).mono fun es _ u hu => hu.start rfl rfl rfl
  cases hs : t.state <;> simp only [Tsx.Ok, hs] at hok
  case calling => exact hlate hok.2.2 (by simp [hs, TsxState.rank]) (by simp [Tsx.sends, hs])
  case proceeding =>
    exact hlate hok.2.2.2 (by simp [hs, TsxState.rank]) (by simp [Tsx.sends, hs])
  case completed =>
    exact (returns_ends .timer ((h.busy k).withTimer k false) (hpending hok.2.2) hget hok.2.2
      (by simp [hs, TsxState.rank]) ⟨hok.1, fun hinvite => hmethod hinvite hs⟩
        (hloaded (by simp [Tsx.sends, hs]))).mono fun es _ u hu => hu.start rfl rfl rfl
  case terminated =>
    exact (returns_destroyed htimed hget hs).mono fun es _ u hu => hu.start rfl rfl rfl
  case trying => exact ⟨htimed, .silent rfl rfl, rfl⟩
  case destroyed => exact ⟨htimed, .silent rfl rfl, rfl⟩

theorem returns_transportError (h : Coherent [] 0 s) (ht : s.tsxs[k]? = some t) (posted : Bool)
    (hsends : t.sends = true) (hloaded : s.loaded = true) :
    Returns (transportError env k posted) s fun es _ u => Settles [] s es u := by
  have hattached := h.attached_of_sends ht hsends
  have hok := h.ok k t ht (by simp)
  have hpending : k = 0 → Pending s := by
    rintro rfl
    exact h.pending ht hattached
  have hcoded := (h.busy k).withTsx (f := fun t => { t with
    statusCode := if posted ∧ 200 ≤ t.statusCode then t.statusCode else 503 })
    List.mem_cons_self ht rfl rfl rfl
  simp only [transportError, returns_bind, returns_updateTsx, List.nil_append]
  refine (returns_ends .transportError hcoded hpending (State.withTsx_get ht) hattached ?_ ?_
    hloaded).mono fun es _ u hu => hu.start rfl rfl rfl
  · unfold Tsx.sends at hsends
    cases hs : t.state <;> simp_all [TsxState.rank]
  · unfold Tsx.sends at hsends
    unfold Tsx.Ok at hok
    cases hs : t.state <;> simp_all <;> split <;> simp_all
    omega

end Ends

/-! ## Requests from the other side, and repeated responses -/

section Incoming

variable {env : Env} {k : Nat} {s : State} {t : Tsx}

/-- The INVITE was accepted, or the session is over. -/
theorem Coherent.given_up (h : Coherent [] 0 s) (ht : s.tsxs[0]? = some t)
    (hattached : t.attached = false) :
    s.inv.state = .disconnected ∨
      ((s.inv.state = .connecting ∨ s.inv.state = .confirmed) ∧ s.inv.inviteTsx = none) := by
  have hphase := h.phase (by simp)
  have hok := h.ok 0 t ht (by simp)
  unfold Phase at hphase
  cases hs : s.inv.state <;> simp only [hs] at hphase
  case null => simp [hphase.1] at ht
  case calling =>
    obtain ⟨-, -, u, hu, hstate⟩ := hphase
    cases ht.symm.trans hu
    rcases hstate with hstate | hstate <;> simp [Tsx.Ok, hstate, hattached] at hok
  case early =>
    obtain ⟨-, -, u, hu, hstate⟩ := hphase
    cases ht.symm.trans hu
    simp [Tsx.Ok, hstate, hattached] at hok
  case connecting => simp [hphase.1]
  case confirmed => simp [hphase.1]
  case disconnected => simp

theorem phase_acknowledged (env : Env) (h : Coherent [] 0 s) (ht : s.tsxs[0]? = some t)
    (hattached : t.attached = false) : Phase (acknowledged env 0 s) := by
  have htsxs : s.tsxs ≠ [] := List.ne_nil_of_mem (List.mem_of_getElem? ht)
  have hphase := h.phase (by simp)
  obtain hs | ⟨hs, hinvite⟩ := h.given_up ht hattached
  · have hover : (acknowledged env 0 s).inv.state = .disconnected :=
      acknowledged_disconnected.mpr hs
    simp only [Phase, hover]
    simp only [Phase, hs] at hphase
    exact ⟨hphase.1, .inr rfl, htsxs⟩
  · have htalk : (acknowledged env 0 s).inv.state = .connecting ∨
        (acknowledged env 0 s).inv.state = .confirmed := by
      simp only [acknowledged, State.withInv_inv]
      split
      · exact .inr rfl
      · exact hs
    rcases htalk with htalk | htalk <;> simp only [Phase, htalk]
    · exact ⟨hinvite, rfl, t, ht, hattached⟩
    · exact ⟨hinvite, rfl, t, ht, hattached⟩

theorem returns_rxStray2xx (h : Coherent [] 0 s) (ht : s.tsxs[0]? = some t)
    (hattached : t.attached = false) (hd : s.destroyed = false) (hloaded : s.loaded = true)
    {post : List Event → Unit → State → Prop} :
    Returns (rxStray2xx env 0) s post ↔
      AckOk env s 0 ∧ post (acknowledging env s 0) () (acknowledged env 0 (s.tagged env 200)) := by
  have hgone := h.given_up ht hattached
  have hconfirming : confirming env s 0 → s.inv.inviteTsx = none := by
    intro hc
    obtain hs | hs := hgone
    · simp [confirming, hs, rank] at hc
    · exact hs.2
  have hrepeated : Repeated s 0 200 := by
    obtain hs | hs := hgone
    · exact ⟨rfl, .inr (.inl hs)⟩
    · exact ⟨rfl, .inl hs.2⟩
  rw [rxStray2xx, returns_locked_onRxResponse env _ 0 200 hd (h.held hd) hloaded
    h.notify hconfirming, if_pos hrepeated]

theorem returns_rxBye (h : Coherent [] 0 s) (hd : s.destroyed = false) (hs : s.tsxs ≠ [])
    (hloaded : env.createUas = true → s.loaded = true) :
    Returns (rxBye env) s fun es _ u => Settles [] s es u := by
  suffices hbody : Returns (rxBye env) s fun es _ u =>
      Coherent [] 0 u ∧ Report s.tsxs.length [] s es u from
    hbody.mono fun es _ u hu => ⟨hu.1, hu.2.outcome, hu.2.loaded⟩
  have hlock := h.lock hd
  have hlen : s.tsxs.length ≠ 0 := fun h' => hs (List.length_eq_zero_iff.mp h')
  refine returns_locked_of hd ?_
  suffices hinner : Returns _ s.lock fun es _ u =>
      Coherent [] 1 u ∧ Report s.tsxs.length [] s.lock es u from
    hinner.mono fun es _ u hu => ⟨hu.1, hu.2.locked hu.1.alive⟩
  refine returns_locked_of hlock.alive ?_
  have htagged : Coherent [] 2 { s.lock.lock with remoteTag := true } :=
    { hlock.lock hlock.alive with }
  have hstart : Report s.tsxs.length [] s.lock.lock [] { s.lock.lock with remoteTag := true } :=
    { Report.refl (k := s.tsxs.length) (s := s.lock.lock) with }
  simp only [returns_bind, returns_update, returns_ite, returns_emit, List.nil_append]
  split
  · rename_i hcreated
    have hnew : Coherent [s.tsxs.length] 2
        (({ s.lock.lock with remoteTag := true } : State).append (newTsx .uas .bye)) :=
      htagged.append rfl (by simp [newTsx, hs]) (fun _ => rfl)
    have hget : (({ s.lock.lock with remoteTag := true } : State).append
        (newTsx .uas .bye)).tsxs[s.tsxs.length]? = some (newTsx .uas .bye) :=
      State.append_get ({ s.lock.lock with remoteTag := true } : State) _
    have hloaded' : (({ s.lock.lock with remoteTag := true } : State).append
        (newTsx .uas .bye)).loaded = true := hloaded hcreated
    simp only [returns_pjsipTsxCreateUas, pjsipDlgGetInvSession, returns_bind, returns_get,
      hloaded', if_true, returns_pure, List.nil_append]
    have hreport := returns_change env .trying .rxMsg hnew (fun h' => absurd h' hlen) hget rfl
      (by simp [newTsx, TsxState.rank]) (.inl ⟨rfl, rfl, rfl⟩) (by simp) (fun _ => rfl) hloaded'
        fun h' : accepts _ => absurd h'.1 (by simp [newTsx])
    refine hreport.mono fun es _ u hu => ?_
    rw [if_neg fun h' => absurd h'.1 (by simp [newTsx])] at hu
    obtain ⟨v, hv, -⟩ := hu.own
    have hall := (hstart.trans (.append (newTsx .uas .bye))).trans hu.report
    have hv' : u.tsxs[s.lock.lock.tsxs.length]? = some v := hv
    simp only [returns_tsx hv', reduceCtorEq, false_and, if_false, List.append_nil]
    exact ⟨hu.coherent, by simpa using hall.locked hu.coherent.alive⟩
  · have hrespond := hstart.trans (.respond 500)
    exact ⟨htagged, by simpa using hrespond.locked htagged.alive⟩

end Incoming

/-! ## The application -/

section Application

variable {env : Env} {n : Nat} {s : State}

theorem Coherent.fresh (h : Coherent [] n s) (hs : s.tsxs = []) :
    s.inv.state = .null ∧ s.inv.inviteTsx = none ∧ s.inv.lastAck = none := by
  have hphase := h.phase (by simp)
  unfold Phase at hphase
  cases hstate : s.inv.state <;> simp only [hstate] at hphase
  case null => exact ⟨rfl, hphase.2⟩
  case disconnected => exact absurd hs hphase.2.2
  all_goals simp [hs] at hphase

theorem firstReport_of_null (h : Coherent [] n s) (hs : s.tsxs = []) :
    FirstReport (tsxUser env nesting) [] (n + 1) s.tsxs.length .invite s := by
  obtain ⟨hnull, hinvite, hack⟩ := h.fresh hs
  intro x source u hcoherent hinv hload hget hx hsource
  have hloaded : u.loaded = true := hload.trans (h.loaded (by simp [hnull]))
  rw [hs] at hcoherent hget ⊢
  have hrejected : ¬ x.Accepted := by
    obtain ⟨-, -, -, ⟨hstate, hcode⟩ | ⟨hstate, hcode⟩⟩ := hx
    · exact fun h' => absurd h'.1 (by simp [hstate])
    · rintro ⟨-, h'⟩
      omega
  have hinviting : Inviting (n + 1) x source u := by
    refine ⟨hcoherent, hget, hx.2.2.1, hx.ok, fun h' => absurd h' hrejected, ?_⟩
    rw [hinv]
    simp only [hnull]
    refine ⟨hinvite, hack, hsource, ?_⟩
    obtain ⟨-, -, hattached, ⟨hstate, -⟩ | ⟨hstate, hcode⟩⟩ := hx
    · exact .inl hstate
    · refine .inr ⟨hstate, ?_, hattached⟩
      omega
  have hreport := Inviting.notified env (tsxUser env 2) hinviting hloaded
    fun h' => absurd h' hrejected
  rw [if_neg hrejected] at hreport
  exact hreport

theorem returns_invite (h : Coherent [] 0 s) (hs : s.tsxs = []) :
    Returns (invite env) s fun es _ u => Settles [] s es u := by
  obtain ⟨hnull, hinvite, hack⟩ := h.fresh hs
  have hd : s.destroyed = false := by
    rw [Bool.eq_false_iff]
    intro hd
    have hcount := (h.destroyed.mp hd).1
    rw [h.counted, hnull] at hcount
    simp at hcount
  simp only [invite, returns_bind, returns_get, returns_pjAssert, hnull, List.nil_append]
  refine ⟨rfl, (returns_pjsipInvSendMsg env (firstReport_of_null h hs) h hd
    (iff_of_true rfl hs) (fun _ => hinvite)).mono fun es _ u hu => ?_⟩
  simpa using Settles.mk hu.1 hu.2.1.outcome hu.2.1.loaded

/-- The end of a call: a request can be made for it, and the dialog outlives the request. -/
def StopOk (env : Env) (s : State) : Prop :=
  match s.inv.state with
  | .null | .disconnected => False
  | .calling | .early =>
      (∃ t, s.tsxs[0]? = some t ∧ 100 ≤ t.statusCode) ∧ env.createCancel = true
  | .connecting | .confirmed =>
      env.createRequest = true ∧
        (s.tsxCount ≠ 0 ∨ ∀ resolved, env.sent .bye ≠ .transportError resolved)

/-- Whatever is left of the session is over afterwards. -/
theorem returns_finish {notify : Notify} {code : Nat} (h : Coherent [] (n + 1) s)
    (hs : s.tsxs ≠ []) (hcode : 0 < code) :
    Returns (do
      invSetCause code
      let s ← Traced.get
      if s.inv.state ≠ .disconnected then invSetState env notify .disconnected else pure ()) s
      fun es _ u => Coherent [] (n + 1) u ∧ Report 0 [] s es u ∧ u.inv.state = .disconnected := by
  by_cases hover : s.inv.state = .disconnected
  · simp only [invSetCause, returns_bind, returns_updateInv, returns_get, returns_ite,
      State.withInv_inv, hover, ne_eq, not_true, if_false, returns_pure, List.nil_append]
    refine ⟨h.withInv Iff.rfl rfl rfl rfl fun hb => ?_, .session (by simp) (by simp) rfl .nil (by simp), trivial⟩
    have hphase := h.phase hb
    simp only [Phase, hover, State.withInv_inv] at hphase ⊢
    exact hphase
  · have hdisconnect (post : List Event → Unit → State → Prop) :
        Returns (disconnect env notify code) s post ↔
          post [.stateChanged .disconnected, .destroySession] () (s.over code) :=
      returns_disconnect hcode h hover
    simp only [disconnect, invSetCause, returns_bind, returns_updateInv] at hdisconnect
    simp only [invSetCause, returns_bind, returns_updateInv, returns_get, returns_ite,
      State.withInv_inv, hover, ne_eq, not_false_eq_true, if_true]
    have hfinal := (hdisconnect fun es _ u =>
      Coherent [] (n + 1) u ∧ Report 0 [] s es u ∧ u.inv.state = .disconnected).mpr
        ⟨h.over hover hs code, .over hover code, rfl⟩
    simpa using hfinal

theorem returns_pjsipInvTerminate (h : Coherent [] 0 s) (hd : s.destroyed = false)
    (hs : s.tsxs ≠ []) (hloaded : s.loaded = true) {code : Nat} (hcode : 300 ≤ code) :
    Returns (pjsipInvTerminate env code) s fun es _ u =>
      Settles [] s es u ∧ u.inv.state = .disconnected := by
  suffices hbody : Returns (pjsipInvTerminate env code) s fun es _ u =>
      Coherent [] 0 u ∧ Report 0 [] s es u ∧ u.inv.state = .disconnected from
    hbody.mono fun es _ u hu => ⟨⟨hu.1, hu.2.1.outcome, hu.2.1.loaded⟩, hu.2.2⟩
  refine returns_locked_of hd ?_
  have hlock := h.lock hd
  have hsame : (s.lock.withInv fun inv => { inv with notify := true }) = s.lock := by
    simp [State.withInv, State.lock, ← h.notify]
  simp only [returns_bind, returns_updateInv, hsame, returns_get, List.nil_append]
  have hfinish {es : List Event} {u : State} (hcoherent : Coherent [] 1 u) (hu : u.tsxs ≠ [])
      (hreport : Report 0 [] s.lock es u) :
      Returns (do
        invSetCause code
        let s ← Traced.get
        if s.inv.state ≠ .disconnected then invSetState env (tsxUser env nesting) .disconnected
        else pure ()) u fun es' _ w =>
          Coherent [] 1 w ∧ Report 0 [] s (es ++ es' ++ w.unlock.settling) w.unlock.settle ∧
            w.unlock.settle.inv.state = .disconnected := by
    refine (returns_finish hcoherent hu (by omega)).mono fun es' _ w hw => ?_
    exact ⟨hw.1, by simpa using (hreport.trans hw.2.1).locked hw.1.alive, by simpa using hw.2.2⟩
  split
  · rename_i k hk
    have hzero : k = 0 := by
      obtain hnone | hsome := (h.phase (by simp)).inviteTsx
      · simp [hnone] at hk
      · simpa [hsome] using hk.symm
    subst hzero
    obtain ⟨t, ht⟩ : ∃ t, s.lock.tsxs[0]? = some t := by
      cases hget : s.tsxs with
      | nil => exact absurd hget hs
      | cons t ts => exact ⟨t, by simp [hget]⟩
    have hok := h.ok 0 t ht (by simp)
    rw [returns_bind, returns_tsx ht, returns_ite]
    split
    · rename_i hrank
      have hattached : t.attached = true := by
        unfold Tsx.Ok at hok
        cases hstate : t.state <;> simp_all [TsxState.rank]
      have hcoded := (hlock.busy 0).withTsx (f := fun t => { t with statusCode := code })
        List.mem_cons_self ht rfl rfl rfl
      have hget := State.withTsx_get (f := fun t => { t with statusCode := code }) ht
      have hnot : ¬ accepts { t with statusCode := code, state := .terminated } := fun h' => by
        have hsuccess : code / 100 = 2 := h'.2.2
        omega
      have hlt : t.state.rank < TsxState.terminated.rank := Nat.lt_of_le_of_lt hrank (by decide)
      have hend := returns_change env .terminated .user hcoded
        (fun _ => h.pending ht hattached) hget hattached (Nat.le_of_lt hlt)
        (.inr ⟨rfl, by simp; omega, hattached⟩) (by simp) (fun h' => absurd h' hnot) hloaded
        fun h' => absurd h' hnot
      rw [if_neg hnot] at hend
      have hterminate : Returns (pjsipTsxTerminate (tsxUser env nesting) 0 code) s.lock
          fun es _ u => Coherent [] 1 u ∧ u.tsxs ≠ [] ∧ Report 0 [] s.lock es u := by
        have hcode' : 200 ≤ code := by omega
        simp only [pjsipTsxTerminate, returns_bind, returns_pjAssert, returns_tsx ht, returns_ite,
          hlt, if_true, returns_updateTsx, hcode', decide_true, true_and]
        refine hend.mono fun es _ u hu => ⟨hu.coherent, ?_, ?_⟩
        · obtain ⟨v, hv, -⟩ := hu.own
          exact List.ne_nil_of_mem (List.mem_of_getElem? hv)
        · have hall := (Report.withTsx (s := s.lock) (k := 0)
            fun t => { t with statusCode := code }).trans hu.report
          simpa using hall
      exact hterminate.bind fun es _ u hu => by simpa using hfinish hu.1 hu.2.1 hu.2.2
    · exact hfinish hlock hs .refl
  · exact hfinish hlock hs .refl

/-- Something still holds the dialog when the request has been tried. -/
def Outlives (env : Env) (method : Method) (s : State) : Prop :=
  (∃ (k : Nat) (t : Tsx), s.tsxs[k]? = some t ∧ t.attached = true) ∨
    ∀ resolved, env.sent method ≠ .transportError resolved

theorem attached_of_count (h : Coherent [] n s) (hs : s.tsxCount ≠ 0) :
    ∃ (k : Nat) (t : Tsx), s.tsxs[k]? = some t ∧ t.attached = true := by
  rw [h.attached, Nat.ne_zero_iff_zero_lt, List.countP_pos_iff] at hs
  obtain ⟨t, hmem, hattached⟩ := hs
  obtain ⟨k, hk⟩ := List.mem_iff_getElem?.mp hmem
  exact ⟨k, t, hk, hattached⟩

theorem returns_pjsipInvEndSession (h : Coherent [] 0 s) (hok : StopOk env s) {code : Nat} :
    Returns (pjsipInvEndSession env code) s fun es a u =>
      es = [] ∧ ∃ method, a = some (some method) ∧ method ≠ .invite ∧ Coherent [] 0 u ∧
        Report 0 [] s [] u ∧ Outlives env method u ∧ u.destroyed = s.destroyed := by
  have hphase := h.phase (by simp)
  have hcoherent (c : Nat) (d : Bool) :
      Coherent [] 0 (s.withInv fun inv => { inv with cause := c, cancelling := d }) :=
    h.withInv Iff.rfl rfl rfl rfl fun _ => hphase.withInv rfl rfl rfl
  have hreport (c : Nat) (d : Bool) :
      Report 0 [] s [] (s.withInv fun inv => { inv with cause := c, cancelling := d }) :=
    .session (by simp) (by simp) rfl .nil fun _ => rfl
  unfold StopOk at hok
  unfold Phase at hphase
  cases hs : s.inv.state <;> simp only [hs] at hok hphase
  case calling | early =>
    obtain ⟨⟨t, ht, hcode⟩, hcreate⟩ := hok
    have hattached : t.attached = true := by
      obtain ⟨-, -, u, hu, hstate⟩ := hphase
      cases ht.symm.trans hu
      have hlive := h.ok 0 t ht (by simp)
      cases hstate' : t.state <;> simp_all [Tsx.Ok]
    have hnot : ¬ t.statusCode < 100 := by omega
    have hget (f : Inv → Inv) : (s.withInv f).tsxs[0]? = some t := ht
    simp only [pjsipInvEndSession, invSetCause, returns_bind, returns_updateInv, returns_get,
      State.withInv_inv, hs, hphase.1, returns_tsx (hget _), hnot, if_false, hcreate, if_true,
      pjsipTsxSetTimeout, returns_updateTsx, returns_ite, returns_pure]
    refine ⟨rfl, .cancel, rfl, by simp, (hcoherent _ true).withTimer 0 true, ?_, .inl ⟨0, _,
      State.withTsx_get ht, hattached⟩, rfl⟩
    exact (hreport _ true).trans (.withTimer 0 true)
  case connecting | confirmed =>
    simp only [pjsipInvEndSession, invSetCause, returns_bind, returns_updateInv, returns_get,
      State.withInv_inv, hs, hok.1, if_true, returns_pure]
    have hlives : Outlives env .bye s := hok.2.imp (attached_of_count h) id
    exact ⟨rfl, .bye, rfl, by simp, hcoherent _ true, hreport _ true, hlives, rfl⟩

theorem returns_sendBye (h : Coherent [] 0 s) (hok : StopOk env s) :
    Returns (sendBye env) s fun es _ u =>
      Coherent [] 0 u ∧ Outcome [] s es u ∧ u.loaded = false ∧ u.inv.state = .disconnected := by
  have hactive : s.inv.state ≠ .disconnected ∧ s.inv.state ≠ .null := by
    unfold StopOk at hok
    constructor <;> (intro hs; simp [hs] at hok)
  have hd : s.destroyed = false := h.alive_of_active hactive.1
  have hloaded := h.loaded hactive.1
  have hs : s.tsxs ≠ [] := fun hs => hactive.2 (h.fresh hs).1
  rw [sendBye]
  refine (returns_pjsipInvEndSession h hok).bind fun es a u hu => ?_
  obtain ⟨rfl, method, rfl, hmethod, hcoherent, hreport, hlives, hdestroyed⟩ := hu
  have hu : u.tsxs ≠ [] := fun hu => by
    have hlength := hreport.length
    rw [hu] at hlength
    exact hs (List.length_eq_zero_iff.mp (Nat.le_zero.mp hlength))
  have hfirst : FirstReport (tsxUser env nesting) [] 1 u.tsxs.length method u :=
    firstReport_of_quiet (reports_quiet env 2) (by simp) hu (hreport.loaded.trans hloaded)
  dsimp only
  refine (returns_pjsipInvSendMsg env hfirst hcoherent (hdestroyed.trans hd)
    (iff_of_false hmethod hu) fun h' => absurd h' hmethod).bind fun es a w hw => ?_
  obtain ⟨hw, hsent, hsame, hnew⟩ := hw
  have halive : w.destroyed = false := by
    obtain ⟨k, t, ht, hattached⟩ | hsends := hlives
    · have hk : k < u.tsxs.length := (List.getElem?_eq_some_iff.mp ht).choose
      obtain ⟨c, hc⟩ := hsent.others k t (by omega) ht
      exact hw.alive_of_attached hc hattached
    · cases hmsg : env.sent method with
      | notCreated => rw [hsame hmsg, hdestroyed, hd]
      | sent =>
          obtain ⟨v, hv, hattached⟩ := hnew hmsg
          exact hw.alive_of_attached hv hattached
      | transportError resolved => exact absurd hmsg (hsends resolved)
  have hwtsxs : w.tsxs ≠ [] := fun hnil => by
    have hlength := hsent.length
    rw [hnil] at hlength
    exact hu (List.length_eq_zero_iff.mp (Nat.le_zero.mp hlength))
  have hwloaded : w.loaded = true := (hsent.loaded.trans hreport.loaded).trans hloaded
  refine (returns_pjsipInvTerminate hw halive hwtsxs hwloaded (by decide)).bind
    fun fs _ x hx => ?_
  obtain ⟨hsettles, hover⟩ := hx
  have hall := (hreport.outcome.trans hsent.outcome).trans hsettles.outcome
  simp only [returns_bind, returns_get, returns_pjAssert, returns_update,
    hsettles.loaded.trans hwloaded, true_and]
  have hunloaded : Coherent [] 0 { x with loaded := false } :=
    { hsettles.coherent with loaded := fun h' => absurd hover h' }
  have hunloaded' : Outcome [] s (es ++ fs) { x with loaded := false } :=
    ⟨by simpa using hall.clean, by simpa using hall.acks, by simpa using hall.told,
      by simpa [State.gone] using hall.freed⟩
  exact ⟨hunloaded, by simpa using hunloaded', hover⟩

end Application

end SimpleSipClient.Call
