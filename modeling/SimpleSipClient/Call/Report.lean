import SimpleSipClient.Call.Coherence

/-! # What comes out of a report

The events of a step: nothing unclean, which INVITE was acknowledged, and which states the
application heard of. What the step leaves of the other transactions is stated with it, so that
both compose along a routine.
-/

namespace SimpleSipClient.Call

open Foundation
open MediaClient (InvState)

def Event.acked : Event → Option Nat
  | .ack k => some k
  | _ => none

def Event.announced : Event → Option InvState
  | .stateChanged state => some state
  | _ => none

/-- The first 2xx is acknowledged by the client, and only a repeated one by the session, which
is confirmed then. -/
def acksFor : InvState → Nat
  | .connecting => 1
  | .confirmed => 2
  | _ => 0

/-- The announced states never fall back, and the last one is announced and the session
destroyed when the session ends, once. -/
structure Told (before : InvState) (es : List Event) (after : InvState) : Prop where
  le : rank before ≤ rank after
  between : ∀ state ∈ es.filterMap Event.announced, rank before ≤ rank state ∧
    rank state ≤ rank after
  sorted : (es.filterMap Event.announced).Pairwise fun a b => rank a ≤ rank b
  ended : es.count .destroySession = if before ≠ .disconnected ∧ after = .disconnected then 1 else 0
  last : es.count (.stateChanged .disconnected) = es.count .destroySession
  acked : acksFor after ≤ acksFor before + (es.filterMap Event.acked).length

/-- How often the dialog has been destroyed. -/
def State.gone (s : State) : Nat := s.destroyed.toNat

/-- `k` is the transaction whose change was reported. -/
structure Report (k : Nat) (acks : List Nat) (s : State) (es : List Event) (u : State) : Prop where
  clean : ∀ e ∈ es, e.Clean
  acks : es.filterMap Event.acked = acks
  told : Told s.inv.state es u.inv.state
  freed : es.count .destroyDialog + s.gone = u.gone
  loaded : u.loaded = s.loaded
  length : s.tsxs.length ≤ u.tsxs.length
  inviteTsx : k ≠ 0 → u.inv.inviteTsx = s.inv.inviteTsx
  others : ∀ (j : Nat) (t : Tsx), j ≠ k → s.tsxs[j]? = some t →
    ∃ b, u.tsxs[j]? = some { t with timeoutTimer := b }

/-- What a report leaves: the transaction is given up if it is over. An unanswered BYE may
have been answered meanwhile. -/
structure Followed (b : List Nat) (n k : Nat) (acks : List Nat) (t : Tsx) (s : State)
    (es : List Event) (u : State) : Prop where
  coherent : Coherent b n u
  report : Report k acks s es u
  own : ∃ v, u.tsxs[k]? = some v ∧ v.Ok ∧ (t.state ≠ .trying →
    ∃ c, v = { t with attached := decide (t.state ≠ .terminated), timeoutTimer := c })

theorem rank_injective {a b : InvState} (h : rank a = rank b) : a = b := by
  cases a <;> cases b <;> first | rfl | simp [rank] at h

theorem rank_le_disconnected (a : InvState) : rank a ≤ rank .disconnected := by
  cases a <;> decide

theorem disconnected_of_le {a : InvState} (h : rank .disconnected ≤ rank a) :
    a = .disconnected :=
  rank_injective (Nat.le_antisymm (rank_le_disconnected a) h)

section Told

variable {a b c : InvState} {es fs : List Event}

theorem Told.nil : Told a [] a where
  le := Nat.le_refl _
  between := by simp
  sorted := by simp
  ended := by
    rw [if_neg fun h => h.1 h.2]
    rfl
  last := rfl
  acked := Nat.le_add_right _ _

theorem Told.trans (h : Told a es b) (h' : Told b fs c) : Told a (es ++ fs) c where
  le := Nat.le_trans h.le h'.le
  between := by
    rw [List.filterMap_append]
    intro state hstate
    obtain hstate | hstate := List.mem_append.mp hstate
    · obtain ⟨hlow, hhigh⟩ := h.between state hstate
      exact ⟨hlow, Nat.le_trans hhigh h'.le⟩
    · obtain ⟨hlow, hhigh⟩ := h'.between state hstate
      exact ⟨Nat.le_trans h.le hlow, hhigh⟩
  sorted := by
    rw [List.filterMap_append, List.pairwise_append]
    refine ⟨h.sorted, h'.sorted, fun x hx y hy => ?_⟩
    exact Nat.le_trans (h.between x hx).2 (h'.between y hy).1
  ended := by
    rw [List.count_append, h.ended, h'.ended]
    by_cases hb : b = .disconnected
    · have hc : c = .disconnected := disconnected_of_le (hb ▸ h'.le)
      simp [hb, hc]
    · have ha : c = .disconnected ∨ c ≠ .disconnected := Decidable.em _
      have ha' : a ≠ .disconnected := by
        rintro rfl
        exact hb (disconnected_of_le h.le)
      simp [hb, ha']
  last := by
    rw [List.count_append, List.count_append, h.last, h'.last]
  acked := by
    have hfirst := h.acked
    have hsecond := h'.acked
    rw [List.filterMap_append, List.length_append]
    omega

/-- Another state is entered, and announced. -/
theorem Told.step (hle : rank a ≤ rank b) (hb : b ≠ .disconnected)
    (hes : es.filterMap Event.announced = [b]) (hend : .destroySession ∉ es)
    (hacks : acksFor b ≤ acksFor a + (es.filterMap Event.acked).length) : Told a es b where
  le := hle
  between := by simpa [hes] using hle
  sorted := by simp [hes]
  ended := by simp [hb, List.count_eq_zero.mpr hend]
  last := by
    have hquiet : .stateChanged .disconnected ∉ es := fun he => by
      have hmem : .disconnected ∈ es.filterMap Event.announced :=
        List.mem_filterMap.mpr ⟨_, he, rfl⟩
      rw [hes, List.mem_singleton] at hmem
      exact hb hmem.symm
    rw [List.count_eq_zero.mpr hquiet, List.count_eq_zero.mpr hend]
  acked := hacks

/-- A state in which the INVITE is pending is entered, and announced or not. -/
theorem Told.enter (hle : rank a ≤ rank b) (hb : b ≠ .disconnected) (hacks : acksFor b = 0)
    (p : Prop) [Decidable p] : Told a (if p then [] else [.stateChanged b]) b := by
  split
  · exact ⟨hle, by simp, by simp, by simp [hb], rfl, by simp [hacks]⟩
  · exact .step hle hb rfl (by simp) (by simp [hacks])

theorem Told.over (ha : a ≠ .disconnected) :
    Told a [.stateChanged .disconnected, .destroySession] .disconnected where
  le := rank_le_disconnected a
  between := by simpa [Event.announced] using rank_le_disconnected a
  sorted := by simp [Event.announced, List.filterMap_cons]
  ended := by simp [ha]
  last := by simp
  acked := by simp [acksFor]

/-- Events that neither announce a state nor end the session. -/
theorem Told.quiet (h : ∀ e ∈ es, e.announced = none ∧ e ≠ .destroySession) : Told a es a where
  le := Nat.le_refl _
  between := by
    rw [List.filterMap_eq_nil_iff.mpr fun e he => (h e he).1]
    simp
  sorted := by
    rw [List.filterMap_eq_nil_iff.mpr fun e he => (h e he).1]
    simp
  ended := by
    rw [if_neg fun h => h.1 h.2]
    exact List.count_eq_zero.mpr fun he => (h _ he).2 rfl
  last := by
    rw [List.count_eq_zero.mpr fun he => (h _ he).2 rfl]
    exact List.count_eq_zero.mpr fun he => by simpa [Event.announced] using (h _ he).1
  acked := Nat.le_add_right _ _

end Told

section Report

variable {k : Nat} {as bs : List Nat} {s t u : State} {es fs : List Event}

theorem Report.trans (h : Report k as s es t) (h' : Report k bs t fs u) :
    Report k (as ++ bs) s (es ++ fs) u where
  clean e he := (List.mem_append.mp he).elim (h.clean e) (h'.clean e)
  acks := by rw [List.filterMap_append, h.acks, h'.acks]
  told := h.told.trans h'.told
  freed := by
    have hfirst := h.freed
    have hsecond := h'.freed
    rw [List.count_append]
    omega
  loaded := h'.loaded.trans h.loaded
  length := Nat.le_trans h.length h'.length
  inviteTsx hk := (h'.inviteTsx hk).trans (h.inviteTsx hk)
  others j x hj hx := by
    obtain ⟨b, hb⟩ := h.others j x hj hx
    obtain ⟨c, hc⟩ := h'.others j _ hj hb
    exact ⟨c, hc⟩

theorem Report.refl : Report k [] s [] s where
  clean := by simp
  acks := rfl
  told := .nil
  freed := Nat.zero_add _
  loaded := rfl
  length := Nat.le_refl _
  inviteTsx _ := rfl
  others _ x _ hx := ⟨x.timeoutTimer, hx⟩

/-- A report within a report is about a transaction that was not there before. -/
theorem Report.nested {j : Nat} (h : Report j as s es u) (hj : s.tsxs.length ≤ j)
    (hs : j ≠ 0) : Report k as s es u :=
  { h with
    inviteTsx := fun _ => h.inviteTsx hs
    others := fun i x _ hx => by
      have hi : i < s.tsxs.length := (List.getElem?_eq_some_iff.mp hx).choose
      exact h.others i x (by omega) hx }

/-- A message goes out. -/
theorem Report.message {e : Event} (he : e.acked = none ∧ e.announced = none ∧ e.Clean)
    (hend : e ≠ .destroySession ∧ e ≠ .destroyDialog) : Report k [] s [e] s where
  clean := by simpa using he.2.2
  acks := by simp [he.1]
  told := .quiet (by simpa using ⟨he.2.1, hend.1⟩)
  freed := by
    rw [List.count_eq_zero.mpr (by simpa using hend.2.symm), Nat.zero_add]
  loaded := rfl
  length := Nat.le_refl _
  inviteTsx _ := rfl
  others _ x _ hx := ⟨x.timeoutTimer, hx⟩

theorem Report.respond (code : Nat) : Report k [] s [.respond code] s :=
  .message ⟨rfl, rfl, trivial⟩ (by simp)

theorem Report.send (method : Method) : Report k [] s [.send method] s :=
  .message ⟨rfl, rfl, trivial⟩ (by simp)

/-- Only the session changes. -/
theorem Report.session {f : Inv → Inv} (hclean : ∀ e ∈ es, e.Clean)
    (hkept : .destroyDialog ∉ es) (hacks : es.filterMap Event.acked = as) (htold : Told s.inv.state es (f s.inv).state)
    (hinvite : k ≠ 0 → (f s.inv).inviteTsx = s.inv.inviteTsx) :
    Report k as s es (s.withInv f) where
  clean := hclean
  acks := hacks
  told := htold
  freed := by
    rw [List.count_eq_zero.mpr hkept, Nat.zero_add]
    rfl
  loaded := rfl
  length := Nat.le_refl _
  inviteTsx := hinvite
  others _ x _ hx := ⟨x.timeoutTimer, hx⟩

theorem Report.over (hs : s.inv.state ≠ .disconnected) (c : Nat) :
    Report k [] s [.stateChanged .disconnected, .destroySession] (s.over c) where
  clean := by simp [Event.Clean]
  acks := rfl
  told := .over hs
  freed := by simp [State.gone, State.over]
  loaded := rfl
  length := Nat.le_refl _
  inviteTsx _ := rfl
  others _ x _ hx := ⟨x.timeoutTimer, hx⟩

theorem Report.withTsx (f : Tsx → Tsx) : Report k [] s [] (s.withTsx k f) where
  clean := by simp
  acks := rfl
  told := .nil
  freed := Nat.zero_add _
  loaded := rfl
  length := by simp [State.withTsx]
  inviteTsx _ := rfl
  others j x hj hx := ⟨x.timeoutTimer, by rw [State.withTsx_get_other hj.symm, hx]⟩

theorem Report.withTimer (i : Nat) (c : Bool) :
    Report k [] s [] (s.withTsx i fun t => { t with timeoutTimer := c }) where
  clean := by simp
  acks := rfl
  told := .nil
  freed := Nat.zero_add _
  loaded := rfl
  length := by simp [State.withTsx]
  inviteTsx _ := rfl
  others j x _ hx := by
    by_cases hj : i = j
    · subst hj
      exact ⟨c, State.withTsx_get hx⟩
    · exact ⟨x.timeoutTimer, by rw [State.withTsx_get_other hj, hx]⟩

theorem Report.detach : Report k [] s [] (s.detach k) where
  clean := by simp
  acks := rfl
  told := .nil
  freed := Nat.zero_add _
  loaded := rfl
  length := by simp [State.detach]
  inviteTsx _ := rfl
  others j x hj hx := ⟨x.timeoutTimer, by
    rw [State.detach, List.getElem?_modify_ne _ _ hj.symm, hx]⟩

theorem Report.append (x : Tsx) : Report k [] s [] (s.append x) where
  clean := by simp
  acks := rfl
  told := .nil
  freed := Nat.zero_add _
  loaded := rfl
  length := by simp [State.append]
  inviteTsx _ := rfl
  others j y _ hy := ⟨y.timeoutTimer, by
    have hj : j < s.tsxs.length := (List.getElem?_eq_some_iff.mp hy).choose
    rw [State.append, List.getElem?_append_left hj, hy]⟩

/-- Locks are taken and given back around a report. -/
theorem Report.locked (h : Report k as s.lock es u) (hu : u.destroyed = false) :
    Report k as s (es ++ u.unlock.settling) u.unlock.settle where
  clean e he := by
    obtain he | he := List.mem_append.mp he
    · exact h.clean e he
    · rw [State.settling] at he
      split at he <;> simp_all [Event.Clean]
  acks := by
    rw [List.filterMap_append, h.acks, State.settling]
    split <;> simp [Event.acked]
  told := by
    rw [State.settle_inv, State.unlock_inv]
    refine h.told.trans (.quiet fun e he => ?_)
    rw [State.settling] at he
    split at he <;> simp_all [Event.announced]
  freed := by
    have hfreed : es.count .destroyDialog + s.destroyed.toNat = 0 := by
      simpa [State.gone, hu] using h.freed
    rw [List.count_append, State.settling, State.settle]
    split
    · rw [List.count_singleton_self, State.gone, State.gone]
      show _ = 1
      omega
    · simpa [State.gone, hu] using hfreed
  loaded := by simpa using h.loaded
  length := by simpa using h.length
  inviteTsx := by simpa using h.inviteTsx
  others := by simpa using h.others

theorem Followed.after {b : List Nat} {n : Nat} {x : Tsx} (hbefore : Report k as s es t)
    (h : Followed b n k bs x t fs u) : Followed b n k (as ++ bs) x s (es ++ fs) u :=
  ⟨h.coherent, hbefore.trans h.report, h.own⟩

theorem returns_tsxSetState_of {notify : Notify} {b : List Nat} {n : Nat} {x : Tsx}
    {st : TsxState} {source : Source} (ht : s.tsxs[k]? = some x)
    (hle : x.state.rank ≤ st.rank)
    (hnotify : Returns (notify k source) (s.withTsx k fun t => { t with state := st })
      fun es _ u => Followed b n k as { x with state := st }
        (s.withTsx k fun t => { t with state := st }) es u) :
    Returns (tsxSetState notify k st source) s fun es _ u =>
      Followed b n k as { x with state := st } s es u := by
  simp only [tsxSetState, returns_bind, returns_tsx ht, returns_pjAssert, returns_updateTsx,
    decide_eq_true hle, true_and]
  refine hnotify.mono fun es _ u hu => ?_
  obtain ⟨v, hv, hvok, hown⟩ := hu.own
  have hreport := (Report.withTsx (s := s) (k := k) fun t => { t with state := st }).trans hu.report
  simp only [List.nil_append] at hreport ⊢
  simp only [returns_ite, returns_updateTsx, returns_pure, List.append_nil]
  split
  · refine ⟨hu.coherent.withTimer k true, ?_, _, State.withTsx_get hv, hvok, fun hst => ?_⟩
    · simpa using hreport.trans (Report.withTsx fun t => { t with timeoutTimer := true })
    · obtain ⟨c, rfl⟩ := hown hst
      exact ⟨true, rfl⟩
  · exact ⟨hu.coherent, hreport, v, hv, hvok, hown⟩

/-- After its report a transaction that is over is given up. -/
theorem returns_pjsipDlgOnTsxState {env : Env} {notify : Notify} {b : List Nat} {n : Nat}
    {x : Tsx} {source : Source} (hd : s.destroyed = false) (hattached : x.attached = true)
    (hsession : Returns (modInvOnTsxState env notify k source) s.lock fun es _ u =>
      Coherent (k :: b) (n + 1) u ∧ Report k as s.lock es u ∧
        (∃ v, u.tsxs[k]? = some v ∧ (v.Ok ∨ v.Ended) ∧
          (x.state ≠ .trying → ∃ c, v = { x with timeoutTimer := c }) ∧
          (k = 0 → Phase (if v.state = .terminated ∧ v.attached = true then u.detach 0 else u)))) :
    Returns (pjsipDlgOnTsxState env notify k source) s fun es _ u =>
      Followed b n k as x s es u := by
  suffices hbody : Returns (pjsipDlgOnTsxState env notify k source) s fun es _ u =>
      Coherent b n u ∧ Report k as s es u ∧ ∃ v, u.tsxs[k]? = some v ∧ v.Ok ∧
        (x.state ≠ .trying → ∃ c,
          v = { x with attached := decide (x.state ≠ .terminated), timeoutTimer := c }) from
    hbody.mono fun es _ u hu => ⟨hu.1, hu.2.1, hu.2.2⟩
  refine returns_locked_of hd ?_
  simp only [returns_bind]
  refine hsession.mono fun es _ u hu => ?_
  obtain ⟨hcoherent, hreport, v, hv, hvok, hown, hphase⟩ := hu
  simp only [returns_tsx hv, returns_ite, returns_bind, returns_get, returns_pjAssert,
    returns_update, returns_updateTsx, returns_pure]
  split
  · rename_i hover
    have hend : v.Ended := hvok.resolve_left fun h' => by simp [Tsx.Ok, hover] at h'
    have hcount : 0 < u.tsxCount := by
      rw [hcoherent.attached, List.countP_pos_iff]
      exact ⟨v, List.mem_of_getElem? hv, hover.2⟩
    have hdetached := hreport.trans (.detach (k := k))
    have hdetach : State.withTsx k (fun t => { t with attached := false })
        { u with tsxCount := u.tsxCount - 1 } = u.detach k := rfl
    rw [hdetach]
    refine ⟨by simpa using hcount, ?_, ?_, { v with attached := false }, ?_, hend.detached, ?_⟩
    · refine hcoherent.detach hv hend fun hk => ?_
      have hphase' := hphase hk
      rw [if_pos hover] at hphase'
      rwa [hk]
    · simpa using hdetached.locked hcoherent.alive
    · simp [State.detach, hv]
    · intro hst
      obtain ⟨c, rfl⟩ := hown hst
      have hterminated : x.state = .terminated := hover.1
      exact ⟨c, by simp [hterminated]⟩
  · rename_i hgoes
    have hlive : v.Ok := hvok.resolve_right fun h' => hgoes ⟨h'.1, h'.2.2⟩
    refine ⟨hcoherent.reported hv hlive fun hk => ?_, ?_, v, by simpa using hv, hlive,
      fun hst => ?_⟩
    · simpa [hgoes] using hphase hk
    · simpa using hreport.locked hcoherent.alive
    · obtain ⟨c, rfl⟩ := hown hst
      refine ⟨c, ?_⟩
      simp only [hattached, and_true] at hgoes
      simp [hgoes, hattached]

end Report

end SimpleSipClient.Call
