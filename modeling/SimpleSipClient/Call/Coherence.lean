import SimpleSipClient.Call.Step

/-! # What holds of a call between two inputs

The dialog's two counters say who still holds it: the session is counted once until it is over,
and every lock and every attached transaction is counted. The invariant is stated with the locks
that are held, and with the transactions whose changes are being reported: these need not have
been given up yet where they are over.
-/

namespace SimpleSipClient.Call

open Foundation
open MediaClient (InvState)

/-- No memory that is gone is used, and no assertion fails. -/
def Event.Clean : Event → Prop
  | .useDestroyed | .outOfRange | .unsetTdata | .assertion _ => False
  | _ => True

def Tsx.Ok (t : Tsx) : Prop :=
  match t.state with
  | .calling => t.role = .uac ∧ t.statusCode = 0 ∧ t.attached = true
  | .trying => t.role = .uas ∧ t.statusCode = 0 ∧ t.attached = true
  | .proceeding =>
      t.role = .uac ∧ 100 ≤ t.statusCode ∧ t.statusCode < 200 ∧ t.attached = true
  | .completed =>
      200 ≤ t.statusCode ∧ (t.method = .invite → 300 ≤ t.statusCode) ∧ t.attached = true
  | .terminated | .destroyed => 200 ≤ t.statusCode ∧ t.attached = false
  | .null | .confirmed => False

/-- Over, but not given up yet. -/
def Tsx.Ended (t : Tsx) : Prop :=
  t.state = .terminated ∧ 200 ≤ t.statusCode ∧ t.attached = true

/-- The session and its INVITE. -/
def Phase (s : State) : Prop :=
  match s.inv.state with
  | .null => s.tsxs = [] ∧ s.inv.inviteTsx = none ∧ s.inv.lastAck = none
  | .calling =>
      s.inv.inviteTsx = some 0 ∧ s.inv.lastAck = none ∧
        ∃ t, s.tsxs[0]? = some t ∧ (t.state = .calling ∨ t.state = .proceeding)
  | .early =>
      s.inv.inviteTsx = some 0 ∧ s.inv.lastAck = none ∧
        ∃ t, s.tsxs[0]? = some t ∧ t.state = .proceeding
  | .connecting | .confirmed =>
      s.inv.inviteTsx = none ∧ s.inv.lastAck = some 0 ∧
        ∃ t, s.tsxs[0]? = some t ∧ t.attached = false
  | .disconnected => (s.inv.inviteTsx = none ∨ s.inv.inviteTsx = some 0) ∧
      (s.inv.lastAck = none ∨ s.inv.lastAck = some 0) ∧ s.tsxs ≠ []

structure Coherent (busy : List Nat) (locks : Nat) (s : State) : Prop where
  counted : s.sessCount = locks + if s.inv.state = .disconnected then 0 else 1
  attached : s.tsxCount = s.tsxs.countP Tsx.attached
  destroyed : s.destroyed = true ↔ s.Free
  refCnt : s.inv.refCnt = if s.inv.state = .disconnected then none else some 1
  notify : s.inv.notify = true
  pendingCancel : s.inv.pendingCancel = false
  loaded : s.inv.state ≠ .disconnected → s.loaded = true
  ok : ∀ (k : Nat) (t : Tsx), s.tsxs[k]? = some t → k ∉ busy → t.Ok
  methods : ∀ (k : Nat) (t : Tsx), s.tsxs[k]? = some t → (t.method = .invite ↔ k = 0)
  uas : ∀ (k : Nat) (t : Tsx), s.tsxs[k]? = some t → t.role = .uas → t.method = .bye
  phase : 0 ∉ busy → Phase s

theorem coherent_created : Coherent [] 0 created where
  counted := rfl
  attached := rfl
  destroyed := by simp [created, State.Free]
  refCnt := rfl
  notify := rfl
  pendingCancel := rfl
  loaded _ := rfl
  ok := by simp [created]
  methods := by simp [created]
  uas := by simp [created]
  phase _ := ⟨rfl, rfl, rfl⟩

/-! ## Locks -/

section Locks

variable {α : Type} {b : List Nat} {n : Nat} {s : State}

theorem Coherent.free_iff (h : Coherent b n s) :
    s.Free ↔ n = 0 ∧ s.inv.state = .disconnected ∧ s.tsxCount = 0 := by
  have hcount := h.counted
  unfold State.Free
  split at hcount <;> simp_all

theorem Coherent.alive (h : Coherent b (n + 1) s) : s.destroyed = false := by
  rw [Bool.eq_false_iff]
  intro hd
  have hfree := h.free_iff.mp (h.destroyed.mp hd)
  omega

theorem Coherent.alive_of_active (h : Coherent b n s) (hs : s.inv.state ≠ .disconnected) :
    s.destroyed = false := by
  rw [Bool.eq_false_iff]
  intro hd
  exact hs (h.free_iff.mp (h.destroyed.mp hd)).2.1

theorem Coherent.alive_of_attached (h : Coherent b n s) {k : Nat} {t : Tsx}
    (hk : s.tsxs[k]? = some t) (ht : t.attached = true) : s.destroyed = false := by
  rw [Bool.eq_false_iff]
  intro hd
  have hcount := (h.destroyed.mp hd).2
  rw [h.attached, List.countP_eq_zero] at hcount
  exact hcount t (List.mem_of_getElem? hk) ht

theorem Coherent.lock (h : Coherent b n s) (hd : s.destroyed = false) :
    Coherent b (n + 1) s.lock where
  counted := by
    rw [State.lock_sessCount, h.counted, State.lock_inv]
    omega
  attached := h.attached
  destroyed := by
    rw [State.lock_destroyed, hd]
    simp [State.not_free_lock]
  refCnt := h.refCnt
  notify := h.notify
  pendingCancel := h.pendingCancel
  loaded := h.loaded
  ok := h.ok
  methods := h.methods
  uas := h.uas
  phase := h.phase

theorem Coherent.unlock (h : Coherent b (n + 1) s) : Coherent b n s.unlock.settle where
  counted := by
    rw [State.settle_sessCount, State.unlock_sessCount, h.counted, State.settle_inv,
      State.unlock_inv]
    omega
  attached := by simpa using h.attached
  destroyed := by
    have hd := h.alive
    unfold State.settle
    split
    · simpa [State.Free] using ‹s.unlock.Free›
    · simp [*]
  refCnt := by simpa using h.refCnt
  notify := by simpa using h.notify
  pendingCancel := by simpa using h.pendingCancel
  loaded := by simpa using h.loaded
  ok := by simpa using h.ok
  methods := by simpa using h.methods
  uas := by simpa using h.uas
  phase := by simpa [Phase] using h.phase

theorem Coherent.held (h : Coherent b n s) (hd : s.destroyed = false) : ¬ s.Free := by
  intro hfree
  rw [h.destroyed.mpr hfree] at hd
  cases hd

theorem returns_locked_of {x : Routine α} {post : List Event → α → State → Prop}
    (hd : s.destroyed = false)
    (hx : Returns x s.lock fun es a u =>
      Coherent b (n + 1) u ∧ post (es ++ u.unlock.settling) a u.unlock.settle) :
    Returns (locked x) s fun es a u => Coherent b n u ∧ post es a u := by
  rw [returns_locked, State.access, hd]
  refine hx.mono fun es a u hu => ⟨?_, hu.1.unlock, by simpa using hu.2⟩
  rw [hu.1.counted]
  omega

end Locks

/-! ## Changes of the session -/

def State.over (causeCode : Nat) (s : State) : State :=
  { s with
    sessCount := s.sessCount - 1
    inv := { s.inv with
      state := .disconnected
      cause := if s.inv.cause < causeCode then causeCode else s.inv.cause
      lastAck := none
      refCnt := none } }

section Session

variable {b : List Nat} {n : Nat} {s : State}

theorem Phase.inviteTsx (h : Phase s) : s.inv.inviteTsx = none ∨ s.inv.inviteTsx = some 0 := by
  unfold Phase at h
  split at h
  · exact .inl h.2.1
  · exact .inr h.1
  · exact .inr h.1
  · exact .inl h.1
  · exact .inl h.1
  · exact h.1

theorem Coherent.withInv (h : Coherent b n s) {f : Inv → Inv}
    (hstate : (f s.inv).state = .disconnected ↔ s.inv.state = .disconnected)
    (hrefCnt : (f s.inv).refCnt = s.inv.refCnt) (hnotify : (f s.inv).notify = s.inv.notify)
    (hpending : (f s.inv).pendingCancel = s.inv.pendingCancel)
    (hphase : 0 ∉ b → Phase (s.withInv f)) : Coherent b n (s.withInv f) where
  counted := by simpa [State.withInv, hstate] using h.counted
  attached := h.attached
  destroyed := h.destroyed
  refCnt := by simpa [State.withInv, hstate, hrefCnt] using h.refCnt
  notify := hnotify.trans h.notify
  pendingCancel := hpending.trans h.pendingCancel
  loaded hs := h.loaded fun h' => hs (hstate.mpr h')
  ok := h.ok
  methods := h.methods
  uas := h.uas
  phase := hphase

theorem Phase.withInv (h : Phase s) {f : Inv → Inv} (hstate : (f s.inv).state = s.inv.state)
    (hinvite : (f s.inv).inviteTsx = s.inv.inviteTsx) (hlast : (f s.inv).lastAck = s.inv.lastAck) :
    Phase (s.withInv f) := by
  have hsame : (s.withInv f).inv = f s.inv := rfl
  unfold Phase at h ⊢
  rw [hsame, hstate, hinvite, hlast]
  exact h

theorem Coherent.over (h : Coherent b (n + 1) s) (hs : s.inv.state ≠ .disconnected)
    (htsxs : s.tsxs ≠ []) (c : Nat) : Coherent b (n + 1) (s.over c) where
  counted := by
    have hcount := h.counted
    rw [if_neg hs] at hcount
    simp [State.over, hcount]
  attached := h.attached
  destroyed := by
    have hcount := h.counted
    rw [if_neg hs] at hcount
    simp [State.over, State.Free, h.alive, hcount]
  refCnt := rfl
  notify := h.notify
  pendingCancel := h.pendingCancel
  loaded hs := absurd rfl hs
  ok := h.ok
  methods := h.methods
  uas := h.uas
  phase hb := ⟨(h.phase hb).inviteTsx, .inl rfl, htsxs⟩

theorem returns_disconnect {env : Env} {notify : Notify} {c : Nat} (hc : 0 < c)
    (h : Coherent b (n + 1) s) (hs : s.inv.state ≠ .disconnected)
    {post : List Event → Unit → State → Prop} :
    Returns (disconnect env notify c) s post ↔
      post [.stateChanged .disconnected, .destroySession] () (s.over c) := by
  have hcount := h.counted
  have hrefCnt := h.refCnt
  rw [if_neg hs] at hcount hrefCnt
  have hcause : ¬ (if s.inv.cause < c then c else s.inv.cause) = 0 := by
    split <;> omega
  simp [disconnect, invSetCause, invSetState, pjsipInvDecRef, invSessionDestroy,
    pjsipDlgDecSession, useDialog, returns_locked, State.withInv, State.access, State.settling,
    State.settle, State.Free, State.lock, State.unlock, State.over, h.alive, h.notify, hs, hcause,
    hrefCnt, hcount]

end Session

/-! ## Changes of a transaction -/

def State.detach (k : Nat) (s : State) : State :=
  { s with
    tsxs := s.tsxs.modify k fun t => { t with attached := false }
    tsxCount := s.tsxCount - 1 }

def State.append (t : Tsx) (s : State) : State :=
  { s with tsxs := s.tsxs ++ [t], tsxCount := s.tsxCount + 1 }

@[simp] theorem returns_pjsipTsxCreateUac {s : State} {method : Method}
    {post : List Event → Nat → State → Prop} :
    Returns (pjsipTsxCreateUac method) s post ↔
      post [] s.tsxs.length (s.append (newTsx .uac method)) := by
  simp [pjsipTsxCreateUac, State.append]

@[simp] theorem returns_pjsipTsxCreateUas {s : State} {post : List Event → Nat → State → Prop} :
    Returns pjsipTsxCreateUas s post ↔ post [] s.tsxs.length (s.append (newTsx .uas .bye)) := by
  simp [pjsipTsxCreateUas, State.append]

@[simp] theorem State.append_get (s : State) (t : Tsx) :
    (s.append t).tsxs[s.tsxs.length]? = some t := by
  simp [State.append]

section Transactions

variable {b : List Nat} {n k : Nat} {s : State} {t : Tsx} {f : Tsx → Tsx}

@[simp] theorem State.withTsx_inv : (s.withTsx k f).inv = s.inv := rfl
@[simp] theorem State.withTsx_loaded : (s.withTsx k f).loaded = s.loaded := rfl
@[simp] theorem State.withTsx_destroyed : (s.withTsx k f).destroyed = s.destroyed := rfl
@[simp] theorem State.withTsx_tsxCount : (s.withTsx k f).tsxCount = s.tsxCount := rfl

@[simp] theorem State.withInv_tsxs {g : Inv → Inv} : (s.withInv g).tsxs = s.tsxs := rfl
@[simp] theorem State.withInv_inv {g : Inv → Inv} : (s.withInv g).inv = g s.inv := rfl
@[simp] theorem State.withInv_loaded {g : Inv → Inv} : (s.withInv g).loaded = s.loaded := rfl

theorem State.withTsx_get (h : s.tsxs[k]? = some t) : (s.withTsx k f).tsxs[k]? = some (f t) := by
  simp [State.withTsx, h]

theorem State.withTsx_get_other {j : Nat} (h : k ≠ j) :
    (s.withTsx k f).tsxs[j]? = s.tsxs[j]? :=
  List.getElem?_modify_ne f s.tsxs h

theorem Phase.withTsx (h : Phase s) (hk : k ≠ 0) : Phase (s.withTsx k f) := by
  unfold Phase at h ⊢
  rw [State.withTsx_inv, State.withTsx_get_other hk]
  split at h
  · exact ⟨by simp [State.withTsx, h.1], h.2⟩
  · exact h
  · exact h
  · exact h
  · exact h
  · exact ⟨h.1, h.2.1, by simpa [State.withTsx] using h.2.2⟩

theorem Coherent.busy (h : Coherent b n s) (k : Nat) : Coherent (k :: b) n s :=
  { h with
    ok := fun j u hu hj => h.ok j u hu fun h' => hj (List.mem_cons_of_mem k h')
    phase := fun hk => h.phase fun h' => hk (List.mem_cons_of_mem k h') }

/-- A transaction that stays attached is changed; what became of it is to be reported. -/
theorem Coherent.withTsx (h : Coherent b n s) (hb : k ∈ b) (ht : s.tsxs[k]? = some t)
    (hattached : (f t).attached = t.attached) (hmethod : (f t).method = t.method)
    (hrole : (f t).role = t.role) : Coherent b n (s.withTsx k f) where
  counted := h.counted
  attached := by
    have hcount := countP_modify (p := Tsx.attached) (f := f) ht
    rw [hattached] at hcount
    exact h.attached.trans (Nat.add_right_cancel hcount).symm
  destroyed := h.destroyed
  refCnt := h.refCnt
  notify := h.notify
  pendingCancel := h.pendingCancel
  loaded := h.loaded
  ok j u hu hj := by
    have hne : k ≠ j := fun h' => hj (h' ▸ hb)
    rw [State.withTsx_get_other hne] at hu
    exact h.ok j u hu hj
  methods j u hu := by
    obtain ⟨v, hv, rfl⟩ := entry_of_modify hu
    split
    · cases (‹k = j› ▸ ht).symm.trans hv
      rw [hmethod]
      exact h.methods j t hv
    · exact h.methods j v hv
  uas j u hu := by
    obtain ⟨v, hv, rfl⟩ := entry_of_modify hu
    split
    · cases (‹k = j› ▸ ht).symm.trans hv
      rw [hmethod, hrole]
      exact h.uas j t hv
    · exact h.uas j v hv
  phase hk := (h.phase hk).withTsx fun h' => hk (h' ▸ hb)

theorem Phase.gone (h : Phase s) (ht : s.tsxs[0]? = some t) (hstate : t.state = .terminated)
    (hf : (f t).attached = t.attached) : Phase (s.withTsx 0 f) := by
  unfold Phase at h ⊢
  rw [State.withTsx_get ht, State.withTsx_inv]
  simp only [ht, Option.some.injEq, exists_eq_left', hstate, reduceCtorEq, or_self, and_false]
    at h ⊢
  split at h
  · simp [h.1] at ht
  · exact h.elim
  · exact h.elim
  · exact ⟨h.1, h.2.1, hf.trans h.2.2⟩
  · exact ⟨h.1, h.2.1, hf.trans h.2.2⟩
  · exact ⟨h.1, h.2.1, by simpa [State.withTsx] using h.2.2⟩

/-- The change of a transaction that goes on has been reported. -/
theorem Coherent.reported (h : Coherent (k :: b) n s) (ht : s.tsxs[k]? = some t) (hok : t.Ok)
    (hphase : k = 0 → Phase s) : Coherent b n s :=
  { h with
    ok := fun j u hu hj => by
      by_cases hk : j = k
      · subst hk
        cases ht.symm.trans hu
        exact hok
      · exact h.ok j u hu (by simp [hk, hj])
    phase := fun hb => by
      by_cases hk : k = 0
      · exact hphase hk
      · exact h.phase (by simp [Ne.symm hk, hb]) }

/-- A timer says nothing about the transaction. -/
theorem Coherent.withTimer (h : Coherent b n s) (k : Nat) (c : Bool) :
    Coherent b n (s.withTsx k fun t => { t with timeoutTimer := c }) := by
  cases ht : s.tsxs[k]? with
  | none =>
      have hsame : s.withTsx k (fun t => { t with timeoutTimer := c }) = s := by
        have hlen : s.tsxs.length ≤ k := List.getElem?_eq_none_iff.mp ht
        rw [State.withTsx, List.modify_eq_self hlen]
      rwa [hsame]
  | some t =>
      have hbusy := (h.busy k).withTsx (f := fun t => { t with timeoutTimer := c })
        List.mem_cons_self ht rfl rfl rfl
      refine { hbusy with ok := fun j u hu hj => ?_, phase := fun hb => ?_ }
      · obtain ⟨v, hv, rfl⟩ := entry_of_modify hu
        split
        · exact h.ok j v hv hj
        · exact h.ok j v hv hj
      · by_cases hk : k = 0
        · subst hk
          have hphase := h.phase hb
          unfold Phase at hphase ⊢
          rw [State.withTsx_get ht, State.withTsx_inv]
          simp only [ht, Option.some.injEq, exists_eq_left'] at hphase ⊢
          split at hphase
          · exact ⟨by simp [State.withTsx, hphase.1], hphase.2⟩
          · exact hphase
          · exact hphase
          · exact hphase
          · exact hphase
          · exact ⟨hphase.1, hphase.2.1, by simpa [State.withTsx] using hphase.2.2⟩
        · exact (h.phase hb).withTsx hk

theorem Tsx.Ended.detached (h : t.Ended) : Tsx.Ok { t with attached := false } := by
  simp [Tsx.Ok, h.1, h.2.1]

/-- A transaction that is over has been reported, and is given up. -/
theorem Coherent.detach (h : Coherent (k :: b) (n + 1) s) (ht : s.tsxs[k]? = some t)
    (hend : t.Ended) (hphase : k = 0 → Phase (s.detach k)) :
    Coherent b (n + 1) (s.detach k) where
  counted := h.counted
  attached := by
    have hcount := countP_modify (p := Tsx.attached) (f := fun t => { t with attached := false }) ht
    simp only [hend.2.2, if_true, Bool.false_eq_true, if_false, Nat.add_zero] at hcount
    simp only [State.detach, h.attached, ← hcount, Nat.add_sub_cancel]
  destroyed := by
    have hcount := h.counted
    simp [State.detach, State.Free, h.alive, hcount]
  refCnt := h.refCnt
  notify := h.notify
  pendingCancel := h.pendingCancel
  loaded := h.loaded
  ok j u hu hj := by
    obtain ⟨v, hv, rfl⟩ := entry_of_modify hu
    split
    · cases (‹k = j› ▸ ht).symm.trans hv
      exact hend.detached
    · exact h.ok j v hv (by simp [Ne.symm ‹¬ k = j›, hj])
  methods j u hu := by
    obtain ⟨v, hv, rfl⟩ := entry_of_modify hu
    split <;> exact h.methods j v hv
  uas j u hu := by
    obtain ⟨v, hv, rfl⟩ := entry_of_modify hu
    split <;> exact h.uas j v hv
  phase hb := by
    by_cases hk : k = 0
    · exact hphase hk
    · exact (h.phase (by simp [Ne.symm hk, hb])).withTsx hk

theorem Phase.detach (h : Phase s) (hs : s.inv.state = .disconnected) : Phase (s.detach k) := by
  simp only [Phase, hs, State.detach] at h ⊢
  exact ⟨h.1, h.2.1, by simpa using h.2.2⟩

theorem Phase.append (h : Phase s) (hs : s.tsxs ≠ []) : Phase (s.append t) := by
  have hget : (s.append t).tsxs[0]? = s.tsxs[0]? :=
    List.getElem?_append_left (List.length_pos_iff.mpr hs)
  unfold Phase at h ⊢
  rw [hget]
  simp only [State.append]
  split at h
  · exact absurd h.1 hs
  · exact h
  · exact h
  · exact h
  · exact h
  · exact ⟨h.1, h.2.1, by simp⟩

theorem Coherent.append (h : Coherent b (n + 1) s) (hattached : t.attached = true)
    (hmethod : t.method = .invite ↔ s.tsxs = []) (huas : t.role = .uas → t.method = .bye) :
    Coherent (s.tsxs.length :: b) (n + 1) (s.append t) where
  counted := h.counted
  attached := by simp [State.append, h.attached, hattached]
  destroyed := by
    have hcount := h.counted
    simp [State.append, State.Free, h.alive]
  refCnt := h.refCnt
  notify := h.notify
  pendingCancel := h.pendingCancel
  loaded := h.loaded
  ok j u hu hj := by
    obtain hu | ⟨rfl, -⟩ := entry_of_append hu
    · exact h.ok j u hu fun h' => hj (List.mem_cons_of_mem _ h')
    · simp at hj
  methods j u hu := by
    obtain hu | ⟨rfl, rfl⟩ := entry_of_append hu
    · exact h.methods j u hu
    · rw [hmethod, List.length_eq_zero_iff]
  uas j u hu := by
    obtain hu | ⟨rfl, rfl⟩ := entry_of_append hu
    · exact h.uas j u hu
    · exact huas
  phase hk := by
    have hs : s.tsxs ≠ [] := fun h' => hk (by simp [h'])
    exact (h.phase fun h' => hk (List.mem_cons_of_mem _ h')).append hs

end Transactions

end SimpleSipClient.Call
