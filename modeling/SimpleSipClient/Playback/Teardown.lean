import SimpleSipClient.Foundation.Runs

/-! # Stop against the receiver's thread

`destroy` sets `m_brecvOver` and tears the session down at once; `run` looks at the flag at
its two loop heads only. The steps of the two threads come in any order. What the session
answers is an input. A session that is torn down answers `Poll` with an error.
-/

namespace SimpleSipClient.Teardown

open Foundation

/-- What `run` does next. `checkerror` gets the status of a `Poll`; `created` tells whether
that `Poll` found the session. -/
inductive Place where
  | beginDataAccess
  | overTest
  | poll
  | checkerror (status : Int) (created : Bool)
  | gotoFirstSource
  | getCurrentSource
  | packetTest
  | getNextPacket
  | processPacket
  | deletePacket
  | gotoNextSource
  | endDataAccess
  | returned
  | exited
  deriving DecidableEq, Repr

/-- A call on the session, and whether it finds it created; an exit with the `Poll` it
goes back to. -/
inductive Event where
  | poll (created : Bool)
  | sources (created : Bool)
  | exit (created : Bool)
  deriving DecidableEq, Repr

/-- `byePending` is set between the two steps of `destroy`. -/
structure State where
  brecvOver : Bool
  byePending : Bool
  created : Bool
  place : Place
  deriving DecidableEq, Repr

abbrev Step := Traced Event State Unit

/-- The thread has been started on a session that `init` has created. -/
def started : State where
  brecvOver := false
  byePending := false
  created := true
  place := .beginDataAccess

def goto (place : Place) : Step := do
  let s ← Traced.get
  Traced.set { s with place := place }

/-- A call on the source table. -/
def onSources (next : Place) : Step := do
  let s ← Traced.get
  Traced.emit (.sources s.created)
  goto next

/-! ## The steps -/

inductive Input where
  | setOver
  | byeDestroy
  | advance
  | polled (status : Int)
  | firstSource (found : Bool)
  | nextPacket (found : Bool)
  | nextSource (found : Bool)
  deriving DecidableEq, Repr

def checkerror (status : Int) (created : Bool) : Step :=
  if status < 0 then do
    Traced.emit (.exit created)
    goto .exited
  else goto .gotoFirstSource

/-- A step of `run` that needs no answer. -/
def advance (s : State) : Step :=
  match s.place with
  | .beginDataAccess => goto .overTest
  | .overTest => goto (if s.brecvOver then .endDataAccess else .poll)
  | .checkerror status created => checkerror status created
  | .getCurrentSource => onSources .packetTest
  | .packetTest => goto (if s.brecvOver then .gotoNextSource else .getNextPacket)
  | .processPacket => goto .deletePacket
  | .deletePacket => goto .packetTest
  | .endDataAccess => goto .returned
  | _ => pure ()

def perform : Input → Step
  | .setOver => do
      let s ← Traced.get
      Traced.set { s with brecvOver := true, byePending := true }
  | .byeDestroy => do
      let s ← Traced.get
      Traced.set { s with created := false, byePending := false }
  | .advance => do
      let s ← Traced.get
      advance s
  | .polled status => do
      let s ← Traced.get
      Traced.emit (.poll s.created)
      goto (.checkerror status s.created)
  | .firstSource found | .nextSource found =>
      onSources (if found then .getCurrentSource else .overTest)
  | .nextPacket found => onSources (if found then .processPacket else .gotoNextSource)

def Place.advances : Place → Bool
  | .poll | .gotoFirstSource | .getNextPacket | .gotoNextSource | .returned | .exited => false
  | _ => true

/-- Stop may be clicked again and again. -/
def enabled (s : State) : Input → Bool
  | .setOver => !s.byePending
  | .byeDestroy => s.byePending
  | .advance => s.place.advances
  | .polled status => s.place = .poll && (s.created || decide (status < 0))
  | .firstSource _ => s.place = .gotoFirstSource
  | .nextPacket _ => s.place = .getNextPacket
  | .nextSource _ => s.place = .gotoNextSource

/-- Nothing follows an exit. -/
def possible (s : State) (x : Input) : Bool := s.place ≠ .exited && enabled s x

/-! ## What Stop must not cause -/

/-- The session is there when it is used, and no exit goes back to its teardown. -/
def Event.onCreated : Event → Prop
  | .poll created | .sources created | .exit created => created = true

/-- The places from which `run`, once told, leaves without another call on the session. -/
def Place.clear : Place → Bool
  | .beginDataAccess | .overTest | .endDataAccess | .returned | .exited => true
  | .checkerror status _ => status < 0
  | _ => false

/-- The session is torn down while `run` is clear of it. -/
def Settled (x : Input) (s : State) : Prop :=
  x = .byeDestroy → s.created = true → s.place.clear = true

structure Parted (s : State) : Prop where
  told : s.byePending = true ∨ s.created = false → s.brecvOver = true
  clear : s.created = false → s.place.clear = true
  polled : ∀ status created, s.place = .checkerror status created → created = true

/-- `run` will come back to a session that is gone. -/
structure Doomed (s : State) : Prop where
  told : s.brecvOver = true
  gone : s.created = false
  entangled : s.place.clear = false

/-! ## One step -/

section Steps

variable {s s' : State} {p : Place}

theorem goto_run (place : Place) (s : State) :
    goto place s = ⟨[], .ok ((), { s with place := place })⟩ := by
  rw [goto, Traced.get_bind, Traced.set_run]

theorem onSources_run (next : Place) (s : State) :
    onSources next s = ⟨[.sources s.created], .ok ((), { s with place := next })⟩ := by
  rw [onSources, Traced.get_bind, Traced.emit_bind, goto_run]

theorem Parted.entangled (h : Parted s) (hplace : s.place.clear = false) : s.created = true := by
  by_contra hcreated
  rw [h.clear (by simpa using hcreated)] at hplace
  cases hplace

/-- A move to a place where the session is not in use, or while the session is there. -/
theorem Parted.goto (h : Parted s) (hclear : s.created = false → p.clear = true)
    (hpolled : ∀ status created, p = .checkerror status created → created = true) :
    Keeps Event.onCreated Parted (goto p) s :=
  keeps_get_bind (keeps_set ⟨h.told, hclear, hpolled⟩)

theorem Parted.onSources (h : Parted s) (hcreated : s.created = true)
    (hpolled : ∀ status created, p ≠ .checkerror status created) :
    Keeps Event.onCreated Parted (onSources p) s := by
  apply keeps_get_bind
  refine keeps_emit_bind ?_ (h.goto (by simp [hcreated]) ?_)
  · exact hcreated
  · exact fun status created hp => absurd hp (hpolled status created)

theorem Parted.advance (h : Parted s) : Keeps Event.onCreated Parted (advance s) s := by
  cases hplace : s.place with
  | beginDataAccess =>
      simp only [Teardown.advance, hplace]
      exact h.goto (fun _ => rfl) nofun
  | overTest =>
      simp only [Teardown.advance, hplace]
      refine h.goto (fun hgone => ?_) (by split <;> simp)
      rw [h.told (.inr hgone)]
      rfl
  | checkerror status created =>
      simp only [Teardown.advance, hplace, checkerror]
      split
      · refine keeps_emit_bind ?_ (h.goto (fun _ => rfl) nofun)
        exact h.polled status created hplace
      · have hentangled : s.place.clear = false := by
          simp [hplace, Place.clear, ‹¬ status < 0›]
        exact h.goto (by simp [h.entangled hentangled]) nofun
  | getCurrentSource =>
      simp only [Teardown.advance, hplace]
      exact h.onSources (h.entangled (by rw [hplace]; rfl)) nofun
  | packetTest =>
      simp only [Teardown.advance, hplace]
      exact h.goto (by simp [h.entangled (by rw [hplace]; rfl)]) (by split <;> simp)
  | processPacket =>
      simp only [Teardown.advance, hplace]
      exact h.goto (by simp [h.entangled (by rw [hplace]; rfl)]) nofun
  | deletePacket =>
      simp only [Teardown.advance, hplace]
      exact h.goto (by simp [h.entangled (by rw [hplace]; rfl)]) nofun
  | endDataAccess =>
      simp only [Teardown.advance, hplace]
      exact h.goto (fun _ => rfl) nofun
  | _ =>
      simp only [Teardown.advance, hplace]
      exact keeps_pure h

theorem perform_keeps {x : Input} (h : Parted s) (hx : possible s x = true) (hC : Settled x s) :
    Keeps Event.onCreated Parted (perform x) s := by
  rw [possible, Bool.and_eq_true] at hx
  rcases hx with ⟨-, hx⟩
  cases x with
  | setOver => exact keeps_get_bind (keeps_set ⟨fun _ => rfl, h.clear, h.polled⟩)
  | byeDestroy =>
      apply keeps_get_bind
      refine keeps_set ⟨fun _ => h.told (.inl hx), fun _ => ?_, h.polled⟩
      cases hcreated : s.created with
      | true => exact hC rfl hcreated
      | false => exact h.clear hcreated
  | advance => exact keeps_get_bind h.advance
  | polled status =>
      rw [enabled, Bool.and_eq_true] at hx
      have hplace : s.place = .poll := of_decide_eq_true hx.1
      have hcreated := h.entangled (by rw [hplace]; rfl)
      apply keeps_get_bind
      refine keeps_emit_bind ?_ (h.goto (by simp [hcreated]) (by simp [hcreated]))
      exact hcreated
  | firstSource found =>
      have hplace : s.place = .gotoFirstSource := of_decide_eq_true hx
      exact h.onSources (h.entangled (by rw [hplace]; rfl)) (by split <;> simp)
  | nextPacket found =>
      have hplace : s.place = .getNextPacket := of_decide_eq_true hx
      exact h.onSources (h.entangled (by rw [hplace]; rfl)) (by split <;> simp)
  | nextSource found =>
      have hplace : s.place = .gotoNextSource := of_decide_eq_true hx
      exact h.onSources (h.entangled (by rw [hplace]; rfl)) (by split <;> simp)

/-- The session goes away while `run` is still bound to come back to it. -/
theorem doomed_of_unsettled {x : Input} (h : Parted s) (hx : possible s x = true)
    (hC : ¬ Settled x s) (hs' : (perform x s).outcome = .ok ((), s')) : Doomed s' := by
  simp only [Settled, Classical.not_imp, Bool.not_eq_true] at hC
  rcases hC with ⟨rfl, -, hentangled⟩
  rw [possible, Bool.and_eq_true] at hx
  simp only [perform, Traced.get_bind, Traced.set_run, Except.ok.injEq, Prod.mk.injEq,
    true_and] at hs'
  rw [← hs']
  exact ⟨h.told (.inl hx.2), rfl, hentangled⟩

theorem Doomed.goto (h : Doomed s) (hp : p.clear = false)
    (hs' : (Teardown.goto p s).outcome = .ok ((), s')) : Doomed s' := by
  rw [goto_run, Except.ok.injEq, Prod.mk.injEq] at hs'
  rw [← hs'.2]
  exact ⟨h.told, h.gone, hp⟩

/-- A call on the source table would be a bad event. -/
theorem Doomed.not_onSources (h : Doomed s)
    (hgood : ∀ e ∈ (onSources p s).events, e.onCreated) : False := by
  rw [onSources_run] at hgood
  have hcreated : s.created = true := hgood (.sources s.created) (by simp)
  rw [h.gone] at hcreated
  cases hcreated

theorem Doomed.advance (h : Doomed s) (hgood : ∀ e ∈ (advance s s).events, e.onCreated)
    (hs' : (advance s s).outcome = .ok ((), s')) : Doomed s' := by
  have hentangled := h.entangled
  cases hplace : s.place with
  | checkerror status created =>
      simp only [hplace, Place.clear, decide_eq_false_iff_not] at hentangled
      simp only [Teardown.advance, hplace, checkerror, if_neg hentangled] at hs'
      exact h.goto rfl hs'
  | getCurrentSource =>
      simp only [Teardown.advance, hplace] at hgood
      exact (h.not_onSources hgood).elim
  | packetTest =>
      -- the inner flag test leads on to the source table all the same
      simp only [Teardown.advance, hplace, h.told, if_true] at hs'
      exact h.goto rfl hs'
  | processPacket =>
      simp only [Teardown.advance, hplace] at hs'
      exact h.goto rfl hs'
  | deletePacket =>
      simp only [Teardown.advance, hplace] at hs'
      exact h.goto rfl hs'
  | beginDataAccess => simp [hplace, Place.clear] at hentangled
  | overTest => simp [hplace, Place.clear] at hentangled
  | endDataAccess => simp [hplace, Place.clear] at hentangled
  | _ =>
      simp only [Teardown.advance, hplace] at hs'
      cases hs'
      exact h

theorem doomed_kept {x : Input} (h : Doomed s)
    (hgood : GoodStep perform Event.onCreated (fun _ => True) x s)
    (hs' : (perform x s).outcome = .ok ((), s')) : Doomed s' := by
  rcases hgood with ⟨hgood, -⟩
  cases x with
  | setOver =>
      cases hs'
      exact ⟨rfl, h.gone, h.entangled⟩
  | byeDestroy =>
      cases hs'
      exact ⟨h.told, rfl, h.entangled⟩
  | advance =>
      rw [perform, Traced.get_bind] at hgood hs'
      exact h.advance hgood hs'
  | polled status =>
      have hcreated : s.created = true :=
        hgood (.poll s.created) (by simp [perform, Traced.get_bind, Traced.emit_bind])
      rw [h.gone] at hcreated
      cases hcreated
  | firstSource found => exact (h.not_onSources hgood).elim
  | nextPacket found => exact (h.not_onSources hgood).elim
  | nextSource found => exact (h.not_onSources hgood).elim

end Steps

/-! ## Runs -/

theorem parted_started : Parted started where
  told := by simp [started]
  clear := by simp [started]
  polled := by simp [started]

/-- `run` has come back, or the program has ended. -/
def Place.done : Place → Bool
  | .returned | .exited => true
  | _ => false

/-- Stop does not reach into a session that is in use when every teardown finds `run` clear
of it, and of the runs to the end of the thread only then. -/
theorem teardown_safe (r : Run perform possible started) :
    ((∀ v ∈ r.steps, Settled v.1 v.2) → r.Safe Event.onCreated fun _ => True) ∧
      ∀ t, r.EndsIn t → t.place.done = true →
        r.Safe Event.onCreated (fun _ => True) → ∀ v ∈ r.steps, Settled v.1 v.2 := by
  have hkeeps : ∀ x s, Parted s → possible s x = true → Settled x s →
      Keeps Event.onCreated Parted (perform x) s :=
    fun x s h hx hC => perform_keeps h hx hC
  constructor
  · exact r.safe_of_condition (fun _ _ => trivial) parted_started hkeeps
  · intro t hend hover hsafe
    have hdoom : (∀ v ∈ r.steps, Settled v.1 v.2) ∨ Doomed t := by
      refine r.condition_or_trapped trivial parted_started hkeeps ?_ ?_ hsafe hend
      · exact fun x s s' h hx hC hs' => doomed_of_unsettled h hx hC hs'
      · exact fun x s s' h _ hgood hs' => doomed_kept h hgood hs'
    refine hdoom.resolve_right fun hdoomed => ?_
    have hentangled := hdoomed.entangled
    cases hplace : t.place <;> simp [hplace, Place.done, Place.clear] at hover hentangled

/-- Out of its loop, `run` has been told. -/
def Told (s : State) : Prop :=
  s.place = .endDataAccess ∨ s.place = .returned → s.brecvOver = true

theorem told_goto {s : State} {p : Place}
    (hp : p = .endDataAccess ∨ p = .returned → s.brecvOver = true) :
    Keeps (fun _ => True) Told (goto p) s :=
  keeps_get_bind (keeps_set hp)

theorem told_onSources {s : State} {p : Place}
    (hp : p = .endDataAccess ∨ p = .returned → s.brecvOver = true) :
    Keeps (fun _ => True) Told (onSources p) s :=
  keeps_get_bind (keeps_emit_bind trivial (told_goto hp))

theorem told_kept {x : Input} {s : State} (h : Told s) :
    Keeps (fun _ => True) Told (perform x) s := by
  cases x with
  | setOver => exact keeps_get_bind (keeps_set fun _ => rfl)
  | byeDestroy => exact keeps_get_bind (keeps_set h)
  | advance =>
      apply keeps_get_bind
      cases hplace : s.place with
      | overTest =>
          simp only [Teardown.advance, hplace]
          apply told_goto
          cases hover : s.brecvOver <;> simp
      | packetTest =>
          simp only [Teardown.advance, hplace]
          apply told_goto
          cases hover : s.brecvOver <;> simp
      | checkerror status created =>
          simp only [Teardown.advance, hplace, checkerror]
          split
          · exact keeps_emit_bind trivial (told_goto (by simp))
          · exact told_goto (by simp)
      | endDataAccess =>
          simp only [Teardown.advance, hplace]
          exact told_goto fun _ => h (.inl hplace)
      | getCurrentSource => simp only [Teardown.advance, hplace]; exact told_onSources (by simp)
      | beginDataAccess => simp only [Teardown.advance, hplace]; exact told_goto (by simp)
      | processPacket => simp only [Teardown.advance, hplace]; exact told_goto (by simp)
      | deletePacket => simp only [Teardown.advance, hplace]; exact told_goto (by simp)
      | _ => simp only [Teardown.advance, hplace]; exact keeps_pure h
  | polled status =>
      exact keeps_get_bind (keeps_emit_bind trivial (told_goto (by simp)))
  | firstSource found => exact told_onSources (by cases found <;> simp)
  | nextPacket found => exact told_onSources (by cases found <;> simp)
  | nextSource found => exact told_onSources (by cases found <;> simp)

/-- A thread that has left its loop was told to, in every run. -/
theorem returns_when_told (r : Run perform possible started) {s : State} (hs : r.Reached s)
    (hplace : s.place = .endDataAccess ∨ s.place = .returned) : s.brecvOver = true := by
  have htold : r.Safe (fun _ => True) Told := by
    apply r.safe_of_condition (I := Told) (C := fun _ _ => True)
    · exact fun s h => h
    · simp [Told, started]
    · exact fun x s h _ _ => told_kept h
    · exact fun v _ => trivial
  exact htold.2 s hs hplace

/-- `run` passes the flag test, the session is torn down, and its `Poll` ends the program. -/
def stopBeforePoll : Run perform possible started where
  inputs := [.advance, .advance, .setOver, .byeDestroy, .polled (-2), .advance]
  each_possible := by decide +kernel

theorem stop_before_poll_exits : ¬ stopBeforePoll.Safe Event.onCreated (fun _ => True) := by
  intro h
  have hexit : false = true := h.1 (.exit false) (by decide +kernel)
  cases hexit

end SimpleSipClient.Teardown
