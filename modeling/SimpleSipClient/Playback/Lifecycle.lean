import SimpleSipClient.Playback.Source

/-! # One receiver at a time

Play makes a receiver and forgets the one before, Stop ends the one that the pointer names.
The pointer names every thread that runs, and is never used without a receiver behind it,
exactly when no Play finds a thread running and no Stop finds what was in memory.
-/

namespace SimpleSipClient.Playback

open Foundation MediaClient

/-- The pointer is used on a receiver only, and is not set anew while its thread runs. -/
def Event.sound : Event → Prop
  | .setRecver replaced => ∀ r, replaced = some r → r.running = false
  | .useRecver recver => recver.isSome = true
  | _ => True

/-- At most one thread runs on a port, and a Stop reaches every thread that runs. -/
structure Attended (s : State) : Prop where
  at_most_one : ∀ (j k : Nat) a b, s.recvers[j]? = some a → s.recvers[k]? = some b →
    a.running = true ∧ a.bound = true → b.running = true ∧ b.bound = true → j = k
  reachable : ∀ (k : Nat) r, s.recvers[k]? = some r → r.running = true → s.rtpRecver = .recver k

/-- Play finds no thread running. Stop comes after a Play, where memory did not hold null. -/
def Timely (garbage : Bool) (x : Input) (s : State) : Prop :=
  match x with
  | .play _ _ => ∀ r ∈ s.recvers, r.running = false
  | .stop _ => garbage = true → s.recvers ≠ []
  | _ => True

/-! ## The invariant -/

structure Owned (garbage : Bool) (s : State) : Prop where
  running : ∀ (k : Nat) r, s.recvers[k]? = some r → r.running = true → s.rtpRecver = .recver k
  unset : s.recvers = [] → s.rtpRecver = if garbage then .wild else .null
  set : s.recvers ≠ [] → ∃ k, s.rtpRecver = .recver k ∧ k < s.recvers.length

section Owned

variable {garbage : Bool} {s s' : State} {r : RtpRecver}

theorem owned_found (garbage : Bool) : Owned garbage (found garbage) where
  running := by simp [found]
  unset := fun _ => rfl
  set := by simp [found]

theorem Owned.attended (h : Owned garbage s) : Attended s where
  at_most_one := by
    intro j k a b ha hb hra hrb
    have hj := h.running j a ha hra.1
    rw [h.running k b hb hrb.1, Pointer.recver.injEq] at hj
    exact hj.symm
  reachable := h.running

theorem Owned.same (h : Owned garbage s) (hptr : s'.rtpRecver = s.rtpRecver)
    (hrecvers : s'.recvers = s.recvers) : Owned garbage s' where
  running := by rw [hptr, hrecvers]; exact h.running
  unset := by rw [hptr, hrecvers]; exact h.unset
  set := by rw [hptr, hrecvers]; exact h.set

/-- A receiver that starts no thread. -/
theorem Owned.modify (h : Owned garbage s) (k : Nat) {f : RtpRecver → RtpRecver}
    (hf : ∀ r, (f r).running = true → r.running = true) :
    Owned garbage { s with recvers := s.recvers.modify k f } where
  running := by
    intro j r hr hrunning
    rcases entry_of_modify hr with ⟨x, hx, rfl⟩
    apply h.running j x hx
    split at hrunning
    · exact hf x hrunning
    · exact hrunning
  unset := by simpa using h.unset
  set := by simpa using h.set

theorem Owned.withTarget (h : Owned garbage s) {f : RtpRecver → RtpRecver}
    (hf : ∀ r, (f r).running = true → r.running = true) : Owned garbage (s.withTarget f) := by
  rw [State.withTarget]
  split
  · exact h.modify _ hf
  · exact h

/-- The pointer names a receiver once there is one. -/
theorem Owned.target (h : Owned garbage s) (hne : s.recvers ≠ []) : ∃ r, s.target = some r := by
  rcases h.set hne with ⟨k, hptr, hk⟩
  exact ⟨s.recvers[k], by simp [State.target, hptr, hk]⟩

theorem Owned.target_running (h : Owned garbage s) (hr : r ∈ s.recvers)
    (hrunning : r.running = true) : s.target = some r := by
  rcases List.mem_iff_getElem?.mp hr with ⟨k, hk⟩
  rw [State.target, h.running k r hk hrunning]
  exact hk

end Owned

/-! ## The parts of the slots -/

section Parts

variable {garbage : Bool} {s : State} {r : RtpRecver} {f : RtpRecver → RtpRecver}

theorem target_withTarget (hs : s.target = some r) : (s.withTarget f).target = some (f r) := by
  rw [State.target] at hs
  rw [State.withTarget]
  split at hs
  · simp_all [State.target]
  · cases hs

theorem withRecver_run (hs : s.target = some r) :
    withRecver f s = ⟨[.useRecver (some r)], .ok ((), s.withTarget f)⟩ := by
  simp [withRecver, useRecver, Traced.bind_run, hs]

theorem withRecver_none (hs : s.target = none) :
    withRecver f s = ⟨[.useRecver none], .error .invalid⟩ := by
  simp [withRecver, useRecver, Traced.bind_run, hs]

theorem keeps_withRecver {I : State → Prop} {g : Unit → Slot Unit} (hs : s.target = some r)
    (hg : Keeps Event.sound I (g ()) (s.withTarget f)) :
    Keeps Event.sound I (withRecver f >>= g) s := by
  apply keeps_bind (J := fun t => t = s.withTarget f)
  · rw [Keeps, withRecver_run hs]
    exact ⟨by simp [Event.sound], fun t ht => by cases ht; rfl⟩
  · rintro t rfl
    exact hg

/-- The SIP calls leave the receivers alone. -/
theorem keeps_inClient (x : Client Unit) (h : Owned garbage s) :
    Keeps Event.sound (Owned garbage) (inClient x) s := by
  rw [Keeps, inClient, Traced.zoom]
  refine ⟨fun e he => ?_, fun s' hs' => ?_⟩
  · rcases List.mem_map.mp he with ⟨e', -, rfl⟩
    trivial
  · split at hs'
    · cases hs'
      exact h.same rfl rfl
    · cases hs'

def State.created (s : State) : State :=
  { s with
    rtpRecver := .recver s.recvers.length
    recvers := s.recvers ++ [{ running := false, brecvOver := false, bound := false }] }

theorem target_created (s : State) : s.created.target = some ⟨false, false, false⟩ := by
  simp [State.target, State.created]

def State.played (s : State) : State :=
  { s with
    rtpRecver := .recver s.recvers.length
    recvers := s.recvers ++ [{ running := true, brecvOver := false, bound := true }] }

theorem played_eq (s : State) :
    (s.created.withTarget fun r => { r with bound := true }).withTarget
      (fun r => { r with running := true }) = s.played := by
  simp [State.withTarget, State.created, State.played, modify_last]

theorem owned_played (hnone : ∀ r ∈ s.recvers, r.running = false) : Owned garbage s.played where
  running := by
    intro k r hr hrunning
    rcases entry_of_append hr with hr | ⟨rfl, -⟩
    · rw [hnone r (List.mem_of_getElem? hr)] at hrunning
      cases hrunning
    · rfl
  unset := by simp [State.played]
  set := fun _ => ⟨s.recvers.length, rfl, by simp [State.played]⟩

end Parts

/-! ## One input -/

section Steps

variable {garbage : Bool} {s : State}

/-- A receiver is set up and takes over, then comes the INVITE. -/
theorem keeps_play (create : Bool) (o : InviteOutcome)
    (hnone : ∀ r ∈ s.recvers, r.running = false) :
    Keeps Event.sound (Owned garbage) (onPlay create o) s := by
  have htarget : ∀ r, s.target = some r → r.running = false := by
    intro r hr
    rw [State.target] at hr
    split at hr
    · exact hnone r (List.mem_of_getElem? hr)
    · cases hr
  apply keeps_bind (J := fun t => t = s.created)
  · apply keeps_get_bind
    apply keeps_emit_bind htarget
    exact keeps_set rfl
  · rintro t rfl
    cases create with
    | false =>
        apply keeps_bind (J := fun _ => False)
        · exact keeps_emit_bind trivial (keeps_halt _)
        · exact fun _ h => h.elim
    | true =>
        apply keeps_withRecver (target_created s)
        apply keeps_withRecver (target_withTarget (target_created s))
        rw [played_eq]
        exact keeps_inClient _ (owned_played hnone)

/-- The receiver is told to end, then comes the BYE. -/
theorem keeps_stop (o : ByeOutcome) (h : Owned garbage s)
    (hplayed : garbage = true → s.recvers ≠ []) :
    Keeps Event.sound (Owned garbage) (onStop o) s := by
  apply keeps_get_bind
  by_cases hne : s.recvers = []
  · have hnull : s.rtpRecver = .null := by
      have hgarbage : ¬ garbage = true := fun hg => hplayed hg hne
      rw [h.unset hne, if_neg hgarbage]
    rw [if_neg (by simp [hnull])]
    exact keeps_inClient _ h
  · rcases h.target hne with ⟨r, hr⟩
    have hptr : s.rtpRecver ≠ .null := by
      intro hnull
      simp [State.target, hnull] at hr
    rw [if_pos hptr]
    apply keeps_withRecver hr
    apply keeps_withRecver (target_withTarget hr)
    apply keeps_inClient
    refine Owned.withTarget (Owned.withTarget h ?_) ?_ <;> exact fun _ hr => hr

theorem perform_keeps {x : Input} (h : Owned garbage s) (hx : Timely garbage x s) :
    Keeps Event.sound (Owned garbage) (perform x) s := by
  cases x with
  | play create o => exact keeps_play create o hx
  | stop o => exact keeps_stop o h hx
  | remote k e => exact keeps_inClient _ h
  | finished k =>
      apply keeps_get_bind
      exact keeps_set (h.modify k fun r hr => by simp at hr)

/-- A Play over a running thread, and a Stop with what was found in memory. -/
theorem untimely_bad {x : Input} (h : Owned garbage s) (hx : ¬ Timely garbage x s) :
    ¬ GoodStep perform Event.sound Attended x s := by
  rintro ⟨hsound, -⟩
  cases x with
  | play create o =>
      simp only [Timely, not_forall, Bool.not_eq_false] at hx
      rcases hx with ⟨r, hr, hrunning⟩
      have hset : Event.sound (.setRecver s.target) :=
        hsound _ (mem_events_bind (by simp [newRtpRecver, Traced.bind_run]))
      rw [hset r (h.target_running hr hrunning)] at hrunning
      cases hrunning
  | stop o =>
      simp only [Timely, ne_eq, Classical.not_imp, not_not] at hx
      rcases hx with ⟨hgarbage, hnil⟩
      have hwild : s.rtpRecver = .wild := by rw [h.unset hnil, if_pos hgarbage]
      have hdestroy : destroy s = ⟨[.useRecver none], .error .invalid⟩ :=
        withRecver_none (by rw [State.target, hwild])
      have huse : Event.sound (.useRecver none) := by
        apply hsound
        rw [perform, onStop, Traced.get_bind, if_pos (by simp [hwild])]
        exact mem_events_bind (by simp [hdestroy])
      cases huse
  | remote k e => exact hx trivial
  | finished k => exact hx trivial

end Steps

/-! ## Runs -/

/-- The receiver is used, replaced and reached as it should be exactly when every click is
timely. -/
theorem lifecycle_safe_iff (garbage : Bool) (r : Run perform possible (found garbage)) :
    r.Safe Event.sound Attended ↔ ∀ v ∈ r.steps, Timely garbage v.1 v.2 := by
  apply r.safe_iff_condition (I := Owned garbage)
  · exact fun s h => h.attended
  · exact owned_found garbage
  · exact fun x s h _ hx => perform_keeps h hx
  · exact fun x s h _ hx => untimely_bad h hx

/-- Stop is the first click. -/
def stopFirst : Run perform possible (found true) where
  inputs := [.stop ⟨true, true, .sent⟩]
  each_possible := by decide +kernel

/-- Play is clicked while a receiver runs. -/
def playTwice (garbage : Bool) : Run perform possible (found garbage) where
  inputs := [.play true ⟨true, true, true, true, .sent⟩, .play true ⟨true, true, true, true, .sent⟩]
  each_possible := by cases garbage <;> decide +kernel

theorem stop_first_play_twice : ¬ stopFirst.Safe Event.sound Attended ∧
    ∀ garbage, ¬ (playTwice garbage).Safe Event.sound Attended := by
  refine ⟨fun h => ?_, fun garbage h => ?_⟩
  · have huse : Event.sound (.useRecver none) := h.1 _ (by decide +kernel)
    cases huse
  · have hset : Event.sound (.setRecver (some ⟨true, false, true⟩)) :=
      h.1 _ (by cases garbage <;> decide +kernel)
    cases hset _ rfl

end SimpleSipClient.Playback
