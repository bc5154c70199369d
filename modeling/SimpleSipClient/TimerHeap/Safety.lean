import SimpleSipClient.TimerHeap.Refine

/-! # Runs of the timer heap

An entry has to be there, and it must not be scheduled twice. Then every run returns, is a run of
the timer set, and leaves the heap in order.
-/

namespace SimpleSipClient.TimerHeap

open Foundation

def Condition : Input → State → Prop
  | .schedule e _ _ _ _, s => ∃ x, s.entries[e]? = some x ∧ x.timerId < 1
  | .cancel e, s => e < s.entries.length
  | .cancelIfActive e _, s => e < s.entries.length
  | .earliestTime, s => 0 < s.curSize
  | _, _ => True

section Steps

variable {s : State}

theorem linked_created (size : Nat) :
    FreeList (created size) (List.range' 1 (size + 1)) where
  linked := by
    have hnext : ∀ i, 1 ≤ i → i < 1 + (size + 1) → (created size).nextFree i = i + 1 := by
      intro i hlow hhigh
      have hlt : i < size + 2 := by omega
      simp [State.nextFree, created, unused, hlt]
    have hlinked := linked_range' hnext
    rwa [show 1 + (size + 1) = size + 2 by omega] at hlinked
  nodup := List.nodup_range'
  inside id hid := by
    have hin := List.mem_range'_1.mp hid
    simp only [created]
    omega
  unused id _ e x hx := by
    have hentry := hx.entry
    simp [created] at hentry

theorem intact_created (size : Nat) : Intact (created size) := by
  have hno : ∀ {e : Nat} {x : Entry}, (created size).entries[e]? = some x → False := by
    intro e x hx
    simp [created] at hx
  refine ⟨⟨⟨?_, ?_, fun _ _ hx => (hno hx).elim, fun _ _ _ _ hx => (hno hx.entry).elim,
    fun _ _ hx => (hno hx.entry).elim, rfl, _, linked_created size, ?_⟩, ⟨fun i hi => ?_,
    fun _ _ hx => (hno hx.entry).elim⟩, fun i _ hi => ?_⟩, ?_, fun _ _ hx => (hno hx).elim,
    fun _ hp => ?_⟩
  · simp [created]
  · simp [created, unused]
  · simp only [List.length_range', created]
  · exact absurd hi (Nat.not_lt_zero i)
  · exact absurd hi (Nat.not_lt_zero i)
  · simp only [created]
    omega
  · cases hp

def State.withEntry (s : State) (id : Int) : State :=
  { s with entries := s.entries ++ [{
      id := id
      timerId := -1
      timerValue := { sec := 0, msec := 0 }
      grpLock := none }] }

/-- A step that meets its condition is one of the timer set. -/
theorem refines_step (x : Input) (s : State) (h : Intact s) (hp : possible s x = true)
    (hC : Condition x s) : Returns (perform x) s fun es _ t =>
      (∀ e ∈ es, e.Good) ∧ Intact t ∧ s.timers.Step x es t.timers := by
  cases x with
  | entryInit id =>
      simp only [perform, pjTimerEntryInit, returns_update]
      have halike := alike_of_append (s := s) (t := s.withEntry id) h.settled.numbered rfl rfl rfl
        rfl rfl rfl
      have hsame : (s.withEntry id).timers = s.timers := by
        rw [State.timers, pending_append (s := s) rfl rfl]
        rfl
      refine ⟨by simp, h.alike halike rfl (fun e y hy hno => ?_) h.clock, ?_⟩
      · obtain hy | ⟨-, rfl⟩ := entry_of_append hy
        · exact h.unlocked hy hno
        · rfl
      · have hstep : s.timers.Step (.entryInit id) [] (s.withEntry id).timers := by
          rw [hsame]
          exact .entryInit _ id
        exact hstep
  | schedule e tick delay idVal g =>
      obtain ⟨x, hx, hun⟩ := hC
      exact returns_scheduleWGrpLock h hx hun tick delay
  | cancel e => exact returns_cancelTimer h (List.getElem?_eq_getElem hC) (.inl rfl)
  | cancelIfActive e idVal =>
      exact returns_cancelTimer h (List.getElem?_eq_getElem hC) (.inr ⟨idVal, rfl⟩)
  | poll now nextDelay =>
      simp only [possible, Bool.and_eq_true, Option.isNone_iff_eq_none] at hp
      exact returns_pjTimerHeapPoll h hp.1 hp.2
  | callbackReturned =>
      obtain ⟨p, hpoll⟩ := Option.isSome_iff_exists.mp hp
      exact returns_callbackReturned h hpoll
  | count =>
      rw [perform, pjTimerHeapCount, returns_bind, returns_get, returns_emit]
      have hstep := Timers.Step.count s.timers
      have hcard : {e | s.timers.pending e ≠ none}.ncard = s.curSize :=
        ncard_pending h.settled.numbered
      rw [hcard] at hstep
      exact ⟨by simp [Event.Good], h, hstep⟩
  | earliestTime =>
      obtain ⟨e, x, hx, hnext⟩ := h.settled.next hC
      have hnormal := h.settled.numbered.normal hx.toScheduled
      rw [perform, pjTimerHeapEarliestTime, returns_bind, returns_get, returns_bind,
        returns_pjAssert]
      refine ⟨decide_eq_true (Nat.ne_of_gt hC), ?_⟩
      rw [returns_bind, returns_valueAt hx.slot hx.entry, returns_emit]
      have hstep := Timers.Step.earliestTime (m := s.timers) hnext
      rw [← hnormal.eq_ofMsecs] at hstep
      exact ⟨by simp [Event.Good], h, hstep⟩
  | setMaxTimedOutPerPoll count =>
      simp only [perform, pjTimerHeapSetMaxTimedOutPerPoll, returns_update]
      exact ⟨by simp, h.alike (alike_of_entries h.settled.numbered rfl rfl rfl rfl rfl) rfl
        h.unlocked h.clock, .setMaxTimedOutPerPoll s.timers count⟩

theorem needs_step (x : Input) (s : State) (_ : Intact s) (_ : possible s x = true)
    (hgood : Returns (perform x) s fun es _ _ => ∀ e ∈ es, e.Good) : Condition x s := by
  have hentry : ∀ {α : Type} {e : Nat} {f : Entry → Routine α} {post},
      Returns (entryAt e >>= f) s post → ∃ x, s.entries[e]? = some x := by
    intro α e f post h
    cases hx : s.entries[e]? with
    | none => simp [entryAt, hx] at h
    | some x => exact ⟨x, rfl⟩
  have hcancel : ∀ {e : Nat} {d : Bool} {idVal : Option Int} {post},
      Returns (cancelTimer e d idVal) s post → e < s.entries.length := by
    intro e d idVal post h
    rw [cancelTimer, cancel, returns_bind, returns_bind, returns_get] at h
    obtain ⟨x, hx⟩ := hentry h
    exact (List.getElem?_eq_some_iff.mp hx).1
  cases x with
  | entryInit | poll | callbackReturned | count | setMaxTimedOutPerPoll => trivial
  | schedule e tick delay idVal g =>
      obtain ⟨x, hx⟩ := hentry hgood
      rw [perform, scheduleWGrpLock, returns_bind, returns_entryAt hx, returns_bind,
        returns_pjAssert] at hgood
      exact ⟨x, hx, of_decide_eq_true hgood.1⟩
  | cancel e => exact hcancel hgood
  | cancelIfActive e idVal => exact hcancel hgood
  | earliestTime =>
      rw [perform, pjTimerHeapEarliestTime, returns_bind, returns_get, returns_bind,
        returns_pjAssert] at hgood
      have hne := of_decide_eq_true hgood.1
      exact Nat.pos_of_ne_zero hne

end Steps

/-! ## Runs -/

section Runs

variable {size : Nat}

theorem good_step (x : Input) (s : State) (h : Intact s) (hp : possible s x = true)
    (hC : Condition x s) :
    Returns (perform x) s fun es _ t => (∀ e ∈ es, e.Good) ∧ Intact t :=
  (refines_step x s h hp hC).mono fun _ _ _ ht => ⟨ht.1, ht.2.1⟩

theorem abstract_step (x : Input) (s : State) (h : Intact s) (hp : possible s x = true)
    (hC : Condition x s) :
    Returns (perform x) s fun es _ t => Intact t ∧ s.timers.Step x es t.timers :=
  (refines_step x s h hp hC).mono fun _ _ _ ht => ht.2

theorem completes_iff_conditions (r : Run perform possible (created size)) :
    r.Completes Event.Good ↔ ∀ v ∈ r.steps, Condition v.1 v.2 :=
  r.completes_iff_condition (intact_created size) good_step needs_step

variable {r : Run perform possible (created size)}

theorem conditions_of_completes (hgood : r.Completes Event.Good) :
    ∀ v ∈ r.steps, Condition v.1 v.2 :=
  (r.completes_iff_condition (intact_created size) good_step needs_step).mp hgood

theorem intact_of_completes (hgood : r.Completes Event.Good) {s : State} (hs : r.Reached s) :
    Intact s := by
  have hsafe : r.Safe Event.Good Intact := r.safe_of_condition (fun _ h => h)
    (intact_created size) (fun x s h hp hC => keeps_of_returns (good_step x s h hp hC))
    (conditions_of_completes hgood)
  exact hsafe.2 s hs

theorem path_of_completes (hgood : r.Completes Event.Good) {t : State} (ht : r.EndsIn t) :
    Path Timers.Step (created size).timers r.inputs r.events t.timers :=
  r.refines abstract_step (intact_created size) (conditions_of_completes hgood) ht

theorem created_pending (size e : Nat) : (created size).pending e = none := by
  simp [State.pending, created]

theorem created_finite (size : Nat) : (created size).timers.Finite := by
  have hempty : {e | (created size).pending e ≠ none} = ∅ := by
    ext e
    simp [created_pending]
  unfold Timers.Finite
  rw [show (created size).timers.pending = (created size).pending from rfl, hempty]
  exact Set.finite_empty

/-- What the input has a poll go by. -/
def pollTime : Input → State → Option TimeVal
  | .poll now _, _ => some now
  | .callbackReturned, s => s.poll.map Poll.now
  | _, _ => none

/-- An entry that is called back is one that waits, and it is due. -/
theorem due_of_callback {s t : State} {x : Input} {es : List Event} {e : Nat}
    (h : s.timers.Step x es t.timers) (he : .callback e ∈ es) :
    ∃ p now, s.pending e = some p ∧ pollTime x s = some now ∧ p.due ≤ now.msecs := by
  have hpolls : ∀ {m m' : Timers} {now : Int} {k : Nat} {d : Bool} {es : List Event},
      m.Polls now k d es m' → .callback e ∈ es → ∃ p, m.pending e = some p ∧ p.due ≤ now := by
    intro m m' now k d es h he
    cases h with
    | fire _ hnext hdue =>
        cases List.mem_singleton.mp he
        exact ⟨_, hnext.waits, hdue⟩
    | done => simp at he
  generalize ht : t.timers = m' at h
  generalize hs : s.timers = m at h
  cases h with
  | entryInit | setMaxTimedOutPerPoll => simp at he
  | count | earliestTime | missed => simp at he
  | schedule => simp [holds] at he
  | cancel => simp [drops] at he
  | @poll _ now _ _ _ h =>
      subst hs
      obtain ⟨p, hp, hdue⟩ := hpolls h he
      exact ⟨p, now, hp, rfl, hdue⟩
  | @callbackReturned _ q es' hq h =>
      subst hs
      have hrest : .callback e ∈ es' := (List.mem_append.mp he).resolve_left (by simp [drops])
      obtain ⟨p, hp, hdue⟩ := hpolls h hrest
      obtain ⟨q', hq', rfl⟩ := Option.map_eq_some_iff.mp hq
      exact ⟨p, q'.now, hp, by rw [pollTime, hq']; rfl, hdue⟩

/-! A heap with room for one entry that takes three. -/

def prepared : List Input :=
  [.entryInit 0, .entryInit 0, .entryInit 0,
    .schedule 0 { sec := 10, msec := 0 } { sec := 2, msec := 0 } (some 5) (some 7),
    .schedule 1 { sec := 10, msec := 1 } { sec := 1, msec := 500 } none none,
    .schedule 2 { sec := 10, msec := 2 } { sec := 0, msec := 100 } none none,
    .cancelIfActive 1 0]

def sample : List Input :=
  prepared ++ .poll { sec := 12, msec := 0 } true :: [.callbackReturned,
    .schedule 2 { sec := 12, msec := 3 } { sec := 1, msec := 0 } none (some 7)]

def sampleRun : Run perform possible (created 1) := ⟨sample, by decide +kernel⟩

def sampleEnd : State where
  maxSize := 6
  curSize := 1
  maxEntriesPerPoll := 64
  heap := [some 2, some 0, some 1, none, none, none]
  timerIds := [-1, 0, -4, -2, -5, -6]
  timerIdsFreelist := 3
  entries := [
    { id := 5, timerId := -1, timerValue := { sec := 12, msec := 0 }, grpLock := none },
    { id := 0, timerId := -1, timerValue := { sec := 11, msec := 501 }, grpLock := none },
    { id := 0, timerId := 1, timerValue := { sec := 13, msec := 3 }, grpLock := some 7 }]
  poll := some {
    now := { sec := 12, msec := 0 }
    count := 2
    nextDelay := true
    grpLock := some 7 }

instance : DecidablePred Event.Good
  | .assertion _ => isFalse id
  | .scheduled _ status => inferInstanceAs (Decidable (status = 0))
  | .addRef _ | .decRef _ | .callback _ | .cancelled _ _ | .polled _ _ | .counted _ | .earliest _ =>
      isTrue trivial

theorem sampleRun_ends : sampleRun.EndsIn sampleEnd := by
  unfold Run.EndsIn
  decide +kernel

theorem sampleRun_completes : sampleRun.Completes Event.Good :=
  ⟨⟨sampleEnd, sampleRun_ends⟩, by decide +kernel⟩

def preparedEnd : State where
  maxSize := 6
  curSize := 2
  maxEntriesPerPoll := 64
  heap := [some 2, some 0, some 1, none, none, none]
  timerIds := [-1, 1, -4, 0, -5, -6]
  timerIdsFreelist := 2
  entries := [
    { id := 5, timerId := 1, timerValue := { sec := 12, msec := 0 }, grpLock := some 7 },
    { id := 0, timerId := -1, timerValue := { sec := 11, msec := 501 }, grpLock := none },
    { id := 0, timerId := 3, timerValue := { sec := 10, msec := 102 }, grpLock := none }]
  poll := none

theorem prepared_reached :
    (Traced.forEach perform prepared (created 1)).outcome = .ok ((), preparedEnd) := by
  decide +kernel

/-! What is so in every run that completes. -/

/-- The heap is in order, its slots and its numbers lead to each other, and the rest of the
numbers are free. -/
theorem intact_of_reached (hgood : r.Completes Event.Good) {s : State} (hs : r.Reached s) :
    Intact s :=
  intact_of_completes hgood hs

theorem intact_of_reached_sample : Intact sampleEnd :=
  intact_of_reached sampleRun_completes sampleRun_ends.reached

theorem refines_timers (hgood : r.Completes Event.Good) {t : State} (ht : r.EndsIn t) :
    Path Timers.Step (created size).timers r.inputs r.events t.timers :=
  path_of_completes hgood ht

theorem refines_timers_sample :
    Path Timers.Step (created 1).timers sample sampleRun.events sampleEnd.timers :=
  refines_timers sampleRun_completes sampleRun_ends

/-- An entry that was scheduled is called back or cancelled once, or it still waits. -/
theorem over_once (hgood : r.Completes Event.Good) {t : State} (ht : r.EndsIn t) (e : Nat) :
    r.events.countP (Timers.isScheduled e) = r.events.countP (Timers.isOver e) +
      if t.entries[e]?.any pjTimerEntryRunning then 1 else 0 := by
  have hbalance := (path_of_completes hgood ht).balance (I := fun _ => True)
    (fun _ _ _ _ _ _ => trivial) (fun _ _ _ _ _ hstep => hstep.conserved e) trivial
  have hstart : (created size).timers.waits e = 0 := if_pos (created_pending size e)
  have hend : t.timers.waits e = if t.entries[e]?.any pjTimerEntryRunning then 1 else 0 := by
    unfold Timers.waits
    cases hx : t.entries[e]? with
    | none => simp [State.timers, State.pending, hx]
    | some x => cases hrun : pjTimerEntryRunning x <;>
        simp [State.timers, State.pending, hx, Entry.pending, hrun]
  rw [hstart, hend] at hbalance
  omega

theorem over_once_sample : sampleRun.events.countP (Timers.isScheduled 2) =
    sampleRun.events.countP (Timers.isOver 2) +
      if sampleEnd.entries[2]?.any pjTimerEntryRunning then 1 else 0 :=
  over_once sampleRun_completes sampleRun_ends 2

/-- A group lock is referred to by the entries that wait with it, and by the poll while the
callback of such an entry runs. -/
theorem references_of_completes (hgood : r.Completes Event.Good) {t : State} (ht : r.EndsIn t) (l : Nat) :
    r.events.countP (Timers.isHeld l) = r.events.countP (Timers.isDropped l) +
      (t.entries.countP (fun x => pjTimerEntryRunning x && x.grpLock = some l) +
        if t.poll.bind Poll.grpLock = some l then 1 else 0) := by
  have hbalance := (path_of_completes hgood ht).balance (fun _ _ _ _ hm hstep => hstep.finite hm)
    (fun _ _ _ _ hm hstep => hstep.referenced hm l) (created_finite size)
  have hstart : (created size).timers.references l = 0 := by
    have hholders : Timers.holders (created size).timers.pending l = 0 :=
      holders_pending (created size) l
    rw [Timers.references, hholders]
    rfl
  have hend : t.timers.references l =
      t.entries.countP (fun x => pjTimerEntryRunning x && x.grpLock = some l) +
        if t.poll.bind Poll.grpLock = some l then 1 else 0 := by
    have hholders : Timers.holders t.timers.pending l = _ := holders_pending t l
    rw [Timers.references, hholders, Timers.pollHolds]
    cases hp : t.poll <;> simp [State.timers, hp, Poll.polling]
  rw [hstart, hend] at hbalance
  omega

theorem references_of_completes_sample : sampleRun.events.countP (Timers.isHeld 7) =
    sampleRun.events.countP (Timers.isDropped 7) +
      (sampleEnd.entries.countP (fun x => pjTimerEntryRunning x && x.grpLock = some 7) +
        if sampleEnd.poll.bind Poll.grpLock = some 7 then 1 else 0) :=
  references_of_completes sampleRun_completes sampleRun_ends 7

/-- No callback comes before its time: what was last heard of the entry is that it was to wait
for a time that the poll has reached. -/
theorem called_in_time (hgood : r.Completes Event.Good) {before after : List Input} {x : Input}
    {s : State} {e : Nat} (hr : r.inputs = before ++ x :: after)
    (hs : (Traced.forEach perform before (created size)).outcome = .ok ((), s))
    (he : .callback e ∈ (perform x s).events) :
    ∃ due now, Timers.Due before e due ∧ pollTime x s = some now ∧ due ≤ now.msecs := by
  obtain ⟨hpath, es, t, hrun, hstep⟩ := r.refines_at abstract_step (intact_created size)
    (conditions_of_completes hgood) hr hs
  rw [hrun] at he
  obtain ⟨p, now, hp, htime, hdue⟩ := due_of_callback hstep he
  obtain horigin | ⟨hfirst, -⟩ := Timers.origin_of_path hpath hp
  · exact ⟨p.due, now, horigin, htime, hdue⟩
  · rw [show (created size).timers.pending e = none from created_pending size e] at hfirst
    cases hfirst

theorem called_in_time_sample : ∃ due now, Timers.Due prepared 2 due ∧
    pollTime (.poll { sec := 12, msec := 0 } true) preparedEnd = some now ∧ due ≤ now.msecs :=
  called_in_time sampleRun_completes rfl prepared_reached (by decide +kernel)

end Runs

end SimpleSipClient.TimerHeap
