import SimpleSipClient.TimerHeap.Nodes
import SimpleSipClient.TimerHeap.Timers

/-! # The heap as a set of timers

What waits is what has a number. Each routine does to the entries that wait what the abstract
one does, with the same events.
-/

namespace SimpleSipClient.TimerHeap

open Foundation

def Entry.pending (x : Entry) : Option Pending :=
  if pjTimerEntryRunning x then some { due := x.timerValue.msecs, grpLock := x.grpLock } else none

def State.pending (s : State) (e : Nat) : Option Pending := s.entries[e]?.bind Entry.pending

def Poll.polling (p : Poll) : Polling where
  now := p.now.msecs
  count := p.count
  nextDelay := p.nextDelay
  grpLock := p.grpLock

def State.timers (s : State) : Timers where
  pending := s.pending
  limit := s.maxEntriesPerPoll
  polling := s.poll.map Poll.polling

/-! ## What waits -/

section Pending

variable {s t : State} {e e' n : Nat} {x y : Entry} {p : Pending}

theorem Scheduled.pending (h : Scheduled s e x) :
    s.pending e = some { due := x.timerValue.msecs, grpLock := x.grpLock } := by
  simp [State.pending, h.entry, Entry.pending, h.running]

theorem pending_of_entry (hx : s.entries[e]? = some x) : s.pending e = x.pending := by
  rw [State.pending, hx, Option.bind_some]

theorem pending_eq_none (hx : s.entries[e]? = some x) (hun : x.timerId < 1) :
    s.pending e = none := by
  have hno : pjTimerEntryRunning x = false := decide_eq_false (by omega)
  rw [pending_of_entry hx, Entry.pending, hno]
  rfl

theorem scheduled_of_pending (h : s.pending e = some p) :
    ∃ x, Scheduled s e x ∧ p = { due := x.timerValue.msecs, grpLock := x.grpLock } := by
  obtain ⟨x, hx, hp⟩ := Option.bind_eq_some_iff.mp h
  unfold Entry.pending at hp
  split at hp
  next hrun =>
    cases hp
    exact ⟨x, ⟨hx, of_decide_eq_true hrun⟩, rfl⟩
  next => cases hp

theorem pending_iff {q : Pending → Prop} : (∃ p, s.pending e = some p ∧ q p) ↔
    ∃ x, s.entries[e]? = some x ∧ pjTimerEntryRunning x = true ∧
      q { due := x.timerValue.msecs, grpLock := x.grpLock } := by
  constructor
  · rintro ⟨p, hp, hq⟩
    obtain ⟨x, hx, rfl⟩ := scheduled_of_pending hp
    exact ⟨x, hx.entry, hx.running, hq⟩
  · rintro ⟨x, hx, hrun, hq⟩
    exact ⟨_, Scheduled.pending ⟨hx, of_decide_eq_true hrun⟩, hq⟩

/-- Those who wait are those who are counted. -/
theorem ncard_pending (h : Numbered s n) : {e | s.pending e ≠ none}.ncard = n := by
  have hiff : ∀ e, s.pending e ≠ none ↔
      ∃ x, s.entries[e]? = some x ∧ pjTimerEntryRunning x = true := by
    intro e
    have hex := pending_iff (s := s) (e := e) (q := fun _ => True)
    simpa [Option.ne_none_iff_exists'] using hex
  simp only [hiff]
  rw [ncard_places, h.counted]

theorem holders_pending (s : State) (l : Nat) : Timers.holders s.pending l =
    s.entries.countP fun x => pjTimerEntryRunning x && x.grpLock = some l := by
  rw [Timers.holders, ← ncard_places]
  simp only [pending_iff, Bool.and_eq_true, decide_eq_true_eq]

theorem pending_modify {f : Entry → Entry} (hentries : t.entries = s.entries.modify e f)
    (hx : s.entries[e]? = some x) :
    t.pending = Function.update s.pending e (f x).pending := by
  funext e'
  by_cases hne : e' = e
  · subst hne
    rw [Function.update_self]
    simp [State.pending, hentries, hx]
  · rw [Function.update_of_ne hne]
    simp [State.pending, hentries, Ne.symm hne]

/-- The entry stays as it was, for those who wait. -/
theorem pending_modify_same {f : Entry → Entry} (hentries : t.entries = s.entries.modify e f)
    (hx : s.entries[e]? = some x) (hsame : (f x).pending = x.pending) :
    t.pending = s.pending := by
  rw [pending_modify hentries hx, hsame, ← pending_of_entry hx, Function.update_eq_self]

theorem pending_append (hentries : t.entries = s.entries ++ [x]) (hx : x.timerId = -1) :
    t.pending = s.pending := by
  have hno : x.pending = none := by
    simp [Entry.pending, pjTimerEntryRunning, hx]
  funext e
  rw [State.pending, State.pending, hentries]
  obtain hlt | rfl | hgt := Nat.lt_trichotomy e s.entries.length
  · rw [List.getElem?_append_left hlt]
  · simp [hno]
  · have hlen : (s.entries ++ [x]).length ≤ e := by
      rw [List.length_append, List.length_singleton]
      omega
    rw [List.getElem?_eq_none hlen, List.getElem?_eq_none (by omega)]

/-- The first entry of the heap is one that has waited longest. -/
theorem Settled.next (h : Settled s n) (hpos : 0 < n) : ∃ e x, Stands s 0 e x ∧
    Next s.pending e { due := x.timerValue.msecs, grpLock := x.grpLock } := by
  obtain ⟨e, x, hx⟩ := h.placed.slots 0 hpos
  refine ⟨e, x, hx, hx.toScheduled.pending, fun e' p' hp' => ?_⟩
  obtain ⟨y, hy, rfl⟩ := scheduled_of_pending hp'
  obtain ⟨i, hi, hy⟩ := h.placed.homes hy
  have hle := h.ordered.least hi
  rwa [hx.value, hy.value] at hle

theorem Settled.none_pending (h : Settled s 0) (e : Nat) : s.pending e = none := by
  cases hp : s.pending e with
  | none => rfl
  | some p =>
      obtain ⟨x, hx, -⟩ := scheduled_of_pending hp
      obtain ⟨i, hi, -⟩ := h.placed.homes hx
      omega

theorem Removed.pending (h : Removed s t e) (hx : Scheduled s e x) :
    t.pending = Function.update s.pending e none := by
  rw [pending_modify h.entries hx.entry]
  rfl

end Pending

/-! ## Polls -/

def Event.Good : Event → Prop
  | .assertion _ => False
  | .scheduled _ status => status = 0
  | _ => True

section Poll

variable {s t : State} {e : Nat} {x : Entry} {now : TimeVal} {count : Nat} {nextDelay : Bool}

theorem Intact.alike (h : Intact s) (ha : Alike s t) (hsize : t.curSize = s.curSize)
    (hunlocked : ∀ ⦃e : Nat⦄ ⦃x : Entry⦄, t.entries[e]? = some x → x.timerId = -1 →
      x.grpLock = none)
    (hclock : ∀ ⦃p : Poll⦄, t.poll = some p → p.now.Normal) : Intact t where
  settled := by
    rw [hsize]
    exact ha.settled h.settled
  room := by
    rw [hsize, ha.maxSize]
    exact h.room
  unlocked := hunlocked
  clock := hclock

theorem Intact.withPoll (h : Intact s) {q : Option Poll}
    (hq : ∀ ⦃p : Poll⦄, q = some p → p.now.Normal) : Intact { s with poll := q } :=
  h.alike (alike_of_entries h.settled.numbered rfl rfl rfl rfl rfl) rfl h.unlocked hq

/-- What the entry is given besides its number and its time. -/
def Entry.mark (idVal : Option Int) (grpLock : Option Nat) (x : Entry) : Entry :=
  { x with id := idVal.getD x.id, grpLock := grpLock }

def State.mark (s : State) (e : Nat) (idVal : Option Int) (grpLock : Option Nat) : State :=
  { s with entries := s.entries.modify e (Entry.mark idVal grpLock) }

theorem Removed.entry (h : Removed s t e) (hx : Scheduled s e x) :
    t.entries[e]? = some { x with timerId := -1 } := by
  simp [h.entries, hx.entry]

section Removed

variable {v : State} {idVal : Option Int} (h : Removed s t e) (hs : Intact s)
variable (hx : Scheduled s e x) (hentries : v.entries = t.entries.modify e (Entry.mark idVal none))

include h hs hx hentries

/-- The reference of an entry that was removed is taken from it. -/
theorem Removed.intact (hheap : v.heap = t.heap) (hids : v.timerIds = t.timerIds)
    (hfree : v.timerIdsFreelist = t.timerIdsFreelist) (hmax : v.maxSize = t.maxSize)
    (hsize : v.curSize = t.curSize) (hclock : ∀ ⦃p : Poll⦄, v.poll = some p → p.now.Normal) :
    Intact v where
  settled := by
    rw [hsize]
    exact (alike_of_modify h.settled.numbered hheap hids hfree hmax hentries (h.entry hx)
      rfl rfl).settled h.settled
  room := by
    have hroom := hs.room
    have hless := h.size
    rw [hsize, hmax, h.maxSize]
    omega
  unlocked e' y hy hno := by
    rw [hentries] at hy
    obtain ⟨z, hz, rfl⟩ := entry_of_modify hy
    by_cases hne : e = e'
    · rw [if_pos hne]
      rfl
    · rw [h.entries] at hz
      obtain ⟨z', hz', rfl⟩ := entry_of_modify hz
      rw [if_neg hne, if_neg hne] at hno ⊢
      exact hs.unlocked hz' hno
  clock := hclock

omit hs in
theorem Removed.timers (hlimit : v.maxEntriesPerPoll = t.maxEntriesPerPoll) :
    v.timers = { s.timers.without e with polling := v.poll.map Poll.polling } := by
  have hpending : v.pending = Function.update s.pending e none := by
    rw [pending_modify_same hentries (h.entry hx) rfl, h.pending hx]
  rw [State.timers, hpending, hlimit, h.limit]
  rfl

end Removed

theorem returns_delayLeft (h : Intact s) (now : TimeVal) :
    Returns (delayLeft now) s fun es d t =>
      es = [] ∧ t = s ∧ Delay s.pending now.msecs d := by
  unfold delayLeft
  rw [returns_bind, returns_get, returns_ite]
  split
  next hpos =>
    obtain ⟨e, x, hx, hnext⟩ := h.settled.next hpos
    have hnormal := TimeVal.sub_normal x.timerValue now
    have hleft := TimeVal.sub_msecs x.timerValue now
    rw [returns_bind, returns_valueAt hx.slot hx.entry, returns_pure]
    refine ⟨rfl, rfl, ?_⟩
    have hdelay : Delay s.pending now.msecs (.ofMsecs (max 0 (x.timerValue.msecs - now.msecs))) :=
      .left hnext
    rw [← hleft] at hdelay
    split
    next hneg =>
      rw [hnormal.negative_iff] at hneg
      rwa [Int.max_eq_left (by omega)] at hdelay
    next hneg =>
      rw [hnormal.negative_iff] at hneg
      rwa [Int.max_eq_right (by omega), ← hnormal.eq_ofMsecs] at hdelay
  next hzero =>
    have hnone : s.curSize = 0 := by omega
    have hsettled := h.settled
    rw [hnone] at hsettled
    exact ⟨rfl, rfl, .never hsettled.none_pending⟩

/-- The end of a poll. -/
theorem returns_done (h : Intact s)
    (hdone : s.maxEntriesPerPoll ≤ count ∨ ∀ e p, s.pending e = some p → now.msecs < p.due) :
    Returns (do
      update fun ht => { ht with poll := none }
      if nextDelay then do
        let delay ← delayLeft now
        Traced.emit (.polled count (some delay))
      else Traced.emit (.polled count none)) s fun es _ t =>
        (∀ e ∈ es, e.Good) ∧ Intact t ∧ s.timers.Polls now.msecs count nextDelay es t.timers := by
  have hintact : Intact { s with poll := none } := h.withPoll fun p hp => by cases hp
  rw [returns_bind, returns_update, returns_ite]
  split
  next hdelay =>
    rw [returns_bind]
    refine (returns_delayLeft hintact now).mono fun es d t ht => ?_
    obtain ⟨rfl, rfl, hd⟩ := ht
    refine ⟨by simp [Event.Good], hintact, .done hdone hdelay.symm fun d' hd' => ?_⟩
    cases hd'
    exact hd
  next hdelay =>
    refine ⟨by simp [Event.Good], hintact, .done hdone ?_ fun d' hd' => by cases hd'⟩
    exact (Bool.eq_false_iff.mpr hdelay).symm

/-- The poll loop up to the next callback. -/
theorem returns_pollLoop (h : Intact s) (hnow : now.Normal) :
    Returns (pollLoop now count nextDelay) s fun es _ t =>
      (∀ e ∈ es, e.Good) ∧ Intact t ∧ s.timers.Polls now.msecs count nextDelay es t.timers := by
  have hroom := h.room
  unfold pollLoop firstDue
  rw [returns_bind, returns_get, returns_bind, returns_bind, returns_get, returns_ite]
  split
  next hpos =>
    obtain ⟨e, x, hx, hnext⟩ := h.settled.next hpos
    have hnormal := h.settled.numbered.normal hx.toScheduled
    have horder := TimeVal.lte_iff hnormal hnow
    rw [returns_bind, returns_valueAt hx.slot hx.entry, returns_pure, returns_ite]
    split
    next hdue =>
      obtain ⟨hle, hcount⟩ := hdue
      rw [returns_bind]
      refine (returns_removeNode h.settled (by omega) hpos hx).mono fun es r t ht => ?_
      obtain ⟨rfl, rfl, hremoved⟩ := ht
      have hmark : ∀ xs : List Entry, (xs.modify r fun x => { x with grpLock := none }) =
          xs.modify r (Entry.mark none none) := fun _ => rfl
      rw [returns_bind, returns_entryAt (hremoved.entry hx.toScheduled)]
      simp only [returns_bind, returns_updateEntry, returns_update, returns_emit, List.nil_append]
      refine ⟨by simp [Event.Good], hremoved.intact h hx.toScheduled (hmark _) rfl
        rfl rfl rfl rfl fun p hp => ?_, ?_⟩
      · cases hp
        exact hnow
      · convert Timers.Polls.fire (m := s.timers) hcount hnext (horder.mp hle) using 1
        exact hremoved.timers hx.toScheduled (hmark _) rfl
    next hdue =>
      rw [horder] at hdue
      refine returns_done h ?_
      by_cases hle : x.timerValue.msecs ≤ now.msecs
      · exact .inl (by omega)
      · refine .inr fun e' p hp => ?_
        have hleast : x.timerValue.msecs ≤ p.due := hnext.least hp
        omega
  next hzero =>
    have hnone : s.curSize = 0 := by omega
    have hsettled := h.settled
    rw [hnone] at hsettled
    rw [returns_pure, returns_ite, if_neg (by simp)]
    refine returns_done h (.inr fun e p hp => ?_)
    rw [hsettled.none_pending] at hp
    cases hp

/-- The callback has returned, and its reference is dropped. -/
theorem returns_callbackReturned {p : Poll} (h : Intact s) (hp : s.poll = some p) :
    Returns callbackReturned s fun es _ t =>
      (∀ e ∈ es, e.Good) ∧ Intact t ∧ s.timers.Step .callbackReturned es t.timers := by
  have hpolling : s.timers.polling = some p.polling := by
    rw [State.timers, hp]
    rfl
  have hloop : Returns (pollLoop p.now p.count p.nextDelay) s fun es _ t => (∀ e ∈ es, e.Good) ∧
      Intact t ∧ s.timers.Polls p.now.msecs p.count p.nextDelay es t.timers :=
    returns_pollLoop h (h.clock hp)
  rw [callbackReturned, returns_bind, returns_get, hp]
  cases hl : p.grpLock with
  | none =>
      simp only [hl, List.nil_append]
      refine hloop.mono fun es _ t ht => ?_
      obtain ⟨hgood, hintact, hpolls⟩ := ht
      have hstep := Timers.Step.callbackReturned hpolling hpolls
      rw [show drops p.polling.grpLock = [] by simp [Poll.polling, hl, drops]] at hstep
      exact ⟨hgood, hintact, hstep⟩
  | some l =>
      simp only [hl, returns_bind, returns_emit, List.nil_append]
      refine hloop.mono fun es _ t ht => ?_
      obtain ⟨hgood, hintact, hpolls⟩ := ht
      have hstep := Timers.Step.callbackReturned hpolling hpolls
      rw [show drops p.polling.grpLock = [.decRef l] by simp [Poll.polling, hl, drops]] at hstep
      exact ⟨List.forall_mem_append.mpr ⟨by simp [Event.Good], hgood⟩, hintact, hstep⟩

theorem returns_pjTimerHeapPoll (h : Intact s) (hnow : now.isTick = true) (hp : s.poll = none) :
    Returns (pjTimerHeapPoll now nextDelay) s fun es _ t =>
      (∀ e ∈ es, e.Good) ∧ Intact t ∧ s.timers.Step (.poll now nextDelay) es t.timers := by
  have hpolling : s.timers.polling = none := by
    rw [State.timers, hp]
    rfl
  rw [pjTimerHeapPoll, returns_bind, returns_get, returns_ite]
  split
  next hempty =>
    obtain ⟨hzero, rfl⟩ := hempty
    have hsettled := h.settled
    rw [hzero] at hsettled
    refine ⟨by simp [Event.Good], h, .poll hpolling ?_⟩
    have hnothing : ∀ e p, s.timers.pending e = some p → now.msecs < p.due := by
      intro e p hp
      have hnone : s.timers.pending e = none := hsettled.none_pending e
      rw [hnone] at hp
      cases hp
    have hdone : s.timers.Polls now.msecs 0 true
        [.polled 0 (some { sec := MAXINT32, msec := MAXINT32 })]
        { s.timers with polling := none } :=
      .done (.inr hnothing) rfl fun d hd => by
        cases hd
        exact .never hsettled.none_pending
    rwa [← hpolling] at hdone
  next =>
    refine (returns_pollLoop h (TimeVal.normal_of_isTick hnow)).mono fun es _ t ht => ?_
    obtain ⟨hgood, hintact, hpolls⟩ := ht
    exact ⟨hgood, hintact, .poll hpolling hpolls⟩

end Poll

/-! ## Scheduling and cancelling -/

section Routines

variable {s t : State} {e : Nat} {x : Entry} {idVal : Option Int} {grpLock : Option Nat}

section Inserted

variable {v : State} {value : TimeVal} (h : Inserted s t e value)
variable (hx : s.entries[e]? = some x)

include h hx

theorem Inserted.entry : ∃ id : Int, 1 ≤ id ∧
    t.entries[e]? = some { x with timerId := id, timerValue := value } := by
  obtain ⟨id, hpos, hentries⟩ := h.entries
  refine ⟨id, hpos, ?_⟩
  simp [hentries, hx]

variable (hentries : v.entries = t.entries.modify e (Entry.mark idVal grpLock))

include hentries

/-- An entry that was inserted is given its reference. -/
theorem Inserted.intact (hs : Intact s) (hheap : v.heap = t.heap) (hids : v.timerIds = t.timerIds)
    (hfree : v.timerIdsFreelist = t.timerIdsFreelist) (hmax : v.maxSize = t.maxSize)
    (hsize : v.curSize = t.curSize) (hpoll : v.poll = t.poll) : Intact v where
  settled := by
    obtain ⟨id, -, hentry⟩ := h.entry hx
    rw [hsize]
    exact (alike_of_modify h.settled.numbered hheap hids hfree hmax hentries hentry
      rfl rfl).settled h.settled
  room := by
    rw [hsize, hmax]
    exact h.room
  unlocked e' y hy hno := by
    obtain ⟨id, hpos, htaken⟩ := h.entries
    rw [hentries] at hy
    obtain ⟨z, hz, rfl⟩ := entry_of_modify hy
    rw [htaken] at hz
    obtain ⟨z', hz', rfl⟩ := entry_of_modify hz
    by_cases hne : e = e'
    · rw [if_pos hne, if_pos hne] at hno
      simp only [Entry.mark] at hno
      omega
    · rw [if_neg hne, if_neg hne] at hno ⊢
      exact hs.unlocked hz' hno
  clock p hp := by
    rw [hpoll, h.poll] at hp
    exact hs.clock hp

theorem Inserted.timers (hlimit : v.maxEntriesPerPoll = t.maxEntriesPerPoll)
    (hpoll : v.poll = t.poll) : v.timers =
      { s.timers with pending := Function.update s.pending e (some {
          due := value.msecs
          grpLock := grpLock }) } := by
  obtain ⟨id, hpos, htaken⟩ := h.entries
  have hentry : t.entries[e]? = some { x with timerId := id, timerValue := value } := by
    simp [htaken, hx]
  have hnew : (Entry.mark idVal grpLock { x with timerId := id, timerValue := value }).pending =
      some { due := value.msecs, grpLock := grpLock } := by
    simp [Entry.pending, Entry.mark, pjTimerEntryRunning, hpos]
  have hpending : v.pending = Function.update s.pending e (some {
      due := value.msecs
      grpLock := grpLock }) := by
    rw [pending_modify hentries hentry, hnew, pending_modify htaken hx, Function.update_idem]
  rw [State.timers, hpending, hlimit, h.limit, hpoll, h.poll]
  rfl

end Inserted

theorem returns_scheduleWGrpLock (h : Intact s) (hx : s.entries[e]? = some x)
    (hun : x.timerId < 1) (tick delay : TimeVal) :
    Returns (scheduleWGrpLock e tick delay idVal grpLock) s fun es _ t =>
      (∀ ev ∈ es, ev.Good) ∧ Intact t ∧
        s.timers.Step (.schedule e tick delay idVal grpLock) es t.timers := by
  have hnormal := TimeVal.add_normal tick delay
  rw [scheduleWGrpLock, returns_bind, returns_entryAt hx, returns_bind, returns_pjAssert]
  refine ⟨decide_eq_true hun, ?_⟩
  rw [returns_bind]
  refine (returns_scheduleEntry h hx hun hnormal).mono fun es status t ht => ?_
  obtain ⟨rfl, rfl, hinserted⟩ := ht
  have hintact := hinserted.intact (v := t.mark e idVal grpLock) hx rfl h rfl rfl rfl rfl rfl rfl
  have htimers := hinserted.timers (v := t.mark e idVal grpLock) hx rfl rfl rfl
  have hstep : s.timers.Step (.schedule e tick delay idVal grpLock)
      (holds grpLock ++ [.scheduled e 0]) (t.mark e idVal grpLock).timers := by
    rw [htimers, TimeVal.add_msecs]
    exact .schedule (pending_eq_none hx hun) tick delay idVal grpLock
  rw [if_pos rfl]
  cases grpLock with
  | none =>
      simp only [returns_bind, returns_updateEntry, returns_emit, List.nil_append]
      exact ⟨by simp [Event.Good], hintact, hstep⟩
  | some l =>
      simp only [returns_bind, returns_updateEntry, returns_emit, List.nil_append]
      exact ⟨by simp [Event.Good], hintact, hstep⟩

section Cancel

variable {dontAssert : Bool}

/-- An entry that is scheduled is found in the slot that its number leads to. -/
theorem returns_cancel (h : Intact s) (hx : Scheduled s e x) :
    Returns (cancel e dontAssert) s fun es count t => es = [] ∧ count = 1 ∧ Removed s t e := by
  have hpos := hx.number
  have hlt := h.settled.numbered.inside hx
  have hroom := h.room
  obtain ⟨i, hi, hstands⟩ := h.settled.placed.homes hx
  rw [cancel, returns_bind, returns_get, returns_bind, returns_entryAt hx.entry,
    if_neg (by omega), returns_bind]
  have hhome : Returns (timerIdAt x.timerId) s fun es v t => es = [] ∧ v = i ∧ t = s := by
    have hnat : 0 ≤ x.timerId := by omega
    simp [timerIdAt, hstands.home, hnat]
  refine hhome.mono fun es v t ht => ?_
  obtain ⟨rfl, rfl, rfl⟩ := ht
  rw [if_neg (by omega), returns_bind, Int.toNat_natCast, returns_heapAt hstands.slot,
    if_neg (by simp), returns_bind]
  refine (returns_removeNode h.settled (by omega) hi hstands).mono fun es r t ht => ?_
  obtain ⟨rfl, rfl, hremoved⟩ := ht
  exact ⟨rfl, rfl, hremoved⟩

theorem returns_cancelTimer (h : Intact s) (hx : s.entries[e]? = some x) {y : Input}
    (hy : Timers.Cancels y e) :
    Returns (cancelTimer e dontAssert idVal) s fun es _ t =>
      (∀ ev ∈ es, ev.Good) ∧ Intact t ∧ s.timers.Step y es t.timers := by
  obtain hno | ⟨hpos, -⟩ := h.settled.numbered.number hx
  · have hlock := h.unlocked hx hno
    have hfixed : ({ x with timerId := -1 } : Entry) = x := by rw [← hno]
    have hmiss : Returns (cancel e dontAssert) s fun es count t =>
        es = [] ∧ count = 0 ∧ t = s := by
      rw [cancel, returns_bind, returns_get, returns_bind, returns_entryAt hx, if_pos (by omega)]
      have hsame := modify_of_fixed (f := fun x => { x with timerId := -1 }) hx hfixed
      rw [returns_bind, returns_updateEntry, hsame]
      exact ⟨rfl, rfl, rfl⟩
    rw [cancelTimer, returns_bind]
    refine hmiss.mono fun es count t ht => ?_
    obtain ⟨rfl, rfl, rfl⟩ := ht
    rw [returns_bind, returns_entryAt hx]
    simp only [hlock, returns_bind, returns_updateEntry, returns_emit, List.nil_append]
    have hmark : (Entry.mark idVal none x).pending = x.pending := by
      rw [Entry.pending, Entry.pending, hlock]
      rfl
    have hpending := pending_modify_same (t := t.mark e idVal none) rfl hx hmark
    refine ⟨by simp [Event.Good], h.alike (alike_of_modify h.settled.numbered rfl rfl rfl rfl rfl
      hx rfl rfl) rfl (fun e' y hy hno' => ?_) h.clock, ?_⟩
    · obtain ⟨z, hz, rfl⟩ := entry_of_modify hy
      split at hno'
      · rw [if_pos ‹_›]
      next hne =>
        rw [if_neg hne]
        exact h.unlocked hz hno'
    · have htimers : (t.mark e idVal none).timers = t.timers := by
        rw [State.timers, hpending]
        rfl
      have hstep : t.timers.Step y [.cancelled e 0] (t.mark e idVal none).timers := by
        rw [htimers]
        exact .missed hy (pending_eq_none hx (by omega))
      exact hstep
  · have hsched : Scheduled s e x := ⟨hx, hpos⟩
    rw [cancelTimer, returns_bind]
    refine (returns_cancel h hsched).mono fun es count t ht => ?_
    obtain ⟨rfl, rfl, hremoved⟩ := ht
    have hentry := hremoved.entry hsched
    have hintact := hremoved.intact (v := t.mark e idVal none) h hsched rfl rfl rfl rfl rfl rfl
      fun p hp => h.clock (hremoved.poll ▸ hp)
    have htimers := hremoved.timers (v := t.mark e idVal none) hsched rfl rfl
    have hstep : s.timers.Step y (drops x.grpLock ++ [.cancelled e 1])
        (t.mark e idVal none).timers := by
      have hpoll : (t.mark e idVal none).poll = s.poll := hremoved.poll
      rw [htimers, hpoll]
      exact .cancel (m := s.timers) hy hsched.pending
    rw [returns_bind, returns_entryAt hentry]
    cases hl : x.grpLock with
    | none =>
        rw [hl] at hstep
        simp only [returns_bind, returns_updateEntry, returns_emit, List.nil_append]
        exact ⟨by simp [Event.Good], hintact, hstep⟩
    | some l =>
        rw [hl] at hstep
        simp only [returns_bind, returns_updateEntry, returns_emit, List.nil_append]
        exact ⟨by simp [Event.Good], hintact, hstep⟩

end Cancel

end Routines

end SimpleSipClient.TimerHeap
