import Mathlib.Data.Set.Card
import SimpleSipClient.Foundation.Refinement
import SimpleSipClient.TimerHeap.Time

/-! # What a timer heap is for

Entries wait, each for its time in milliseconds, and each may hold a reference to a group lock.
A poll lets one go that has waited long enough and than which none has waited longer, and holds
its reference until the callback has returned.
-/

namespace SimpleSipClient.TimerHeap

open Foundation

structure Pending where
  due : Int
  grpLock : Option Nat

structure Polling where
  now : Int
  count : Nat
  nextDelay : Bool
  grpLock : Option Nat

structure Timers where
  pending : Nat → Option Pending
  limit : Nat
  polling : Option Polling

/-- The normalized time value. -/
def TimeVal.ofMsecs (n : Int) : TimeVal := { sec := n.tdiv 1000, msec := n.tmod 1000 }

theorem TimeVal.Normal.eq_ofMsecs {t : TimeVal} (h : t.Normal) : t = ofMsecs t.msecs := by
  obtain ⟨h1, h2, h3, h4⟩ := h
  rcases t with ⟨sec, msec⟩
  simp only [ofMsecs, msecs, TimeVal.mk.injEq] at *
  have hsign : Int.sign 1000 = 1 := rfl
  rw [Int.tdiv_eq_ediv, Int.tmod_eq_emod, hsign]
  split <;> omega

def holds (grpLock : Option Nat) : List Event := grpLock.toList.map .addRef

def drops (grpLock : Option Nat) : List Event := grpLock.toList.map .decRef

structure Next (pending : Nat → Option Pending) (e : Nat) (p : Pending) : Prop where
  waits : pending e = some p
  least : ∀ ⦃e' p'⦄, pending e' = some p' → p.due ≤ p'.due

/-- How long to wait until the next entry is due. -/
inductive Delay (pending : Nat → Option Pending) (now : Int) : TimeVal → Prop
  | left {e : Nat} {p : Pending} (h : Next pending e p) :
      Delay pending now (.ofMsecs (max 0 (p.due - now)))
  | never (h : ∀ e, pending e = none) : Delay pending now { sec := MAXINT32, msec := MAXINT32 }

namespace Timers

def without (m : Timers) (e : Nat) : Timers :=
  { m with pending := Function.update m.pending e none }

/-- A poll up to the next callback, or to its end. -/
inductive Polls (m : Timers) (now : Int) (count : Nat) (nextDelay : Bool) :
    List Event → Timers → Prop
  | fire {e : Nat} {p : Pending} (hcount : count < m.limit) (h : Next m.pending e p) (hdue : p.due ≤ now) :
      Polls m now count nextDelay [.callback e]
        { m.without e with polling := some {
            now := now
            count := count + 1
            nextDelay := nextDelay
            grpLock := p.grpLock } }
  | done {delay : Option TimeVal}
      (h : m.limit ≤ count ∨ ∀ e p, m.pending e = some p → now < p.due)
      (hsome : delay.isSome = nextDelay) (hdelay : ∀ d, delay = some d → Delay m.pending now d) :
      Polls m now count nextDelay [.polled count delay] { m with polling := none }

def Cancels (x : Input) (e : Nat) : Prop := x = .cancel e ∨ ∃ idVal, x = .cancelIfActive e idVal

inductive Step : Timers → Input → List Event → Timers → Prop
  | entryInit (m : Timers) (id : Int) : Step m (.entryInit id) [] m
  | schedule {m : Timers} {e : Nat} (h : m.pending e = none) (tick delay : TimeVal)
      (idVal : Option Int) (grpLock : Option Nat) :
      Step m (.schedule e tick delay idVal grpLock) (holds grpLock ++ [.scheduled e 0])
        { m with pending := Function.update m.pending e (some {
            due := tick.msecs + delay.msecs
            grpLock := grpLock }) }
  | cancel {m : Timers} {x : Input} {e : Nat} {p : Pending} (hx : Cancels x e)
      (h : m.pending e = some p) : Step m x (drops p.grpLock ++ [.cancelled e 1]) (m.without e)
  | missed {m : Timers} {x : Input} {e : Nat} (hx : Cancels x e) (h : m.pending e = none) :
      Step m x [.cancelled e 0] m
  | poll {m m' : Timers} {now : TimeVal} {nextDelay : Bool} {es : List Event}
      (h : m.polling = none) (hpolls : m.Polls now.msecs 0 nextDelay es m') :
      Step m (.poll now nextDelay) es m'
  | callbackReturned {m m' : Timers} {p : Polling} {es : List Event} (h : m.polling = some p)
      (hpolls : m.Polls p.now p.count p.nextDelay es m') :
      Step m .callbackReturned (drops p.grpLock ++ es) m'
  | count (m : Timers) : Step m .count [.counted {e | m.pending e ≠ none}.ncard] m
  | earliestTime {m : Timers} {e : Nat} {p : Pending} (h : Next m.pending e p) :
      Step m .earliestTime [.earliest (.ofMsecs p.due)] m
  | setMaxTimedOutPerPoll (m : Timers) (count : Nat) :
      Step m (.setMaxTimedOutPerPoll count) [] { m with limit := count }

/-! ## What goes in comes out once -/

section Conserved

variable {m m' : Timers} {x : Input} {es : List Event} {now : Int} {k : Nat} {nextDelay : Bool}

def isScheduled (e : Nat) (ev : Event) : Bool := ev = .scheduled e 0

def isOver (e : Nat) (ev : Event) : Bool := ev = .callback e || ev = .cancelled e 1

def waits (m : Timers) (e : Nat) : Nat := if m.pending e = none then 0 else 1

theorem countP_holds (p : Event → Bool) (hp : ∀ l, p (.addRef l) = false) (g : Option Nat) :
    (holds g).countP p = 0 := by
  cases g <;> simp [holds, hp]

theorem countP_drops (p : Event → Bool) (hp : ∀ l, p (.decRef l) = false) (g : Option Nat) :
    (drops g).countP p = 0 := by
  cases g <;> simp [drops, hp]

theorem Polls.conserved (h : m.Polls now k nextDelay es m') (e : Nat) :
    m.waits e + es.countP (isScheduled e) = m'.waits e + es.countP (isOver e) := by
  cases h with
  | @fire e' p _ hnext _ =>
      by_cases hne : e = e'
      · subst hne
        simp [without, isScheduled, isOver, waits, hnext.waits]
      · simp [without, isScheduled, isOver, waits, hne, Ne.symm hne]
  | done => simp [isScheduled, isOver, waits]

theorem Step.conserved (h : Step m x es m') (e : Nat) :
    m.waits e + es.countP (isScheduled e) = m'.waits e + es.countP (isOver e) := by
  cases h with
  | entryInit | setMaxTimedOutPerPoll => simp [waits]
  | count | earliestTime | missed => simp [isScheduled, isOver, waits]
  | @schedule e' hnone tick delay idVal g =>
      rw [List.countP_append, List.countP_append,
        countP_holds _ (fun _ => rfl), countP_holds _ (fun _ => rfl)]
      by_cases hne : e = e'
      · subst hne
        simp [isScheduled, isOver, waits, hnone]
      · simp [isScheduled, isOver, waits, hne, Ne.symm hne]
  | @cancel _ e' p hx hp =>
      rw [List.countP_append, List.countP_append,
        countP_drops _ (fun _ => rfl), countP_drops _ (fun _ => rfl)]
      by_cases hne : e = e'
      · subst hne
        simp [without, isScheduled, isOver, waits, hp]
      · simp [without, isScheduled, isOver, waits, hne, Ne.symm hne]
  | poll _ hpolls => exact hpolls.conserved e
  | callbackReturned _ hpolls =>
      rw [List.countP_append, List.countP_append,
        countP_drops _ (fun _ => rfl), countP_drops _ (fun _ => rfl), Nat.zero_add, Nat.zero_add]
      exact hpolls.conserved e

end Conserved

/-! ## References -/

section References

variable {m m' : Timers} {x : Input} {es : List Event} {now : Int} {k : Nat} {nextDelay : Bool}
variable {pending : Nat → Option Pending} {e l : Nat} {p : Pending}

noncomputable def holders (pending : Nat → Option Pending) (l : Nat) : Nat :=
  {e | ∃ p, pending e = some p ∧ p.grpLock = some l}.ncard

def pollHolds (m : Timers) (l : Nat) : Nat :=
  if m.polling.bind Polling.grpLock = some l then 1 else 0

noncomputable def references (m : Timers) (l : Nat) : Nat := holders m.pending l + m.pollHolds l

def Finite (m : Timers) : Prop := {e | m.pending e ≠ none}.Finite

theorem holders_insert (hfinite : {e | pending e ≠ none}.Finite) (hnone : pending e = none)
    (p : Pending) (l : Nat) : holders (Function.update pending e (some p)) l =
      holders pending l + if p.grpLock = some l then 1 else 0 := by
  have hsub : {e | ∃ p, pending e = some p ∧ p.grpLock = some l} ⊆ {e | pending e ≠ none} := by
    rintro e' ⟨p', hp', -⟩
    simp [hp']
  have hfresh : e ∉ {e | ∃ p, pending e = some p ∧ p.grpLock = some l} := by
    rintro ⟨p', hp', -⟩
    rw [hnone] at hp'
    cases hp'
  have hiff : ∀ e', (∃ p', Function.update pending e (some p) e' = some p' ∧
      p'.grpLock = some l) ↔
        (e' = e ∧ p.grpLock = some l) ∨ ∃ p', pending e' = some p' ∧ p'.grpLock = some l := by
    intro e'
    by_cases hne : e' = e
    · subst hne
      simp [hnone]
    · simp [hne]
  unfold holders
  split
  next hl =>
    have hset : {e' | ∃ p', Function.update pending e (some p) e' = some p' ∧
        p'.grpLock = some l} = insert e {e | ∃ p, pending e = some p ∧ p.grpLock = some l} := by
      ext e'
      rw [Set.mem_ofPred_eq, hiff, Set.mem_insert_iff, Set.mem_ofPred_eq, and_iff_left hl]
    rw [hset, Set.ncard_insert_of_notMem hfresh (hfinite.subset hsub)]
  next hl => simp only [hiff, hl, and_false, false_or, Nat.add_zero]

theorem finite_update (hfinite : {e | pending e ≠ none}.Finite) (e : Nat) (p : Option Pending) :
    {e' | Function.update pending e p e' ≠ none}.Finite := by
  refine (hfinite.insert e).subset fun e' he' => ?_
  by_cases hne : e' = e
  · exact .inl hne
  · right
    simpa [hne] using he'

theorem holders_remove (hfinite : {e | pending e ≠ none}.Finite) (hp : pending e = some p)
    (l : Nat) : holders pending l =
      holders (Function.update pending e none) l + if p.grpLock = some l then 1 else 0 := by
  have hnone : Function.update pending e none e = none := Function.update_self e none pending
  have hinsert := holders_insert (finite_update hfinite e none) hnone p l
  rwa [Function.update_idem, ← hp, Function.update_eq_self] at hinsert

theorem Polls.finite (h : m.Polls now k nextDelay es m') (hm : m.Finite) : m'.Finite := by
  cases h with
  | fire => exact finite_update hm _ none
  | done => exact hm

theorem Step.finite (h : Step m x es m') (hm : m.Finite) : m'.Finite := by
  cases h with
  | entryInit | missed | count | earliestTime | setMaxTimedOutPerPoll => exact hm
  | schedule => exact finite_update hm _ _
  | cancel => exact finite_update hm _ none
  | poll _ hpolls | callbackReturned _ hpolls => exact hpolls.finite hm

def isHeld (l : Nat) (ev : Event) : Bool := ev = .addRef l

def isDropped (l : Nat) (ev : Event) : Bool := ev = .decRef l

theorem countP_isHeld (g : Option Nat) (l : Nat) :
    (holds g).countP (isHeld l) = if g = some l then 1 else 0 := by
  cases g <;> simp [holds, isHeld, List.countP_singleton]

theorem countP_isDropped (g : Option Nat) (l : Nat) :
    (drops g).countP (isDropped l) = if g = some l then 1 else 0 := by
  cases g <;> simp [drops, isDropped, List.countP_singleton]

/-- What the poll holds before it goes on is not its concern. -/
theorem Polls.referenced (h : m.Polls now k nextDelay es m') (hm : m.Finite) (l : Nat) :
    holders m.pending l + es.countP (isHeld l) = m'.references l + es.countP (isDropped l) := by
  cases h with
  | @fire e p _ hnext _ =>
      rw [holders_remove hm hnext.waits l]
      rfl
  | done => rfl

theorem Step.referenced (h : Step m x es m') (hm : m.Finite) (l : Nat) :
    m.references l + es.countP (isHeld l) = m'.references l + es.countP (isDropped l) := by
  cases h with
  | entryInit | setMaxTimedOutPerPoll | count | earliestTime | missed => rfl
  | @schedule e hnone tick delay idVal g =>
      have hinsert := holders_insert hm hnone { due := tick.msecs + delay.msecs, grpLock := g } l
      have hheld := countP_isHeld g l
      have hdropped : (holds g).countP (isDropped l) = 0 := countP_holds _ (fun _ => rfl) g
      rw [List.countP_append, List.countP_append, hheld, hdropped, references, references, hinsert]
      simp only [pollHolds, isHeld, isDropped, List.countP_singleton]
      simp
      omega
  | @cancel _ e p hx hp =>
      have hremove := holders_remove hm hp l
      have hdropped := countP_isDropped p.grpLock l
      have hheld : (drops p.grpLock).countP (isHeld l) = 0 := countP_drops _ (fun _ => rfl) _
      have hpoll : (m.without e).pollHolds l = m.pollHolds l := rfl
      rw [List.countP_append, List.countP_append, hheld, hdropped, references, references, hremove,
        hpoll]
      simp [without, isHeld, isDropped]
      omega
  | poll hnone hpolls =>
      have hrest := hpolls.referenced hm l
      simpa [references, pollHolds, hnone] using hrest
  | @callbackReturned _ p _ hsome hpolls =>
      have hrest := hpolls.referenced hm l
      have hdropped := countP_isDropped p.grpLock l
      have hheld : (drops p.grpLock).countP (isHeld l) = 0 := countP_drops _ (fun _ => rfl) _
      have hpoll : m.pollHolds l = if p.grpLock = some l then 1 else 0 := by
        rw [pollHolds, hsome]
        rfl
      rw [List.countP_append, List.countP_append, hheld, hdropped, references, hpoll]
      omega

end References

/-! ## Where a timer comes from -/

section Origin

variable {m m' : Timers} {x : Input} {xs : List Input} {es : List Event} {e : Nat} {p : Pending}

def Schedules (x : Input) (e : Nat) : Prop :=
  ∃ tick delay idVal grpLock, x = .schedule e tick delay idVal grpLock

/-- The last that was heard of the entry was that it was to wait for this time. -/
def Due (xs : List Input) (e : Nat) (due : Int) : Prop :=
  ∃ before tick delay idVal grpLock after,
    xs = before ++ .schedule e tick delay idVal grpLock :: after ∧
      due = tick.msecs + delay.msecs ∧ ∀ y ∈ after, ¬ Schedules y e

theorem pending_of_without {e' : Nat} (h : (m.without e').pending e = some p) :
    m.pending e = some p := by
  by_cases hne : e = e'
  · subst hne
    simp [without] at h
  · simpa [without, hne] using h

theorem Polls.origin {now : Int} {k : Nat} {nextDelay : Bool}
    (h : m.Polls now k nextDelay es m') (hp : m'.pending e = some p) : m.pending e = some p := by
  cases h with
  | fire => exact pending_of_without hp
  | done => exact hp

theorem Step.origin (h : Step m x es m') (hp : m'.pending e = some p) :
    Due [x] e p.due ∨ m.pending e = some p ∧ ¬ Schedules x e := by
  cases h with
  | @schedule e' hnone tick delay idVal g =>
      dsimp only at hp
      by_cases hne : e = e'
      · subst hne
        rw [Function.update_self] at hp
        cases hp
        exact .inl ⟨[], tick, delay, idVal, g, [], rfl, rfl, by simp⟩
      · rw [Function.update_of_ne hne] at hp
        refine .inr ⟨hp, ?_⟩
        rintro ⟨_, _, _, _, heq⟩
        cases heq
        exact hne rfl
  | cancel hx =>
      refine .inr ⟨pending_of_without hp, ?_⟩
      rintro ⟨_, _, _, _, rfl⟩
      obtain hx | ⟨_, hx⟩ := hx <;> cases hx
  | missed hx =>
      refine .inr ⟨hp, ?_⟩
      rintro ⟨_, _, _, _, rfl⟩
      obtain hx | ⟨_, hx⟩ := hx <;> cases hx
  | poll _ hpolls | callbackReturned _ hpolls =>
      exact .inr ⟨hpolls.origin hp, by rintro ⟨_, _, _, _, heq⟩; cases heq⟩
  | entryInit | count | earliestTime | setMaxTimedOutPerPoll =>
      exact .inr ⟨hp, by rintro ⟨_, _, _, _, heq⟩; cases heq⟩

theorem origin_of_path (h : Path Step m xs es m') (hp : m'.pending e = some p) :
    Due xs e p.due ∨ m.pending e = some p ∧ ∀ y ∈ xs, ¬ Schedules y e := by
  induction h with
  | nil => exact .inr ⟨hp, by simp⟩
  | @cons _ _ _ x xs _ _ hstep _ ih =>
      obtain ⟨before, tick, delay, idVal, g, after, rfl, hdue⟩ | ⟨hp, hnone⟩ := ih hp
      · exact .inl ⟨x :: before, tick, delay, idVal, g, after, rfl, hdue⟩
      · obtain ⟨before, tick, delay, idVal, g, after, hx, hdue, hafter⟩ | ⟨hp, hx⟩ :=
          hstep.origin hp
        · refine .inl ⟨before, tick, delay, idVal, g, after ++ xs, ?_, hdue, ?_⟩
          · rw [← List.cons_append, ← List.append_assoc, ← hx, List.singleton_append]
          · intro y hy
            obtain hy | hy := List.mem_append.mp hy
            · exact hafter y hy
            · exact hnone y hy
        · exact .inr ⟨hp, List.forall_mem_cons.mpr ⟨hx, hnone⟩⟩

end Origin

end Timers

end SimpleSipClient.TimerHeap
