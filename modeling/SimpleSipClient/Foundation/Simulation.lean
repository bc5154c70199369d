import SimpleSipClient.Foundation.Runs

/-! # A part of a system as a system

A step of a system may be, for one of its parts, a few steps of that part alone, or none.
Where every step that returns is, every run that does not halt is a run of the part, with
those events that concern it.
-/

namespace Foundation

open Traced

section Simulation

variable {ε σ ι ε' σ' ι' : Type}
variable {act : ι → Traced ε σ Unit} {possible : σ → ι → Bool} {start : σ}
variable {act' : ι' → Traced ε' σ' Unit} {possible' : σ' → ι' → Bool}

/-- What the part sees: its state, its inputs and its events. -/
structure View (ε σ ι ε' σ' ι' : Type) where
  state : σ → σ'
  inputs : ι → List ι'
  event : ε → Option ε'

/-- The step is, as the view has it, a run of the part. -/
def Simulated (w : View ε σ ι ε' σ' ι') (act' : ι' → Traced ε' σ' Unit) (ys : List ι')
    (x : Traced ε σ Unit) (s : σ) : Prop :=
  ∀ t, (x s).outcome = .ok ((), t) →
    (forEach act' ys (w.state s)).outcome = .ok ((), w.state t) ∧
      (x s).events.filterMap w.event = (forEach act' ys (w.state s)).events

variable {w : View ε σ ι ε' σ' ι'} {s t : σ}

theorem simulated_pure : Simulated w act' [] (pure ()) s := by
  intro t ht
  cases ht
  exact ⟨rfl, rfl⟩

theorem simulated_get_bind {ys : List ι'} {f : σ → Traced ε σ Unit}
    (hf : Simulated w act' ys (f s) s) : Simulated w act' ys (get >>= f) s := by
  intro t ht
  rw [get_bind] at ht ⊢
  exact hf t ht

/-- One step after the other is one run after the other. -/
theorem simulated_bind {ys zs : List ι'} {x : Traced ε σ Unit} {f : Unit → Traced ε σ Unit}
    (hx : Simulated w act' ys x s) (hf : ∀ t, Simulated w act' zs (f ()) t) :
    Simulated w act' (ys ++ zs) (x >>= f) s := by
  intro u hu
  rcases bind_outcome_ok.mp hu with ⟨⟨⟩, t, ht, hu⟩
  rcases hx t ht with ⟨hrun, hevents⟩
  rcases hf t u hu with ⟨hrun', hevents'⟩
  rw [forEach_append_ok hrun, bind_ok ht]
  refine ⟨hrun', ?_⟩
  rw [List.filterMap_append, hevents, hevents']

/-- A step that the part does not notice. -/
theorem simulated_silent {zs : List ι'} {x : Traced ε σ Unit} {f : Unit → Traced ε σ Unit}
    (hx : Simulated w act' [] x s) (hf : ∀ t, Simulated w act' zs (f ()) t) :
    Simulated w act' zs (x >>= f) s :=
  simulated_bind hx hf

theorem simulated_forEach (hstep : ∀ x s, Simulated w act' (w.inputs x) (act x) s)
    (xs : List ι) (s : σ) : Simulated w act' (xs.flatMap w.inputs) (forEach act xs) s := by
  induction xs generalizing s with
  | nil => exact simulated_pure
  | cons x xs ih => exact simulated_bind (hstep x s) ih

theorem simulated_visits (hstep : ∀ x s, Simulated w act' (w.inputs x) (act x) s)
    (hpossible : ∀ x s, possible s x = true →
      ∀ v ∈ visits act' (w.inputs x) (w.state s), possible' v.2 v.1 = true)
    {xs : List ι} (hp : ∀ v ∈ visits act xs s, possible v.2 v.1 = true)
    (hend : (forEach act xs s).outcome = .ok ((), t)) :
    ∀ v ∈ visits act' (xs.flatMap w.inputs) (w.state s), possible' v.2 v.1 = true := by
  induction xs generalizing s with
  | nil => simp [visits]
  | cons x xs ih =>
      rcases forEach_cons_returns hend with ⟨u, hx, hxs⟩
      rw [visits_ok hx, List.forall_mem_cons] at hp
      rcases hstep x s u hx with ⟨hrun, -⟩
      rw [List.flatMap_cons, visits_append_ok hrun]
      intro v hv
      rcases List.mem_append.mp hv with hv | hv
      · exact hpossible x s hp.1 v hv
      · exact ih hp.2 hxs v hv

/-- The run of the part in a run that does not halt. -/
def Run.viewed (r : Run act possible start)
    (hstep : ∀ x s, Simulated w act' (w.inputs x) (act x) s)
    (hpossible : ∀ x s, possible s x = true →
      ∀ v ∈ visits act' (w.inputs x) (w.state s), possible' v.2 v.1 = true)
    (hend : r.EndsIn t) : Run act' possible' (w.state start) where
  inputs := r.inputs.flatMap w.inputs
  each_possible := simulated_visits hstep hpossible r.each_possible hend

/-- Its events are those that the view lets through. -/
theorem Run.viewed_events (r : Run act possible start)
    (hstep : ∀ x s, Simulated w act' (w.inputs x) (act x) s)
    (hpossible : ∀ x s, possible s x = true →
      ∀ v ∈ visits act' (w.inputs x) (w.state s), possible' v.2 v.1 = true)
    (hend : r.EndsIn t) :
    (r.viewed hstep hpossible hend).events = r.events.filterMap w.event :=
  (simulated_forEach hstep r.inputs start t hend).2.symm

end Simulation

end Foundation
