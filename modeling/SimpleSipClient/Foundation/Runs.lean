import SimpleSipClient.Foundation.Sequence

/-! # Runs of a system with its surroundings

Whatever happens to a system, a call, a message, a step of one of its threads, is an
input. Not every input is possible in every state: a run is a list of inputs each of
which is possible where it comes. A run is safe when the events satisfy one property and
the states another. The rules below reduce safety of runs to single steps, with a
condition on the steps or with a monitor of the inputs that says exactly which runs are
safe.
-/

namespace Foundation

open Traced

/-- Inputs performed one after the other, each possible in the state it finds. -/
structure Run {ε σ ι : Type} (act : ι → Traced ε σ Unit) (possible : σ → ι → Bool) (start : σ) where
  inputs : List ι
  each_possible : ∀ v ∈ visits act inputs start, possible v.2 v.1 = true

/-- The inputs are all consumed, each by a transition of the monitor. -/
def Accepts {ι φ : Type} (monitor : φ → ι → Option φ) : φ → List ι → Prop
  | _, [] => True
  | m, x :: xs =>
      match monitor m x with
      | some m' => Accepts monitor m' xs
      | none => False

namespace Run

variable {ε σ ι : Type} {act : ι → Traced ε σ Unit} {possible : σ → ι → Bool} {start : σ}

/-- The inputs, each with the state it finds. -/
def steps (r : Run act possible start) : List (ι × σ) := visits act r.inputs start

def events (r : Run act possible start) : List ε := (forEach act r.inputs start).events

/-- The start, and every state that a step leaves behind. -/
def Reached (r : Run act possible start) (s : σ) : Prop :=
  s = start ∨ ∃ v ∈ r.steps, (act v.1 v.2).outcome = .ok ((), s)

/-- The state that the whole run leads to. -/
def EndsIn (r : Run act possible start) (s : σ) : Prop :=
  (forEach act r.inputs start).outcome = .ok ((), s)

/-- Every event satisfies `Q` and every state satisfies `P`. -/
def Safe (r : Run act possible start) (Q : ε → Prop) (P : σ → Prop) : Prop :=
  (∀ e ∈ r.events, Q e) ∧ ∀ s, r.Reached s → P s

end Run

/-! ## What a step keeps -/

/-- The events of the step satisfy `Q`, the state that it leaves behind satisfies `I`. -/
def Keeps {ε σ : Type} (Q : ε → Prop) (I : σ → Prop) (x : Traced ε σ Unit) (s : σ) : Prop :=
  (∀ e ∈ (x s).events, Q e) ∧ ∀ s', (x s).outcome = .ok ((), s') → I s'

section Keeps

variable {ε σ α : Type} {Q : ε → Prop} {I J : σ → Prop} {s t : σ}

theorem keeps_pure (h : I s) : Keeps Q I (pure ()) s := by
  refine ⟨by simp, fun u hu => ?_⟩
  cases hu
  exact h

theorem keeps_set (h : I t) : Keeps Q I (set t) s := by
  refine ⟨by simp, fun u hu => ?_⟩
  cases hu
  exact h

theorem keeps_halt (e : Halt) : Keeps Q I (halt e) s := by
  refine ⟨by simp, fun u hu => ?_⟩
  cases hu

theorem keeps_get_bind {f : σ → Traced ε σ Unit} (h : Keeps Q I (f s) s) :
    Keeps Q I (get >>= f) s := by
  rw [Keeps, get_bind]
  exact h

theorem keeps_emit_bind {e : ε} {f : Unit → Traced ε σ Unit} (he : Q e)
    (h : Keeps Q I (f ()) s) : Keeps Q I (emit e >>= f) s := by
  rw [Keeps, emit_bind, List.forall_mem_cons]
  exact ⟨⟨he, h.1⟩, h.2⟩

theorem mem_events_bind {β : Type} {x : Traced ε σ α} {f : α → Traced ε σ β} {e : ε}
    (he : e ∈ (x s).events) : e ∈ ((x >>= f) s).events := by
  cases h : (x s).outcome with
  | error h' => rwa [bind_error h]
  | ok r =>
      rw [bind_ok h]
      exact List.mem_append_left _ he

/-- What the first part keeps is what the second part may rely on. -/
theorem keeps_bind {x : Traced ε σ Unit} {f : Unit → Traced ε σ Unit} (hx : Keeps Q J x s)
    (hf : ∀ t, J t → Keeps Q I (f ()) t) : Keeps Q I (x >>= f) s := by
  cases h : (x s).outcome with
  | error e =>
      rw [Keeps, bind_error h]
      exact ⟨hx.1, fun u hu => by cases hu⟩
  | ok r =>
      rcases r with ⟨⟨⟩, t⟩
      rcases hf t (hx.2 t h) with ⟨hQ, hI⟩
      rw [Keeps, bind_ok h]
      exact ⟨fun e he => (List.mem_append.mp he).elim (hx.1 e) (hQ e), hI⟩

end Keeps

/-! ## Single steps -/

section Steps

variable {ε σ ι : Type} {act : ι → Traced ε σ Unit} {possible : σ → ι → Bool} {start : σ}
variable {Q : ε → Prop} {P : σ → Prop}

def GoodStep (act : ι → Traced ε σ Unit) (Q : ε → Prop) (P : σ → Prop) (x : ι) (s : σ) : Prop :=
  Keeps Q P (act x) s

theorem Run.safe_iff_goodSteps (r : Run act possible start) (h0 : P start) :
    r.Safe Q P ↔ ∀ v ∈ r.steps, GoodStep act Q P v.1 v.2 := by
  have hevents : r.events = r.steps.flatMap fun v => (act v.1 v.2).events :=
    forEach_events r.inputs start
  constructor
  · rintro ⟨hQ, hP⟩ v hv
    refine ⟨fun e he => hQ e ?_, fun s' hs' => hP s' (.inr ⟨v, hv, hs'⟩)⟩
    rw [hevents]
    exact List.mem_flatMap.mpr ⟨v, hv, he⟩
  · intro h
    refine ⟨fun e he => ?_, ?_⟩
    · rw [hevents] at he
      rcases List.mem_flatMap.mp he with ⟨v, hv, he⟩
      exact (h v hv).1 e he
    · rintro s (rfl | ⟨v, hv, hs⟩)
      · exact h0
      · exact (h v hv).2 s hs

/-! ## A condition on the steps -/

section Condition

variable {I : σ → Prop} {C : ι → σ → Prop}

theorem goodSteps_of_condition {xs : List ι} {s : σ} (hP : ∀ s, I s → P s)
    (hgood : ∀ x s, I s → possible s x = true → C x s → Keeps Q I (act x) s)
    (h0 : I s) (hp : ∀ v ∈ visits act xs s, possible v.2 v.1 = true)
    (hC : ∀ v ∈ visits act xs s, C v.1 v.2) :
    ∀ v ∈ visits act xs s, GoodStep act Q P v.1 v.2 := by
  induction xs generalizing s with
  | nil => simp [visits]
  | cons x xs ih =>
      have hhead : (x, s) ∈ visits act (x :: xs) s := List.mem_cons_self
      rcases hgood x s h0 (hp _ hhead) (hC _ hhead) with ⟨hQ, hI⟩
      have hstep : GoodStep act Q P x s := ⟨hQ, fun s' hs' => hP s' (hI s' hs')⟩
      cases hx : (act x s).outcome with
      | error e =>
          rw [visits_error hx]
          simpa using hstep
      | ok r =>
          rcases r with ⟨⟨⟩, t⟩
          rw [visits_ok hx, List.forall_mem_cons] at hp hC ⊢
          exact ⟨hstep, ih (hI t hx) hp.2 hC.2⟩

theorem condition_of_goodSteps {xs : List ι} {s : σ}
    (hgood : ∀ x s, I s → possible s x = true → C x s → Keeps Q I (act x) s)
    (hbad : ∀ x s, I s → possible s x = true → ¬ C x s → ¬ GoodStep act Q P x s)
    (h0 : I s) (hp : ∀ v ∈ visits act xs s, possible v.2 v.1 = true)
    (h : ∀ v ∈ visits act xs s, GoodStep act Q P v.1 v.2) :
    ∀ v ∈ visits act xs s, C v.1 v.2 := by
  induction xs generalizing s with
  | nil => simp [visits]
  | cons x xs ih =>
      have hhead : (x, s) ∈ visits act (x :: xs) s := List.mem_cons_self
      have hC : C x s := by
        by_contra hC
        exact hbad x s h0 (hp _ hhead) hC (h _ hhead)
      cases hx : (act x s).outcome with
      | error e =>
          rw [visits_error hx]
          simpa using hC
      | ok r =>
          rcases r with ⟨⟨⟩, t⟩
          rw [visits_ok hx, List.forall_mem_cons] at hp h ⊢
          exact ⟨hC, ih ((hgood x s h0 hp.1 hC).2 t hx) hp.2 h.2⟩

/-- An invariant that every step under `C` keeps, with good events, makes a run safe. -/
theorem Run.safe_of_condition (r : Run act possible start)
    (hP : ∀ s, I s → P s) (h0 : I start)
    (hgood : ∀ x s, I s → possible s x = true → C x s → Keeps Q I (act x) s)
    (hC : ∀ v ∈ r.steps, C v.1 v.2) : r.Safe Q P := by
  rw [r.safe_iff_goodSteps (hP start h0)]
  exact goodSteps_of_condition hP hgood h0 r.each_possible hC

/-- Where a step is good exactly under `C`, given the invariant, the safe runs are those
whose steps all meet `C`. -/
theorem Run.safe_iff_condition (r : Run act possible start)
    (hP : ∀ s, I s → P s) (h0 : I start)
    (hgood : ∀ x s, I s → possible s x = true → C x s → Keeps Q I (act x) s)
    (hbad : ∀ x s, I s → possible s x = true → ¬ C x s → ¬ GoodStep act Q P x s) :
    r.Safe Q P ↔ ∀ v ∈ r.steps, C v.1 v.2 := by
  refine ⟨fun h => ?_, r.safe_of_condition hP h0 hgood⟩
  rw [r.safe_iff_goodSteps (hP start h0)] at h
  exact condition_of_goodSteps hgood hbad h0 r.each_possible h

/-! ## A trap -/

variable {D : σ → Prop} {t : σ}

theorem trap_keeps {xs : List ι} {s : σ}
    (hkeep : ∀ x s s', D s → possible s x = true → GoodStep act Q P x s →
      (act x s).outcome = .ok ((), s') → D s')
    (hD : D s) (hp : ∀ v ∈ visits act xs s, possible v.2 v.1 = true)
    (h : ∀ v ∈ visits act xs s, GoodStep act Q P v.1 v.2)
    (hend : (forEach act xs s).outcome = .ok ((), t)) : D t := by
  induction xs generalizing s with
  | nil =>
      cases hend
      exact hD
  | cons x xs ih =>
      rcases forEach_cons_returns hend with ⟨u, hx, hxs⟩
      rw [visits_ok hx, List.forall_mem_cons] at hp h
      exact ih (hkeep x s u hD hp.1 h.1 hx) hp.2 h.2 hxs

theorem condition_or_trapped {xs : List ι} {s : σ}
    (hgood : ∀ x s, I s → possible s x = true → C x s → Keeps Q I (act x) s)
    (henter : ∀ x s s', I s → possible s x = true → ¬ C x s →
      (act x s).outcome = .ok ((), s') → D s')
    (hkeep : ∀ x s s', D s → possible s x = true → GoodStep act Q P x s →
      (act x s).outcome = .ok ((), s') → D s')
    (h0 : I s) (hp : ∀ v ∈ visits act xs s, possible v.2 v.1 = true)
    (h : ∀ v ∈ visits act xs s, GoodStep act Q P v.1 v.2)
    (hend : (forEach act xs s).outcome = .ok ((), t)) :
    (∀ v ∈ visits act xs s, C v.1 v.2) ∨ D t := by
  induction xs generalizing s with
  | nil => simp [visits]
  | cons x xs ih =>
      rcases forEach_cons_returns hend with ⟨u, hx, hxs⟩
      rw [visits_ok hx, List.forall_mem_cons] at hp h
      by_cases hC : C x s
      · rw [visits_ok hx, List.forall_mem_cons, and_iff_right hC]
        exact ih ((hgood x s h0 hp.1 hC).2 u hx) hp.2 h.2 hxs
      · exact .inr (trap_keeps hkeep (henter x s u h0 hp.1 hC hx) hp.2 h.2 hxs)

/-- Where a step against the condition leads into a trap that good steps do not leave, a safe
run meets the condition throughout or ends in the trap. -/
theorem Run.condition_or_trapped (r : Run act possible start) (hP : P start) (h0 : I start)
    (hgood : ∀ x s, I s → possible s x = true → C x s → Keeps Q I (act x) s)
    (henter : ∀ x s s', I s → possible s x = true → ¬ C x s →
      (act x s).outcome = .ok ((), s') → D s')
    (hkeep : ∀ x s s', D s → possible s x = true → GoodStep act Q P x s →
      (act x s).outcome = .ok ((), s') → D s')
    (hsafe : r.Safe Q P) (hend : r.EndsIn t) : (∀ v ∈ r.steps, C v.1 v.2) ∨ D t :=
  Foundation.condition_or_trapped hgood henter hkeep h0 r.each_possible
    ((r.safe_iff_goodSteps hP).mp hsafe) hend

end Condition

/-! ## A monitor of the inputs -/

section Monitor

variable {φ : Type} {monitor : φ → ι → Option φ} {R : φ → σ → Prop}

theorem goodSteps_iff_accepts {xs : List ι} {m : φ} {s : σ}
    (hgood : ∀ m m' x s, R m s → possible s x = true → monitor m x = some m' →
      GoodStep act Q P x s ∧ ∃ s', (act x s).outcome = .ok ((), s') ∧ R m' s')
    (hbad : ∀ m x s, R m s → possible s x = true → monitor m x = none → ¬ GoodStep act Q P x s)
    (h0 : R m s) (hp : ∀ v ∈ visits act xs s, possible v.2 v.1 = true) :
    (∀ v ∈ visits act xs s, GoodStep act Q P v.1 v.2) ↔ Accepts monitor m xs := by
  induction xs generalizing m s with
  | nil => simp [visits, Accepts]
  | cons x xs ih =>
      have hhead : (x, s) ∈ visits act (x :: xs) s := List.mem_cons_self
      rw [Accepts]
      cases hm : monitor m x with
      | none =>
          have hstep := hbad m x s h0 (hp _ hhead) hm
          exact ⟨fun h => hstep (h _ hhead), False.elim⟩
      | some m' =>
          rcases hgood m m' x s h0 (hp _ hhead) hm with ⟨hstep, s', hx, hR⟩
          rw [visits_ok hx, List.forall_mem_cons] at hp ⊢
          rw [and_iff_right hstep]
          exact ih hR hp.2

/-- A monitor that follows the state and stops at the bad steps accepts the safe runs. -/
theorem Run.safe_iff_accepts (r : Run act possible start) (m0 : φ)
    (hP : ∀ m s, R m s → P s) (h0 : R m0 start)
    (hgood : ∀ m m' x s, R m s → possible s x = true → monitor m x = some m' →
      (∀ e ∈ (act x s).events, Q e) ∧ ∃ s', (act x s).outcome = .ok ((), s') ∧ R m' s')
    (hbad : ∀ m x s, R m s → possible s x = true → monitor m x = none →
      ¬ GoodStep act Q P x s) :
    r.Safe Q P ↔ Accepts monitor m0 r.inputs := by
  rw [r.safe_iff_goodSteps (hP m0 start h0)]
  refine goodSteps_iff_accepts (fun m m' x s hR hx hm => ?_) hbad h0 r.each_possible
  rcases hgood m m' x s hR hx hm with ⟨hQ, s', hs', hR'⟩
  refine ⟨⟨hQ, fun t ht => ?_⟩, s', hs', hR'⟩
  rw [hs', Except.ok.injEq, Prod.mk.injEq] at ht
  rw [← ht.2]
  exact hP m' s' hR'

end Monitor

end Steps

end Foundation
