import SimpleSipClient.Foundation.Returns

/-! # Abstract systems

An abstract system is a relation: which events an input may have, and which state it may lead
to. A system refines it if each of its steps is one of the relation, seen through an abstraction
of the states. Then a run that meets its conditions is a path, and what holds of all paths holds
of the run.
-/

namespace Foundation

open Traced

section Path

variable {ε ι α : Type} (Step : α → ι → List ε → α → Prop)

/-- One step after the other. -/
inductive Path : α → List ι → List ε → α → Prop
  | nil (a : α) : Path a [] [] a
  | cons {a b c : α} {x : ι} {xs : List ι} {es fs : List ε} (hstep : Step a x es b)
      (hpath : Path b xs fs c) : Path a (x :: xs) (es ++ fs) c

variable {Step} {a b : α} {xs : List ι} {es : List ε}

/-- What the events give and take is what the state has more in the end. -/
theorem Path.balance {I : α → Prop} {gain loss : ε → Bool} {held : α → Nat}
    (h : Path Step a xs es b) (hkeep : ∀ a x es b, I a → Step a x es b → I b)
    (hstep : ∀ a x es b, I a → Step a x es b →
      held a + es.countP gain = held b + es.countP loss)
    (h0 : I a) : held a + es.countP gain = held b + es.countP loss := by
  induction h with
  | nil => rfl
  | cons hhead _ ih =>
      have hfirst := hstep _ _ _ _ h0 hhead
      have hrest := ih (hkeep _ _ _ _ h0 hhead)
      rw [List.countP_append, List.countP_append]
      omega

end Path

section Refines

variable {ε σ ι α : Type} {act : ι → Traced ε σ Unit} {possible : σ → ι → Bool} {start s t : σ}
variable {I : σ → Prop} {C : ι → σ → Prop} {abs : σ → α} {Step : α → ι → List ε → α → Prop}

variable (hstep : ∀ x s, I s → possible s x = true → C x s →
  Returns (act x) s fun es _ t => I t ∧ Step (abs s) x es (abs t))

include hstep

theorem path_of_forEach {xs : List ι} (h0 : I s)
    (hp : ∀ v ∈ visits act xs s, possible v.2 v.1 = true)
    (hC : ∀ v ∈ visits act xs s, C v.1 v.2) (ht : (forEach act xs s).outcome = .ok ((), t)) :
    I t ∧ Path Step (abs s) xs (forEach act xs s).events (abs t) := by
  induction xs generalizing s with
  | nil =>
      cases ht
      exact ⟨h0, .nil _⟩
  | cons x xs ih =>
      have hhead : (x, s) ∈ visits act (x :: xs) s := List.mem_cons_self
      obtain ⟨es, ⟨⟩, u, hrun, hI, hS⟩ := (hstep x s h0 (hp _ hhead) (hC _ hhead)).elim
      have hout : (act x s).outcome = .ok ((), u) := by rw [hrun]
      rw [visits_ok hout, List.forall_mem_cons] at hp hC
      rw [forEach_ok hout] at ht ⊢
      obtain ⟨hlast, hpath⟩ := ih hI hp.2 hC.2 ht
      rw [hrun]
      exact ⟨hlast, .cons hS hpath⟩

/-- A run that meets its conditions is a path of the abstract system. -/
theorem Run.refines (r : Run act possible start) (h0 : I start)
    (hC : ∀ v ∈ r.steps, C v.1 v.2) (ht : r.EndsIn t) :
    Path Step (abs start) r.inputs r.events (abs t) :=
  (path_of_forEach hstep h0 r.each_possible hC ht).2

/-- So is what comes before one of its steps, and the step is one of the abstract system. -/
theorem Run.refines_at (r : Run act possible start) (h0 : I start)
    (hC : ∀ v ∈ r.steps, C v.1 v.2) {before after : List ι} {x : ι}
    (hr : r.inputs = before ++ x :: after)
    (hs : (forEach act before start).outcome = .ok ((), s)) :
    Path Step (abs start) before (forEach act before start).events (abs s) ∧
      ∃ es t, act x s = ⟨es, .ok ((), t)⟩ ∧ Step (abs s) x es (abs t) := by
  have hsteps : r.steps = visits act before start ++ visits act (x :: after) s := by
    rw [Run.steps, hr, visits_append_ok hs]
  have hpossible : ∀ v ∈ r.steps, possible v.2 v.1 = true := r.each_possible
  rw [hsteps, List.forall_mem_append] at hpossible hC
  have hhead : (x, s) ∈ visits act (x :: after) s := List.mem_cons_self
  obtain ⟨hI, hpath⟩ := path_of_forEach hstep h0 hpossible.1 hC.1 hs
  obtain ⟨es, ⟨⟩, t, hrun, -, hS⟩ :=
    (hstep x s hI (hpossible.2 _ hhead) (hC.2 _ hhead)).elim
  exact ⟨hpath, es, t, hrun, hS⟩

end Refines

end Foundation
