import SimpleSipClient.Foundation.Traced

/-! # Runs over a list of inputs

`forEach` performs one action for each input of a list and stops at the first
one that halts. `zoom` runs an action on a part of the state. The rules relate a
run over two lists to the runs over each of them, and carry a property of state
and remaining input along a run.
-/

namespace Foundation

namespace Traced

/-- Run `x` on the part of the state that `view` selects, under renamed events. -/
def zoom {ε ε' σ τ α : Type} (view : σ → τ) (put : τ → σ → σ) (label : ε → ε')
    (x : Traced ε τ α) : Traced ε' σ α := fun s =>
  ⟨(x (view s)).events.map label,
    match (x (view s)).outcome with
    | .ok (a, t) => .ok (a, put t s)
    | .error h => .error h⟩

section ForEach

variable {ε σ ι : Type} (f : ι → Traced ε σ Unit)

def forEach : List ι → Traced ε σ Unit
  | [] => pure ()
  | x :: xs => do
      f x
      forEach xs

variable {f} {x : ι} {xs ys : List ι} {s s' : σ} {e : Halt}

@[simp] theorem forEach_nil (s : σ) : forEach f [] s = ⟨[], .ok ((), s)⟩ := rfl

theorem forEach_ok (h : (f x s).outcome = .ok ((), s')) :
    forEach f (x :: xs) s =
      ⟨(f x s).events ++ (forEach f xs s').events, (forEach f xs s').outcome⟩ :=
  bind_ok h

theorem forEach_error (h : (f x s).outcome = .error e) :
    forEach f (x :: xs) s = ⟨(f x s).events, .error e⟩ :=
  bind_error h

/-- A run that returns has performed its first action and the rest. -/
theorem forEach_cons_returns (h : (forEach f (x :: xs) s).outcome = .ok ((), s')) :
    ∃ t, (f x s).outcome = .ok ((), t) ∧ (forEach f xs t).outcome = .ok ((), s') := by
  rcases bind_outcome_ok.mp h with ⟨_, t, hx, hxs⟩
  exact ⟨t, hx, hxs⟩

theorem forEach_append (xs ys : List ι) :
    forEach f (xs ++ ys) = (do forEach f xs; forEach f ys) := by
  funext s
  induction xs generalizing s with
  | nil => simp [bind_run]
  | cons x xs ih =>
      cases hx : (f x s).outcome with
      | error e =>
          rw [List.cons_append, forEach_error hx, bind_error (by rw [forEach_error hx]),
            forEach_error hx]
      | ok r =>
          rcases r with ⟨⟨⟩, t⟩
          rw [List.cons_append, forEach_ok hx, ih t, bind_run, bind_run, forEach_ok hx]
          rcases forEach f xs t with ⟨es, _ | ⟨_, u⟩⟩ <;> simp

theorem forEach_append_ok (h : (forEach f xs s).outcome = .ok ((), s')) :
    forEach f (xs ++ ys) s =
      ⟨(forEach f xs s).events ++ (forEach f ys s').events, (forEach f ys s').outcome⟩ := by
  rw [forEach_append]
  exact bind_ok h

theorem forEach_append_returns {t : σ} (h : (forEach f (xs ++ ys) s).outcome = .ok ((), t)) :
    ∃ s', (forEach f xs s).outcome = .ok ((), s') ∧ (forEach f ys s').outcome = .ok ((), t) := by
  rw [forEach_append] at h
  rcases bind_outcome_ok.mp h with ⟨_, s', hxs, hys⟩
  exact ⟨s', hxs, hys⟩

theorem forEach_map {κ : Type} (g : κ → ι) (ks : List κ) :
    forEach f (ks.map g) = forEach (fun k => f (g k)) ks := by
  induction ks with
  | nil => rfl
  | cons k ks ih =>
      rw [List.map_cons, forEach, ih]
      rfl

/-- Nested runs are one run over the concatenation. -/
theorem forEach_flatMap {κ : Type} (g : κ → List ι) (ks : List κ) :
    forEach f (ks.flatMap g) = forEach (fun k => forEach f (g k)) ks := by
  induction ks with
  | nil => rfl
  | cons k ks ih =>
      rw [List.flatMap_cons, forEach_append, ih]
      rfl

/-- What each action preserves, of the state and the inputs that remain, holds along
a run, and what it guarantees of its events holds of all of them. -/
theorem forEach_invariant {I : List ι → σ → Prop} {P : ε → Prop}
    (hstep : ∀ x xs s, I (x :: xs) s → (∀ e ∈ (f x s).events, P e) ∧
      ∀ s', (f x s).outcome = .ok ((), s') → I xs s')
    (h0 : I xs s) : (∀ e ∈ (forEach f xs s).events, P e) ∧
      ∀ s', (forEach f xs s).outcome = .ok ((), s') → I [] s' := by
  induction xs generalizing s with
  | nil =>
      refine ⟨by simp, fun s' h => ?_⟩
      cases h
      exact h0
  | cons x xs ih =>
      rcases hstep x xs s h0 with ⟨hP, hI⟩
      cases hx : (f x s).outcome with
      | error e =>
          rw [forEach_error hx]
          exact ⟨hP, fun _ h => by cases h⟩
      | ok r =>
          rcases r with ⟨⟨⟩, t⟩
          rcases ih (hI t hx) with ⟨hPs, hIs⟩
          rw [forEach_ok hx]
          refine ⟨fun e he => ?_, hIs⟩
          rcases List.mem_append.mp he with he | he
          · exact hP e he
          · exact hPs e he

/-- A counted loop whose states are known at every count. -/
theorem forEach_range {g : Nat → Traced ε σ Unit} {events : Nat → List ε} {state : Nat → σ}
    (n : Nat) (h : ∀ i, i < n → g i (state i) = ⟨events i, .ok ((), state (i + 1))⟩) :
    forEach g (List.range n) (state 0) =
      ⟨(List.range n).flatMap events, .ok ((), state n)⟩ := by
  induction n with
  | zero => rfl
  | succ n ih =>
      have hn := ih fun i hi => h i (Nat.lt_succ_of_lt hi)
      have hlast := h n (Nat.lt_succ_self n)
      rw [List.range_succ, forEach_append_ok (by rw [hn]), hn, forEach_ok (by rw [hlast]), hlast]
      simp

/-- A loop that only logs. -/
theorem forEach_emit (e : ι → ε) (xs : List ι) (s : σ) :
    forEach (fun x => emit (e x)) xs s = ⟨xs.map e, .ok ((), s)⟩ := by
  induction xs with
  | nil => rfl
  | cons x xs ih => rw [forEach_ok rfl, ih]; rfl

end ForEach

/-! ## What each input finds -/

section Visits

variable {ε σ ι : Type} (f : ι → Traced ε σ Unit)

/-- The inputs that are reached, each with the state it finds. -/
def visits : List ι → σ → List (ι × σ)
  | [], _ => []
  | x :: xs, s =>
      (x, s) :: match (f x s).outcome with
        | .ok ((), s') => visits xs s'
        | .error _ => []

variable {f} {x : ι} {xs ys : List ι} {s s' : σ} {e : Halt}

theorem visits_ok (h : (f x s).outcome = .ok ((), s')) :
    visits f (x :: xs) s = (x, s) :: visits f xs s' := by
  rw [visits, h]

theorem visits_error (h : (f x s).outcome = .error e) : visits f (x :: xs) s = [(x, s)] := by
  rw [visits, h]

theorem visits_singleton (x : ι) (s : σ) : visits f [x] s = [(x, s)] := by
  cases h : (f x s).outcome with
  | error e => exact visits_error h
  | ok r => exact visits_ok h

/-- The events of a run are those of its inputs, each at the state it finds. -/
theorem forEach_events (xs : List ι) (s : σ) :
    (forEach f xs s).events = (visits f xs s).flatMap fun v => (f v.1 v.2).events := by
  induction xs generalizing s with
  | nil => rfl
  | cons x xs ih =>
      cases hx : (f x s).outcome with
      | error e => rw [forEach_error hx, visits_error hx]; simp
      | ok r =>
          rcases r with ⟨⟨⟩, t⟩
          rw [forEach_ok hx, visits_ok hx, List.flatMap_cons, ih]

theorem visits_append_ok (h : (forEach f xs s).outcome = .ok ((), s')) :
    visits f (xs ++ ys) s = visits f xs s ++ visits f ys s' := by
  induction xs generalizing s with
  | nil => cases h; rfl
  | cons x xs ih =>
      rcases forEach_cons_returns h with ⟨t, hx, hxs⟩
      rw [List.cons_append, visits_ok hx, visits_ok hx, ih hxs, List.cons_append]

/-- A place in the list of visits is a place in the list of inputs, and the state found
there is the one that the inputs before it lead to. -/
theorem visits_split {vs : List (ι × σ)} {v : ι × σ} {ws : List (ι × σ)}
    (h : visits f xs s = vs ++ v :: ws) :
    ∃ ys, xs = vs.map Prod.fst ++ v.1 :: ys ∧
      (forEach f (vs.map Prod.fst) s).outcome = .ok ((), v.2) ∧
      vs = visits f (vs.map Prod.fst) s := by
  induction vs generalizing xs s with
  | nil =>
      cases xs with
      | nil => simp [visits] at h
      | cons x xs =>
          rw [visits] at h
          rcases List.cons.inj h with ⟨rfl, -⟩
          exact ⟨xs, rfl, rfl, rfl⟩
  | cons u vs ih =>
      cases xs with
      | nil => simp [visits] at h
      | cons x xs =>
          cases hx : (f x s).outcome with
          | error e => rw [visits_error hx] at h; simp at h
          | ok r =>
              rcases r with ⟨⟨⟩, t⟩
              rw [visits_ok hx, List.cons_append] at h
              rcases List.cons.inj h with ⟨rfl, hvs⟩
              rcases ih hvs with ⟨ys, hxs, hrun, hvisits⟩
              refine ⟨ys, by rw [hxs]; rfl, ?_, ?_⟩
              · rw [List.map_cons, forEach_ok hx]
                exact hrun
              · rw [List.map_cons, visits_ok hx, ← hvisits]

theorem mem_visits_input {v : ι × σ} (h : v ∈ visits f xs s) : v.1 ∈ xs := by
  rcases List.append_of_mem h with ⟨us, ws, hvs⟩
  rcases visits_split hvs with ⟨ys, rfl, -, -⟩
  simp

/-- What every input keeps, every input finds. -/
theorem visits_invariant {I : σ → Prop}
    (hstep : ∀ x s s', I s → (f x s).outcome = .ok ((), s') → I s') (h0 : I s) :
    ∀ v ∈ visits f xs s, I v.2 := by
  induction xs generalizing s with
  | nil => simp [visits]
  | cons x xs ih =>
      intro v hv
      cases hx : (f x s).outcome with
      | error e =>
          rw [visits_error hx, List.mem_singleton] at hv
          rw [hv]
          exact h0
      | ok r =>
          rcases r with ⟨⟨⟩, t⟩
          rw [visits_ok hx] at hv
          rcases List.mem_cons.mp hv with rfl | hv
          · exact h0
          · exact ih (hstep x s t h0 hx) v hv

end Visits

end Traced

end Foundation
