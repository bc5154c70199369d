import Mathlib.Tactic.Common

/-! # Traced computations

A computation runs on a state, logs events in order and either returns a value
with the new state or halts early. The events made before an early halt stay
observable, so a safety statement about events also covers the runs that halt.
-/

namespace Foundation

/-- Why a computation ended without a value. -/
inductive Halt where
  | invalid
  | exhausted
  deriving DecidableEq, Repr

/-- The events of one computation, and the value and state it ended with. -/
structure Exec (ε σ α : Type) where
  events : List ε
  outcome : Except Halt (α × σ)

/-- A computation that logs events of type `ε` and may halt early. -/
def Traced (ε σ α : Type) : Type := σ → Exec ε σ α

namespace Traced

variable {ε σ α β : Type}

def ret (a : α) : Traced ε σ α := fun s => ⟨[], .ok (a, s)⟩

def andThen (x : Traced ε σ α) (f : α → Traced ε σ β) : Traced ε σ β := fun s =>
  match x s with
  | ⟨es, .ok (a, s')⟩ => ⟨es ++ (f a s').events, (f a s').outcome⟩
  | ⟨es, .error h⟩ => ⟨es, .error h⟩

instance : Monad (Traced ε σ) where
  pure := ret
  bind := andThen

def get : Traced ε σ σ := fun s => ⟨[], .ok (s, s)⟩

def set (s : σ) : Traced ε σ Unit := fun _ => ⟨[], .ok ((), s)⟩

def emit (e : ε) : Traced ε σ Unit := fun s => ⟨[e], .ok ((), s)⟩

def halt (h : Halt) : Traced ε σ α := fun _ => ⟨[], .error h⟩

/-! ## Running a composition -/

@[simp] theorem pure_run (a : α) (s : σ) : (pure a : Traced ε σ α) s = ⟨[], .ok (a, s)⟩ := rfl

@[simp] theorem get_run (s : σ) : (get : Traced ε σ σ) s = ⟨[], .ok (s, s)⟩ := rfl

@[simp] theorem set_run (s t : σ) : (set t : Traced ε σ Unit) s = ⟨[], .ok ((), t)⟩ := rfl

@[simp] theorem emit_run (e : ε) (s : σ) : (emit e : Traced ε σ Unit) s = ⟨[e], .ok ((), s)⟩ := rfl

@[simp] theorem halt_run (h : Halt) (s : σ) : (halt h : Traced ε σ α) s = ⟨[], .error h⟩ := rfl

theorem bind_run (x : Traced ε σ α) (f : α → Traced ε σ β) (s : σ) :
    (x >>= f) s = match x s with
      | ⟨es, .ok (a, s')⟩ => ⟨es ++ (f a s').events, (f a s').outcome⟩
      | ⟨es, .error h⟩ => ⟨es, .error h⟩ := rfl

theorem bind_ok {x : Traced ε σ α} {f : α → Traced ε σ β} {s s' : σ} {a : α}
    (h : (x s).outcome = .ok (a, s')) :
    (x >>= f) s = ⟨(x s).events ++ (f a s').events, (f a s').outcome⟩ := by
  rw [bind_run]
  rcases hx : x s with ⟨es, o⟩
  rw [hx] at h
  cases h
  rfl

theorem bind_error {x : Traced ε σ α} {f : α → Traced ε σ β} {s : σ} {e : Halt}
    (h : (x s).outcome = .error e) : (x >>= f) s = ⟨(x s).events, .error e⟩ := by
  rw [bind_run]
  rcases hx : x s with ⟨es, o⟩
  rw [hx] at h
  cases h
  rfl

theorem get_bind (f : σ → Traced ε σ α) (s : σ) : (get >>= f) s = f s s := by
  simp [bind_run]

theorem set_bind (t : σ) (f : Unit → Traced ε σ α) (s : σ) : (set t >>= f) s = f () t := by
  simp [bind_run]

theorem emit_bind (e : ε) (f : Unit → Traced ε σ α) (s : σ) :
    (emit e >>= f) s = ⟨e :: (f () s).events, (f () s).outcome⟩ := by
  simp [bind_run]

theorem ite_run (p : Prop) [Decidable p] (x y : Traced ε σ α) (s : σ) :
    (if p then x else y) s = if p then x s else y s := by
  split <;> rfl

/-- A run without a halt ends in some state. -/
theorem returns_of_isOk {o : Except Halt (Unit × σ)} (h : o.isOk = true) :
    ∃ s, o = .ok ((), s) := by
  cases o with
  | error e => cases h
  | ok r => exact ⟨r.2, rfl⟩

/-- A composition returns exactly when its two parts return one after the other. -/
theorem bind_outcome_ok {x : Traced ε σ α} {f : α → Traced ε σ β} {s s'' : σ} {b : β} :
    ((x >>= f) s).outcome = .ok (b, s'') ↔
      ∃ a s', (x s).outcome = .ok (a, s') ∧ (f a s').outcome = .ok (b, s'') := by
  rw [bind_run]
  rcases x s with ⟨es, _ | ⟨a, s'⟩⟩ <;> simp

end Traced

end Foundation
