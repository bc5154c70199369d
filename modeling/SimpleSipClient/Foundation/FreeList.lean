import Mathlib.Tactic.Common

/-! # Free lists

The numbers that nobody has are linked through the array that they index: what stands at a free
number leads to the next one, and the last one leads out of the array.
-/

namespace Foundation

def Linked (next : Nat → Int) : Int → List Nat → Int → Prop
  | head, [], stop => head = stop
  | head, x :: xs, stop => head = x ∧ Linked next (next x) xs stop

variable {next next' : Nat → Int} {head mid stop : Int} {xs ys : List Nat}

theorem Linked.congr (h : Linked next head xs stop) (heq : ∀ x ∈ xs, next' x = next x) :
    Linked next' head xs stop := by
  induction xs generalizing head with
  | nil => exact h
  | cons x xs ih =>
      obtain ⟨hhead, htail⟩ := h
      obtain ⟨hx, hxs⟩ := List.forall_mem_cons.mp heq
      refine ⟨hhead, ?_⟩
      rw [hx]
      exact ih htail hxs

theorem Linked.append (h : Linked next head xs mid) (h' : Linked next mid ys stop) :
    Linked next head (xs ++ ys) stop := by
  induction xs generalizing head with
  | nil =>
      cases h
      exact h'
  | cons x xs ih => exact ⟨h.1, ih h.2⟩

/-- Every number leads to the one after it. -/
theorem linked_range' {start n : Nat} (h : ∀ i, start ≤ i → i < start + n → next i = i + 1) :
    Linked next start (List.range' start n) ((start + n : Nat) : Int) := by
  induction n generalizing start with
  | zero => rfl
  | succ n ih =>
      rw [List.range'_succ]
      refine ⟨rfl, ?_⟩
      rw [h start (by omega) (by omega)]
      have htail : Linked next (start + 1 : Nat) (List.range' (start + 1) n) (start + 1 + n : Nat) :=
        ih fun i hlow hhigh => h i (by omega) (by omega)
      rw [show start + 1 + n = start + (n + 1) by omega] at htail
      exact htail

end Foundation
