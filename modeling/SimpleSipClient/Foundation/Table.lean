import Mathlib.Data.Set.Card

/-! # Tables

Objects that are numbered in order of creation are kept in a list: a new one is appended,
an old one is changed in its place. What is found in the table afterwards was there
before, changed or not, or is the new one.
-/

namespace Foundation

section Table

variable {α : Type} {xs : List α} {x y : α} {j k : Nat} {f : α → α}

theorem entry_of_append (h : (xs ++ [x])[k]? = some y) :
    xs[k]? = some y ∨ k = xs.length ∧ y = x := by
  rw [List.getElem?_append] at h
  split at h
  · exact .inl h
  · rw [List.getElem?_singleton] at h
    split at h
    · exact .inr ⟨by omega, (Option.some.inj h).symm⟩
    · cases h

theorem entry_of_modify (h : (xs.modify k f)[j]? = some y) :
    ∃ z, xs[j]? = some z ∧ y = if k = j then f z else z := by
  rw [List.getElem?_modify] at h
  rcases Option.map_eq_some_iff.mp h with ⟨z, hz, hy⟩
  exact ⟨z, hz, hy.symm⟩

theorem modify_last (xs : List α) (x : α) (f : α → α) :
    (xs ++ [x]).modify xs.length f = xs ++ [f x] := by
  induction xs with
  | nil => rfl
  | cons y xs ih => simp [ih]

theorem modify_of_fixed (h : xs[k]? = some x) (hx : f x = x) : xs.modify k f = xs := by
  refine List.ext_getElem? fun j => ?_
  rw [List.getElem?_modify]
  by_cases hj : k = j
  · subst hj
    simp [h, hx]
  · simp [hj]

theorem countP_modify {p : α → Bool} (h : xs[k]? = some x) :
    (xs.modify k f).countP p + (if p x then 1 else 0) =
      xs.countP p + if p (f x) then 1 else 0 := by
  induction xs generalizing k with
  | nil => simp at h
  | cons y ys ih =>
      cases k with
      | zero =>
          cases h
          simp only [List.modify_zero_cons, List.countP_cons]
          omega
      | succ k =>
          have htail := ih h
          simp only [List.modify_succ_cons, List.countP_cons]
          omega

theorem ncard_places (xs : List α) (p : α → Bool) :
    {k : Nat | ∃ x, xs[k]? = some x ∧ p x = true}.ncard = xs.countP p := by
  induction xs using List.reverseRecOn with
  | nil => simp
  | append_singleton xs y ih =>
      have hold : {k : Nat | ∃ x, xs[k]? = some x ∧ p x = true} ⊆ {k | k < xs.length} := by
        rintro k ⟨x, hx, -⟩
        exact (List.getElem?_eq_some_iff.mp hx).1
      have hfinite := (Set.finite_lt_nat xs.length).subset hold
      have hfresh : xs.length ∉ {k : Nat | ∃ x, xs[k]? = some x ∧ p x = true} :=
        fun hmem => Nat.lt_irrefl _ (hold hmem)
      have hiff : ∀ k : Nat, (∃ x, (xs ++ [y])[k]? = some x ∧ p x = true) ↔
          (∃ x, xs[k]? = some x ∧ p x = true) ∨ k = xs.length ∧ p y = true := by
        intro k
        constructor
        · rintro ⟨x, hx, hpx⟩
          obtain hx | ⟨hk, rfl⟩ := entry_of_append hx
          · exact .inl ⟨x, hx, hpx⟩
          · exact .inr ⟨hk, hpx⟩
        · rintro (⟨x, hx, hpx⟩ | ⟨rfl, hpy⟩)
          · refine ⟨x, ?_, hpx⟩
            rw [List.getElem?_append_left (List.getElem?_eq_some_iff.mp hx).1]
            exact hx
          · exact ⟨y, by simp, hpy⟩
      rw [List.countP_append, List.countP_singleton, ← ih]
      by_cases hpy : p y = true
      · have hset : {k : Nat | ∃ x, (xs ++ [y])[k]? = some x ∧ p x = true} =
            insert xs.length {k : Nat | ∃ x, xs[k]? = some x ∧ p x = true} := by
          ext k
          rw [Set.mem_ofPred_eq, hiff, Set.mem_insert_iff, Set.mem_ofPred_eq]
          simp [hpy, or_comm]
        rw [hset, Set.ncard_insert_of_notMem hfresh hfinite, if_pos hpy]
      · simp only [hiff, hpy, and_false, or_false, Bool.false_eq_true, if_false, Nat.add_zero]

end Table

end Foundation
