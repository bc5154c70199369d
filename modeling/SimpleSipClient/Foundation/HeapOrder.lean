import Mathlib.Order.Lattice
import Mathlib.Logic.Function.Basic
import Mathlib.Tactic.Common

/-! # Heap order

The places of a heap form a binary tree: the place `i + 1` stands below `i / 2`. A value that is
put into a heap, or that takes the place of one that was removed, first leaves a gap, which
moves until the value fits. A gap is harmless as long as the places below it are not smaller
than the place above it.
-/

namespace Foundation

def parentOf (i : Nat) : Nat := (i - 1) / 2

theorem parentOf_lt {i : Nat} (hi : 0 < i) : parentOf i < i := by
  unfold parentOf
  omega

theorem parentOf_eq_iff {i j : Nat} (hi : 0 < i) :
    parentOf i = j ↔ i = 2 * j + 1 ∨ i = 2 * j + 2 := by
  unfold parentOf
  omega

variable {α : Type} [LinearOrder α] {value : Nat → α} {m n gap : Nat} {v : α}

def HeapOrdered (value : Nat → α) (n : Nat) : Prop :=
  ∀ i, 0 < i → i < n → value (parentOf i) ≤ value i

/-- In order except at the gap, and in order across it. -/
structure Gapped (value : Nat → α) (n gap : Nat) : Prop where
  off : ∀ i, 0 < i → i < n → i ≠ gap → parentOf i ≠ gap → value (parentOf i) ≤ value i
  across : ∀ i, 0 < i → i < n → parentOf i = gap → 0 < gap → value (parentOf gap) ≤ value i

/-- The value may stand above all that is below the gap. -/
def Below (value : Nat → α) (n gap : Nat) (v : α) : Prop :=
  ∀ i, 0 < i → i < n → parentOf i = gap → v ≤ value i

theorem HeapOrdered.least (h : HeapOrdered value n) {i : Nat} (hi : i < n) :
    value 0 ≤ value i := by
  induction i using Nat.strongRecOn with
  | ind i ih =>
      rcases Nat.eq_zero_or_pos i with rfl | hpos
      · exact le_refl _
      · have hparent := parentOf_lt hpos
        exact le_trans (ih _ hparent (by omega)) (h i hpos hi)

theorem HeapOrdered.mono (h : HeapOrdered value n) (hm : m ≤ n) : HeapOrdered value m :=
  fun i hpos hi => h i hpos (by omega)

theorem HeapOrdered.congr {value' : Nat → α} (h : HeapOrdered value n)
    (heq : ∀ i, i < n → value' i = value i) : HeapOrdered value' n := by
  intro i hpos hi
  have hparent := parentOf_lt hpos
  rw [heq i hi, heq _ (by omega)]
  exact h i hpos hi

theorem HeapOrdered.gapped (h : HeapOrdered value n) (gap : Nat) : Gapped value n gap where
  off i hpos hi _ _ := h i hpos hi
  across i hpos hi hgap hpos' := by
    have hlt := parentOf_lt hpos
    rw [hgap] at hlt
    have hi' := h i hpos hi
    rw [hgap] at hi'
    exact le_trans (h gap hpos' (by omega)) hi'

/-- A place at the end. -/
theorem HeapOrdered.gapped_last (h : HeapOrdered value n) : Gapped value (n + 1) n where
  off i hpos hi hne _ := h i hpos (by omega)
  across i hpos hi hparent _ := by
    have hlt := parentOf_lt hpos
    omega

theorem below_last : Below value (n + 1) n v := by
  intro i hpos hi hparent
  have hlt := parentOf_lt hpos
  omega

theorem Gapped.fill (h : Gapped value n gap) (habove : 0 < gap → value (parentOf gap) ≤ v)
    (hbelow : Below value n gap v) : HeapOrdered (Function.update value gap v) n := by
  intro i hpos hi
  have hlt := parentOf_lt hpos
  by_cases hgap : i = gap
  · subst hgap
    rw [Function.update_self, Function.update_of_ne (Nat.ne_of_lt hlt)]
    exact habove hpos
  · rw [Function.update_of_ne hgap]
    by_cases hparent : parentOf i = gap
    · rw [hparent, Function.update_self]
      exact hbelow i hpos hi hparent
    · rw [Function.update_of_ne hparent]
      exact h.off i hpos hi hgap hparent

/-- The value at the gap does not count. -/
theorem Gapped.update (h : Gapped value n gap) (v : α) :
    Gapped (Function.update value gap v) n gap where
  off i hpos hi hne hparent := by
    rw [Function.update_of_ne hne, Function.update_of_ne hparent]
    exact h.off i hpos hi hne hparent
  across i hpos hi hparent hpos' := by
    have hlt := parentOf_lt hpos
    have hup := parentOf_lt hpos'
    rw [Function.update_of_ne (by omega), Function.update_of_ne (by omega)]
    exact h.across i hpos hi hparent hpos'

/-- What is smaller than the place above the gap is smaller than all below it. -/
theorem Gapped.below (h : Gapped value n gap) (hpos : 0 < gap)
    (hv : v ≤ value (parentOf gap)) : Below value n gap v :=
  fun i hi hn hparent => le_trans hv (h.across i hi hn hparent hpos)

/-! ## Up -/

section Up

variable (h : Gapped value n gap) (hpos : 0 < gap)

include h hpos

theorem Gapped.up : Gapped (Function.update value gap (value (parentOf gap))) n (parentOf gap) where
  off i hi hn hne hparent := by
    have hlt := parentOf_lt hi
    by_cases hgap : i = gap
    · exact absurd (congrArg parentOf hgap) hparent
    · rw [Function.update_of_ne hgap]
      by_cases hchild : parentOf i = gap
      · rw [hchild, Function.update_self]
        exact h.across i hi hn hchild hpos
      · rw [Function.update_of_ne hchild]
        exact h.off i hi hn hgap hchild
  across i hi hn hparent hpos' := by
    have hup := parentOf_lt hpos
    have hup' := parentOf_lt hpos'
    have htop : value (parentOf (parentOf gap)) ≤ value (parentOf gap) ∨ n ≤ parentOf gap := by
      by_cases hlt : parentOf gap < n
      · exact .inl (h.off _ hpos' hlt (by omega) (by omega))
      · exact .inr (by omega)
    have hi' := parentOf_lt hi
    rw [Function.update_of_ne (by omega)]
    obtain htop | htop := htop
    · by_cases hgap : i = gap
      · rw [hgap, Function.update_self]
        exact htop
      · rw [Function.update_of_ne hgap]
        have hside := h.off i hi hn hgap (by omega)
        rw [hparent] at hside
        exact le_trans htop hside
    · omega

theorem Gapped.below_up (hv : v ≤ value (parentOf gap)) :
    Below (Function.update value gap (value (parentOf gap))) n (parentOf gap) v := by
  intro i hi hn hparent
  by_cases hgap : i = gap
  · rw [hgap, Function.update_self]
    exact hv
  · have hup := parentOf_lt hpos
    rw [Function.update_of_ne hgap]
    have hside := h.off i hi hn hgap (by omega)
    rw [hparent] at hside
    exact le_trans hv hside

end Up

/-! ## Down -/

/-- The place below the gap with the smallest value. -/
structure Least (value : Nat → α) (n gap child : Nat) : Prop where
  pos : 0 < child
  lt : child < n
  parent : parentOf child = gap
  least : ∀ i, 0 < i → i < n → parentOf i = gap → value child ≤ value i

section Down

variable {child : Nat} (h : Gapped value n gap) (hchild : Least value n gap child)

include hchild

theorem Least.gap_lt : gap < child := hchild.parent ▸ parentOf_lt hchild.pos

include h

theorem Gapped.down : Gapped (Function.update value gap (value child)) n child where
  off i hi hn hne hparent := by
    have hlt := parentOf_lt hi
    by_cases hgap : i = gap
    · subst hgap
      rw [Function.update_self, Function.update_of_ne (Nat.ne_of_lt hlt)]
      exact h.across child hchild.pos hchild.lt hchild.parent hi
    · rw [Function.update_of_ne hgap]
      by_cases hside : parentOf i = gap
      · rw [hside, Function.update_self]
        exact hchild.least i hi hn hside
      · rw [Function.update_of_ne hside]
        exact h.off i hi hn hgap hside
  across i hi hn hparent _ := by
    have hlt := hchild.gap_lt
    have hi' := parentOf_lt hi
    rw [hchild.parent, Function.update_self, Function.update_of_ne (by omega)]
    have hbelow := h.off i hi hn (by omega) (by omega)
    rwa [hparent] at hbelow

omit h in
theorem Least.above_down (hv : value child ≤ v) :
    Function.update value gap (value child) (parentOf child) ≤ v := by
  rw [hchild.parent, Function.update_self]
  exact hv

end Down

end Foundation
