import Mathlib.Data.List.GetD
import Mathlib.Tactic.Common

/-! # Bounded blocks of memory

A block is a run of cells with a size. Cells outside the block carry the
default value, so two blocks with the same size and the same cells inside are
equal. Copies read the block as it was before the copy, whatever the overlap of
the two ranges.
-/

namespace Foundation

@[ext] structure Block (α : Type) [Inhabited α] where
  size : Nat
  cell : Nat → α
  outside : ∀ i, size ≤ i → cell i = default

namespace Block

variable {α : Type} [Inhabited α]

/-- A block of `n` default cells. -/
def blank (n : Nat) : Block α := ⟨n, fun _ => default, fun _ _ => rfl⟩

def ofList (xs : List α) : Block α where
  size := xs.length
  cell i := xs.getD i default
  outside _ hi := List.getD_eq_default _ _ hi

/-- Copy `n` cells from `src` to `dest`, as if through a temporary. -/
def copy (b : Block α) (dest src n : Nat) : Block α where
  size := b.size
  cell i := if i < b.size ∧ dest ≤ i ∧ i < dest + n then b.cell (src + (i - dest)) else b.cell i
  outside i hi := by
    rw [if_neg (by omega)]
    exact b.outside i hi

/-- Store `xs` from offset `dest` on. -/
def write (b : Block α) (dest : Nat) (xs : List α) : Block α where
  size := b.size
  cell i :=
    if i < b.size ∧ dest ≤ i ∧ i < dest + xs.length then xs.getD (i - dest) default else b.cell i
  outside i hi := by
    rw [if_neg (by omega)]
    exact b.outside i hi

/-- Reset the first `n` cells. -/
def clear (b : Block α) (n : Nat) : Block α where
  size := b.size
  cell i := if i < n then default else b.cell i
  outside i hi := by
    split
    · rfl
    · exact b.outside i hi

/-- The `n` cells from offset `i` on. -/
def slice (b : Block α) (i n : Nat) : List α := (List.range n).map fun k => b.cell (i + k)

/-! ## Projections -/

@[simp] theorem blank_size (n : Nat) : (blank n : Block α).size = n := rfl

@[simp] theorem blank_cell (n i : Nat) : (blank n : Block α).cell i = default := rfl

@[simp] theorem ofList_size (xs : List α) : (ofList xs).size = xs.length := rfl

@[simp] theorem copy_size (b : Block α) (dest src n : Nat) :
    (b.copy dest src n).size = b.size := rfl

@[simp] theorem write_size (b : Block α) (dest : Nat) (xs : List α) :
    (b.write dest xs).size = b.size := rfl

theorem clear_eq_blank {b : Block α} {n : Nat} (h : b.size ≤ n) : b.clear n = blank b.size := by
  ext i
  · rfl
  · simp only [clear, blank_cell]
    split
    · rfl
    · exact b.outside i (by omega)

@[simp] theorem slice_length (b : Block α) (i n : Nat) : (b.slice i n).length = n := by
  simp [slice]

@[simp] theorem slice_zero (b : Block α) (i : Nat) : b.slice i 0 = [] := rfl

theorem copy_cell_outside {b : Block α} {dest src n i : Nat} (h : i < dest ∨ dest + n ≤ i) :
    (b.copy dest src n).cell i = b.cell i := by
  simp only [copy]
  rw [if_neg (by omega)]

theorem copy_cell_inside {b : Block α} {dest src n i : Nat} (hi : i < n)
    (hb : dest + n ≤ b.size) : (b.copy dest src n).cell (dest + i) = b.cell (src + i) := by
  simp only [copy]
  rw [if_pos (by omega), Nat.add_sub_cancel_left]

theorem write_cell_outside {b : Block α} {dest i : Nat} {xs : List α}
    (h : i < dest ∨ dest + xs.length ≤ i) : (b.write dest xs).cell i = b.cell i := by
  simp only [write]
  rw [if_neg (by omega)]

theorem write_cell_inside {b : Block α} {dest i : Nat} {xs : List α} (hi : i < xs.length)
    (hb : dest + xs.length ≤ b.size) : (b.write dest xs).cell (dest + i) = xs[i] := by
  simp only [write]
  rw [if_pos (by omega), Nat.add_sub_cancel_left, List.getD_eq_getElem _ _ hi]

/-- Two ranges of `n` cells, from `i` and from `j` on, with no cell in common. -/
def Apart (i j n : Nat) : Prop := ∀ k, i ≤ k → k < i + n → ¬ (j ≤ k ∧ k < j + n)

theorem apart_iff {i j n : Nat} : Apart i j n ↔ n = 0 ∨ i + n ≤ j ∨ j + n ≤ i := by
  constructor
  · intro h
    -- the larger start is a common cell, if there is any
    have hi := h i
    have hj := h j
    omega
  · intro h k
    omega

/-! ## Slices -/

theorem slice_add (b : Block α) (i m n : Nat) :
    b.slice i (m + n) = b.slice i m ++ b.slice (i + m) n := by
  simp [slice, List.range_add, Function.comp_def, Nat.add_assoc]

theorem slice_congr {b b' : Block α} {i j n : Nat}
    (h : ∀ k, k < n → b.cell (i + k) = b'.cell (j + k)) : b.slice i n = b'.slice j n := by
  apply List.map_congr_left
  intro k hk
  exact h k (List.mem_range.mp hk)

theorem slice_getElem {b : Block α} {i n k : Nat} (hk : k < (b.slice i n).length) :
    (b.slice i n)[k] = b.cell (i + k) := by
  simp [slice]

theorem slice_copy {b : Block α} {dest src n : Nat} (hb : dest + n ≤ b.size) :
    (b.copy dest src n).slice dest n = b.slice src n :=
  slice_congr fun _ hk => copy_cell_inside hk hb

theorem slice_copy_before {b : Block α} {dest src n i m : Nat} (h : i + m ≤ dest) :
    (b.copy dest src n).slice i m = b.slice i m :=
  slice_congr fun _ _ => copy_cell_outside (by omega)

theorem slice_write {b : Block α} {dest : Nat} {xs : List α} (hb : dest + xs.length ≤ b.size) :
    (b.write dest xs).slice dest xs.length = xs := by
  apply List.ext_getElem (by simp)
  intro k _ hk
  rw [slice_getElem]
  exact write_cell_inside hk hb

/-- Two adjacent stores are one store of the concatenation. -/
theorem write_write {b : Block α} {dest : Nat} {xs ys : List α}
    (hb : dest + xs.length + ys.length ≤ b.size) :
    (b.write dest xs).write (dest + xs.length) ys = b.write dest (xs ++ ys) := by
  have hxy : (xs ++ ys).length = xs.length + ys.length := List.length_append
  ext i
  · rfl
  by_cases hlo : i < dest
  · rw [write_cell_outside (by omega), write_cell_outside (by omega),
      write_cell_outside (by omega)]
  rcases Nat.exists_eq_add_of_le (Nat.le_of_not_lt hlo) with ⟨k, rfl⟩
  by_cases hx : k < xs.length
  · rw [write_cell_outside (by omega), write_cell_inside hx (by omega),
      write_cell_inside (by omega) (by omega), List.getElem_append_left hx]
  rcases Nat.exists_eq_add_of_le (Nat.le_of_not_lt hx) with ⟨j, rfl⟩
  by_cases hy : j < ys.length
  · rw [← Nat.add_assoc, write_cell_inside hy (by simpa using hb), Nat.add_assoc,
      write_cell_inside (by omega) (by omega), List.getElem_append_right (by omega)]
    simp
  · rw [write_cell_outside (by omega), write_cell_outside (by omega),
      write_cell_outside (by omega)]

@[simp] theorem write_nil (b : Block α) (dest : Nat) : b.write dest [] = b := by
  ext i
  · rfl
  · simp only [write, List.length_nil]
    rw [if_neg (by omega)]

/-! ## Blocks that hold a list at an offset -/

/-- The block holds `xs` from offset `i` on. -/
def Reads (b : Block α) (i : Nat) (xs : List α) : Prop := b.slice i xs.length = xs

theorem reads_nil (b : Block α) (i : Nat) : b.Reads i [] := rfl

theorem reads_slice (b : Block α) (i n : Nat) : b.Reads i (b.slice i n) := by
  unfold Reads
  rw [slice_length]

theorem reads_write {b : Block α} {dest : Nat} {xs : List α} (hb : dest + xs.length ≤ b.size) :
    (b.write dest xs).Reads dest xs :=
  slice_write hb

theorem reads_ofList (xs : List α) : (ofList xs).Reads 0 xs := by
  apply List.ext_getElem (by simp)
  intro k _ hk
  rw [slice_getElem]
  simp [ofList, hk]

/-- Holding a concatenation is holding its two parts one after the other. -/
theorem reads_append {b : Block α} {i : Nat} {xs ys : List α} :
    b.Reads i (xs ++ ys) ↔ b.Reads i xs ∧ b.Reads (i + xs.length) ys := by
  unfold Reads
  rw [List.length_append, slice_add]
  constructor
  · intro h
    exact List.append_inj h (by simp)
  · rintro ⟨hx, hy⟩
    rw [hx, hy]

theorem reads_cons {b : Block α} {i : Nat} {x : α} {xs : List α} :
    b.Reads i (x :: xs) ↔ b.cell i = x ∧ b.Reads (i + 1) xs := by
  rw [← List.singleton_append, reads_append]
  simp [Reads, slice]

/-! ## Rows

`n` rows of `w` cells each, stored one behind the other.
-/

section Rows

variable {b : Block α} {row : Nat → List α} {a w n : Nat}

def writeRows (b : Block α) (a w : Nat) (row : Nat → List α) : Nat → Block α
  | 0 => b
  | n + 1 => (writeRows b a w row n).write (a + n * w) (row n)

omit [Inhabited α] in
theorem flatMap_rows_length (hw : ∀ i, (row i).length = w) (n : Nat) :
    ((List.range n).flatMap row).length = n * w := by
  induction n with
  | zero => simp
  | succ n ih =>
      rw [List.range_succ, List.flatMap_append, List.length_append, ih, List.flatMap_singleton, hw,
        Nat.succ_mul]

@[simp] theorem writeRows_size (n : Nat) : (b.writeRows a w row n).size = b.size := by
  induction n with
  | zero => rfl
  | succ n ih => rw [writeRows, write_size, ih]

/-- Rows that fit are one store of all of them. -/
theorem writeRows_eq_write (hw : ∀ i, (row i).length = w) (hb : a + n * w ≤ b.size) :
    b.writeRows a w row n = b.write a ((List.range n).flatMap row) := by
  induction n with
  | zero => exact (write_nil b a).symm
  | succ n ih =>
      have hlen := flatMap_rows_length hw n
      rw [Nat.succ_mul] at hb
      have hfit : a + n * w ≤ b.size := by omega
      rw [writeRows, ih hfit, ← hlen, write_write (by rw [hlen, hw]; omega), List.range_succ,
        List.flatMap_append, List.flatMap_singleton]

/-- A block that holds all rows holds each of them at its place. -/
theorem reads_row (hw : ∀ i, (row i).length = w) (h : b.Reads a ((List.range n).flatMap row))
    {i : Nat} (hi : i < n) : b.Reads (a + i * w) (row i) := by
  induction n with
  | zero => omega
  | succ n ih =>
      rw [List.range_succ, List.flatMap_append, reads_append, List.flatMap_singleton,
        flatMap_rows_length hw] at h
      rcases Nat.lt_succ_iff_lt_or_eq.mp hi with hlt | rfl
      · exact ih h.1 hlt
      · exact h.2

theorem Reads.cell {xs : List α} (h : b.Reads a xs) {k : Nat} (hk : k < xs.length) :
    b.cell (a + k) = xs[k] := by
  have hk' : k < (b.slice a xs.length).length := by simpa using hk
  rw [← slice_getElem hk', List.getElem_of_eq h]

end Rows

end Block

/-- The places of rows that lie one behind the other are consecutive. -/
theorem range'_rows (a w n : Nat) :
    ((List.range n).flatMap fun i => List.range' (a + i * w) w) = List.range' a (n * w) := by
  induction n with
  | zero => simp
  | succ n ih =>
      rw [List.range_succ, List.flatMap_append, ih, List.flatMap_singleton, Nat.succ_mul,
        ← List.range'_append_1]

end Foundation
