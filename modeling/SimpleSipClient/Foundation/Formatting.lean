import Mathlib.Algebra.Group.Nat.Defs
import Mathlib.Tactic.Common

/-! # Formatted text in bounded buffers

A format is a list of pieces. Printing a string piece stops at its first zero byte, and
printing into a buffer of a fixed size keeps as much as fits in front of the terminator.
What a format is meant to say has every piece in full; the buffer holds it exactly when
no string contains a zero byte and everything fits.
-/

namespace Foundation

abbrev Text := List UInt8

/-- A text of ASCII characters. -/
def ascii (s : String) : Text := s.toList.map fun c => UInt8.ofNat c.toNat

/-- A number as `%d` prints it. -/
def decimalText (n : Nat) : Text := (Nat.toDigits 10 n).map fun c => UInt8.ofNat c.toNat

inductive Piece where
  | literal (s : String)
  | string (t : Text)
  | decimal (n : Nat)
  deriving DecidableEq, Repr

def Piece.printed : Piece → Text
  | .literal s => ascii s
  | .string t => t.takeWhile fun b => b != 0
  | .decimal n => decimalText n

def Piece.whole : Piece → Text
  | .literal s => ascii s
  | .string t => t
  | .decimal n => decimalText n

/-- What an unbounded print stores in front of the terminator. -/
def printed (ps : List Piece) : Text := ps.flatMap Piece.printed

def whole (ps : List Piece) : Text := ps.flatMap Piece.whole

/-- What a print into `size` bytes stores in front of the terminator. -/
def bounded (size : Nat) (ps : List Piece) : Text := (printed ps).take (size - 1)

def NoZero (ps : List Piece) : Prop := ∀ t, .string t ∈ ps → 0 ∉ t

/-! ## Lengths -/

theorem decimalText_length_le {n k : Nat} (hk : 0 < k) :
    (decimalText n).length ≤ k ↔ n < 10 ^ k := by
  rw [decimalText, List.length_map]
  exact Nat.length_toDigits_le_iff (by decide) hk

theorem length_takeWhile_eq (t : Text) :
    (t.takeWhile fun b => b != 0).length = t.length ↔ 0 ∉ t := by
  induction t with
  | nil => simp
  | cons b t ih =>
      by_cases hb : b = 0
      · simp [hb]
      · have hkeep : (b != 0) = true := by simpa using hb
        have hne : (0 : UInt8) ≠ b := fun h => hb h.symm
        rw [List.takeWhile_cons, if_pos hkeep, List.length_cons, List.length_cons,
          List.mem_cons, not_or, and_iff_right hne, ← ih]
        omega

theorem Piece.printed_length_le (p : Piece) : p.printed.length ≤ p.whole.length := by
  cases p with
  | literal s => exact Nat.le_refl _
  | string t => exact (List.takeWhile_sublist _).length_le
  | decimal n => exact Nat.le_refl _

theorem Piece.printed_length_eq (p : Piece) :
    p.printed.length = p.whole.length ↔ NoZero [p] := by
  cases p with
  | literal s => simp [NoZero, printed, whole]
  | string t =>
      rw [printed, whole, length_takeWhile_eq]
      simp [NoZero]
  | decimal n => simp [NoZero, printed, whole]

theorem noZero_cons (p : Piece) (ps : List Piece) :
    NoZero (p :: ps) ↔ NoZero [p] ∧ NoZero ps := by
  simp only [NoZero, List.mem_cons, List.not_mem_nil, or_false, or_imp, forall_and]

theorem printed_length_le (ps : List Piece) : (printed ps).length ≤ (whole ps).length := by
  induction ps with
  | nil => exact Nat.le_refl _
  | cons p ps ih =>
      have hp := p.printed_length_le
      rw [printed, whole, List.flatMap_cons, List.flatMap_cons, List.length_append,
        List.length_append]
      exact Nat.add_le_add hp ih

/-- A print is as long as it should be only if it is complete. -/
theorem printed_length_eq (ps : List Piece) :
    (printed ps).length = (whole ps).length ↔ NoZero ps := by
  induction ps with
  | nil => simp [printed, whole, NoZero]
  | cons p ps ih =>
      have hp := p.printed_length_le
      have hps := printed_length_le ps
      rw [noZero_cons, ← ih, ← p.printed_length_eq, printed, whole, List.flatMap_cons,
        List.flatMap_cons, List.length_append, List.length_append, ← printed, ← whole]
      omega

theorem printed_eq_whole {ps : List Piece} (h : NoZero ps) : printed ps = whole ps := by
  induction ps with
  | nil => rfl
  | cons p ps ih =>
      rw [noZero_cons] at h
      have hp : p.printed = p.whole := by
        cases p with
        | literal s => rfl
        | string t =>
            have hzero : 0 ∉ t := h.1 t List.mem_cons_self
            exact (List.takeWhile_prefix _).eq_of_length ((length_takeWhile_eq t).mpr hzero)
        | decimal n => rfl
      rw [printed, whole, List.flatMap_cons, List.flatMap_cons, hp, ← printed, ← whole, ih h.2]

/-! ## Bounded prints -/

theorem bounded_length_lt {size : Nat} (hsize : 0 < size) (ps : List Piece) :
    (bounded size ps).length < size := by
  rw [bounded, List.length_take]
  omega

/-- The buffer holds the complete text. -/
theorem bounded_eq_whole_iff {size : Nat} (hsize : 0 < size) (ps : List Piece) :
    bounded size ps = whole ps ↔ NoZero ps ∧ (whole ps).length < size := by
  constructor
  · intro h
    have hlen := congrArg List.length h
    have hle := printed_length_le ps
    rw [bounded, List.length_take] at hlen
    refine ⟨(printed_length_eq ps).mp (by omega), ?_⟩
    omega
  · rintro ⟨hzero, hfits⟩
    rw [bounded, printed_eq_whole hzero]
    exact List.take_of_length_le (by omega)

end Foundation
