import Mathlib.Tactic.Common

/-! # Streams of framed messages

A framing writes a message so that a reader finds its end whatever follows. A
stream of such messages is then read back message by message, with nothing lost
and nothing left over.
-/

namespace Foundation

/-- Messages of type `μ` written as nonempty lists, and a reader that returns the
message in front together with the rest. -/
structure Framing (α μ : Type) where
  encode : μ → List α
  read : List α → Option (μ × List α)
  encode_ne_nil : ∀ m, encode m ≠ []
  read_encode : ∀ m rest, read (encode m ++ rest) = some (m, rest)

namespace Framing

variable {α μ : Type} (F : Framing α μ)

/-- At most `fuel` messages; `none` where the stream does not go on with a message. -/
def readMany : Nat → List α → Option (List μ)
  | _, [] => some []
  | 0, _ :: _ => none
  | fuel + 1, x :: xs =>
      match F.read (x :: xs) with
      | some (m, rest) => (readMany fuel rest).map (m :: ·)
      | none => none

/-- Read until nothing is left. -/
def readAll (xs : List α) : Option (List μ) := F.readMany xs.length xs

theorem readMany_cons (fuel : Nat) (m : μ) (rest : List α) :
    F.readMany (fuel + 1) (F.encode m ++ rest) = (F.readMany fuel rest).map (m :: ·) := by
  rcases List.exists_cons_of_ne_nil (F.encode_ne_nil m) with ⟨x, xs, hx⟩
  have hread := F.read_encode m rest
  rw [hx, List.cons_append] at hread ⊢
  rw [readMany, hread]

theorem readMany_flatMap {fuel : Nat} {ms : List μ} (h : ms.length ≤ fuel) :
    F.readMany fuel (ms.flatMap F.encode) = some ms := by
  induction ms generalizing fuel with
  | nil => cases fuel <;> rfl
  | cons m ms ih =>
      obtain ⟨fuel, rfl⟩ : ∃ k, fuel = k + 1 := ⟨fuel - 1, by simp at h; omega⟩
      rw [List.flatMap_cons, readMany_cons, ih (by simpa using h)]
      rfl

theorem length_le_encoded (ms : List μ) : ms.length ≤ (ms.flatMap F.encode).length := by
  induction ms with
  | nil => simp
  | cons m ms ih =>
      have hm := List.length_pos_iff.mpr (F.encode_ne_nil m)
      rw [List.flatMap_cons, List.length_append, List.length_cons]
      omega

/-- A stream of written messages is read back exactly. -/
theorem readAll_flatMap (ms : List μ) : F.readAll (ms.flatMap F.encode) = some ms :=
  F.readMany_flatMap (F.length_le_encoded ms)

end Framing

end Foundation
