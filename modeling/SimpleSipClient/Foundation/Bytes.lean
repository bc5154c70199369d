import Mathlib.Algebra.Group.Nat.Defs
import Mathlib.Tactic.Common

/-! # Bytes of fixed-width words

A word of `n` bytes is written least or most significant byte first; a word that
does not fit is cut to `n` bytes. Exchanging the bytes of a word turns one order
into the other, so a swapped word written in native order is the word in network
order.
-/

namespace Foundation

/-- The low `n` bytes of `v`, least significant first. -/
def littleEndian : Nat → Nat → List UInt8
  | 0, _ => []
  | n + 1, v => UInt8.ofNat v :: littleEndian n (v / 256)

def ofLittleEndian : List UInt8 → Nat
  | [] => 0
  | b :: bs => b.toNat + 256 * ofLittleEndian bs

/-- The low `n` bytes of `v`, most significant first. -/
def bigEndian (n v : Nat) : List UInt8 := (littleEndian n v).reverse

def ofBigEndian (bs : List UInt8) : Nat := ofLittleEndian bs.reverse

/-- The word whose `n` bytes are those of `v` in the opposite order. -/
def swapBytes (n v : Nat) : Nat := ofBigEndian (littleEndian n v)

@[simp] theorem littleEndian_length (n v : Nat) : (littleEndian n v).length = n := by
  induction n generalizing v with
  | zero => rfl
  | succ n ih => simp [littleEndian, ih]

@[simp] theorem bigEndian_length (n v : Nat) : (bigEndian n v).length = n := by
  simp [bigEndian]

theorem ofLittleEndian_lt (bs : List UInt8) : ofLittleEndian bs < 256 ^ bs.length := by
  induction bs with
  | nil => simp [ofLittleEndian]
  | cons b bs ih =>
      have hb : b.toNat < 256 := b.toNat_lt
      simp only [ofLittleEndian, List.length_cons, Nat.pow_succ]
      omega

/-! ## Round trips -/

theorem ofLittleEndian_littleEndian (n v : Nat) :
    ofLittleEndian (littleEndian n v) = v % 256 ^ n := by
  induction n generalizing v with
  | zero => simp [littleEndian, ofLittleEndian, Nat.mod_one]
  | succ n ih =>
      have hbyte : (UInt8.ofNat v).toNat = v % 256 := by simp
      rw [littleEndian, ofLittleEndian, ih, hbyte, Nat.pow_succ, Nat.mul_comm (256 ^ n),
        Nat.mod_mul]

theorem littleEndian_ofLittleEndian (bs : List UInt8) :
    littleEndian bs.length (ofLittleEndian bs) = bs := by
  induction bs with
  | nil => rfl
  | cons b bs ih =>
      have hb : b.toNat < 256 := b.toNat_lt
      have hhead : UInt8.ofNat (b.toNat + 256 * ofLittleEndian bs) = b := by
        apply UInt8.toNat_inj.mp
        simp only [UInt8.toNat_ofNat']
        omega
      have htail : (b.toNat + 256 * ofLittleEndian bs) / 256 = ofLittleEndian bs := by omega
      rw [List.length_cons, ofLittleEndian, littleEndian, hhead, htail, ih]

theorem ofBigEndian_bigEndian (n v : Nat) : ofBigEndian (bigEndian n v) = v % 256 ^ n := by
  rw [ofBigEndian, bigEndian, List.reverse_reverse, ofLittleEndian_littleEndian]

theorem bigEndian_ofBigEndian (bs : List UInt8) : bigEndian bs.length (ofBigEndian bs) = bs := by
  have h := littleEndian_ofLittleEndian bs.reverse
  rw [List.length_reverse] at h
  rw [bigEndian, ofBigEndian, h, List.reverse_reverse]

/-! ## Exchanged bytes -/

theorem swapBytes_lt (n v : Nat) : swapBytes n v < 256 ^ n := by
  have h := ofLittleEndian_lt (littleEndian n v).reverse
  rwa [List.length_reverse, littleEndian_length] at h

/-- Writing the exchanged word in native order writes the word in network order. -/
theorem littleEndian_swapBytes (n v : Nat) : littleEndian n (swapBytes n v) = bigEndian n v := by
  have h := littleEndian_ofLittleEndian (littleEndian n v).reverse
  rwa [List.length_reverse, littleEndian_length] at h

/-- Exchanging the bytes of a word read in native order reads it in network order. -/
theorem swapBytes_ofLittleEndian (bs : List UInt8) :
    swapBytes bs.length (ofLittleEndian bs) = ofBigEndian bs := by
  rw [swapBytes, littleEndian_ofLittleEndian]

/-! ## Reading from the front -/

/-- The first `n` bytes as a word in network order, and what follows them. -/
def takeWord (n : Nat) (bs : List UInt8) : Option (Nat × List UInt8) :=
  if n ≤ bs.length then some (ofBigEndian (bs.take n), bs.drop n) else none

theorem takeWord_bigEndian (n v : Nat) (rest : List UInt8) :
    takeWord n (bigEndian n v ++ rest) = some (v % 256 ^ n, rest) := by
  have htake : (bigEndian n v ++ rest).take n = bigEndian n v :=
    List.take_left' (bigEndian_length n v)
  have hdrop : (bigEndian n v ++ rest).drop n = rest := List.drop_left' (bigEndian_length n v)
  rw [takeWord, if_pos (by simp), htake, hdrop, ofBigEndian_bigEndian]

end Foundation
