import Mathlib.Algebra.Group.Nat.Defs

/-!
# Numbers in memory

The bytes of a number, the low one first, and the number at a place of a text.
-/

namespace Leyu.Framework

abbrev Bytes := List UInt8

def leBytes : Nat → Nat → Bytes
  | 0, _ => []
  | w + 1, n => UInt8.ofNat n :: leBytes w (n / 256)

def leValue : Bytes → Nat
  | [] => 0
  | b :: bs => b.toNat + 256 * leValue bs

@[simp] theorem length_leBytes (w n : Nat) : (leBytes w n).length = w := by
  induction w generalizing n with
  | zero => rfl
  | succ w ih => simp [leBytes, ih]

theorem leValue_leBytes {w n : Nat} (hn : n < 256 ^ w) : leValue (leBytes w n) = n := by
  induction w generalizing n with
  | zero =>
    rw [Nat.pow_zero, Nat.lt_one_iff] at hn
    exact hn.symm
  | succ w ih =>
    have hrest : n / 256 < 256 ^ w := by
      apply Nat.div_lt_of_lt_mul
      rwa [Nat.mul_comm, ← Nat.pow_succ]
    simp only [leBytes, leValue, ih hrest, UInt8.toNat_ofNat']
    omega

/-- The `uint32_t` at a place; past the end there are zeros. -/
def le32At (text : Bytes) (start : Nat) : UInt32 :=
  UInt32.ofNat (leValue ((text.drop start).take 4))

def le32 (n : UInt32) : Bytes := leBytes 4 n.toNat

@[simp] theorem length_le32 (n : UInt32) : (le32 n).length = 4 := length_leBytes 4 n.toNat

theorem le32At_append {front : Bytes} {start : Nat} (hstart : front.length = start)
    (n : UInt32) (rest : Bytes) : le32At (front ++ le32 n ++ rest) start = n := by
  have hword : leValue (le32 n) = n.toNat := leValue_leBytes n.toNat_lt
  have htake : ((front ++ le32 n ++ rest).drop start).take 4 = le32 n := by
    rw [List.append_assoc, ← hstart, List.drop_left, List.take_left' (length_le32 n)]
  rw [le32At, htake, hword, UInt32.ofNat_toNat]

theorem le32At_take {start n : Nat} (h : start + 4 ≤ n) (text : Bytes) :
    le32At (text.take n) start = le32At text start := by
  have htake : 4 ≤ n - start := by omega
  rw [le32At, le32At, List.drop_take, List.take_take, Nat.min_eq_left htake]

end Leyu.Framework
