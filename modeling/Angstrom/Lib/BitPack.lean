import Mathlib

/-!
# Flags packed into a number

`pack [b₀, b₁, …]` is the number whose bit `i` is `bᵢ`, least significant first. A flag is read
back by masking with `2 ^ i` (`and_two_pow_ne_zero`), and `testBit_pack` says which flag that is.
-/

namespace BitPack

def pack : List Bool → Nat
  | [] => 0
  | b :: bs => b.toNat + 2 * pack bs

theorem testBit_pack (bs : List Bool) (i : Nat) : (pack bs).testBit i = bs.getD i false := by
  induction bs generalizing i with
  | nil => simp [pack]
  | cons b bs ih =>
    cases i with
    | zero => cases b <;> simp [pack, Nat.add_mod]
    | succ i =>
      have hhalf : (b.toNat + 2 * pack bs) / 2 = pack bs := by
        have hb : b.toNat < 2 := by cases b <;> decide
        omega
      rw [pack, Nat.testBit_add_one, hhalf, ih]
      simp

theorem pack_lt (bs : List Bool) : pack bs < 2 ^ bs.length := by
  induction bs with
  | nil => simp [pack]
  | cons b bs ih =>
    have hb : b.toNat ≤ 1 := by cases b <;> decide
    rw [pack, List.length_cons, Nat.pow_succ]
    omega

theorem and_two_pow_ne_zero (n i : Nat) : (n &&& 2 ^ i != 0) = n.testBit i := by
  rw [Nat.and_two_pow]
  cases n.testBit i <;> simp

theorem and_two_pow_pack (bs : List Bool) (i : Nat) :
    (pack bs &&& 2 ^ i != 0) = bs.getD i false := by
  rw [and_two_pow_ne_zero, testBit_pack]

theorem testBit_xor_two_pow (n i j : Nat) :
    (n ^^^ 2 ^ i).testBit j = (n.testBit j ^^ decide (j = i)) := by
  rw [Nat.testBit_xor, Nat.testBit_two_pow]
  by_cases h : j = i
  · subst h; simp
  · simp [h, Ne.symm h]

end BitPack
