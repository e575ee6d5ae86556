import Mathlib

/-!
# First and last set bits of a word

`ffs n x` is the least set bit of `x` below `n` and `fls n x` the greatest, both `n` when there
is none: for `n = 256` these are Solady's `LibBit.ffs` and `LibBit.fls`. Each is a scan of
the bits that returns the first hit (`firstSet`, `lastSetBelow`), and its specification says
that the bit found is set and that none between it and the start of the scan is.
-/

namespace BitScan

def firstSet (x : Nat) : Nat → Nat → Option Nat
  | _, 0 => none
  | i, k + 1 => if x.testBit i then some i else firstSet x (i + 1) k

def lastSetBelow (x : Nat) : Nat → Option Nat
  | 0 => none
  | k + 1 => if x.testBit k then some k else lastSetBelow x k

def ffs (n x : Nat) : Nat := (firstSet x 0 n).getD n

def fls (n x : Nat) : Nat := (lastSetBelow x n).getD n

theorem firstSet_eq_some {x i k j : Nat} (h : firstSet x i k = some j) :
    i ≤ j ∧ j < i + k ∧ x.testBit j ∧ ∀ l, i ≤ l → l < j → x.testBit l = false := by
  induction k generalizing i with
  | zero => simp [firstSet] at h
  | succ k ih =>
    by_cases hbit : x.testBit i
    · -- the scan stops at its first position
      simp only [firstSet, hbit, if_true, Option.some.injEq] at h
      subst h
      exact ⟨le_rfl, by omega, hbit, fun l hl hlj => by omega⟩
    · -- the first position is clear; the rest of the scan finds `j`
      simp only [firstSet, hbit] at h
      obtain ⟨hij, hjk, hj, hbefore⟩ := ih h
      refine ⟨by omega, by omega, hj, fun l hl hlj => ?_⟩
      rcases Nat.eq_or_lt_of_le hl with rfl | hlt
      · simpa using hbit
      · exact hbefore l hlt hlj

theorem firstSet_eq_none {x i k : Nat} (h : firstSet x i k = none) :
    ∀ l, i ≤ l → l < i + k → x.testBit l = false := by
  induction k generalizing i with
  | zero => intro l hl hlk; omega
  | succ k ih =>
    by_cases hbit : x.testBit i
    · simp [firstSet, hbit] at h
    · simp only [firstSet, hbit] at h
      intro l hl hlk
      rcases Nat.eq_or_lt_of_le hl with rfl | hlt
      · simpa using hbit
      · exact ih h l hlt (by omega)

theorem lastSetBelow_eq_some {x k j : Nat} (h : lastSetBelow x k = some j) :
    j < k ∧ x.testBit j ∧ ∀ l, j < l → l < k → x.testBit l = false := by
  induction k with
  | zero => simp [lastSetBelow] at h
  | succ k ih =>
    by_cases hbit : x.testBit k
    · simp only [lastSetBelow, hbit, if_true, Option.some.injEq] at h
      subst h
      exact ⟨by omega, hbit, fun l hjl hlk => by omega⟩
    · simp only [lastSetBelow, hbit] at h
      obtain ⟨hjk, hj, hafter⟩ := ih h
      refine ⟨by omega, hj, fun l hjl hlk => ?_⟩
      rcases Nat.lt_succ_iff_lt_or_eq.1 hlk with hlt | rfl
      · exact hafter l hjl hlt
      · simpa using hbit

theorem lastSetBelow_eq_none {x k : Nat} (h : lastSetBelow x k = none) :
    ∀ l, l < k → x.testBit l = false := by
  induction k with
  | zero => intro l hl; omega
  | succ k ih =>
    by_cases hbit : x.testBit k
    · simp [lastSetBelow, hbit] at h
    · simp only [lastSetBelow, hbit] at h
      intro l hlk
      rcases Nat.lt_succ_iff_lt_or_eq.1 hlk with hlt | rfl
      · exact ih h l hlt
      · simpa using hbit

theorem ffs_spec (n x : Nat) :
    (ffs n x < n ∧ x.testBit (ffs n x) ∧ ∀ l < ffs n x, x.testBit l = false) ∨
      (ffs n x = n ∧ ∀ l < n, x.testBit l = false) := by
  unfold ffs
  cases h : firstSet x 0 n with
  | none => exact .inr ⟨rfl, fun l hl => firstSet_eq_none h l (Nat.zero_le l) (by omega)⟩
  | some j =>
    obtain ⟨-, hjn, hj, hbefore⟩ := firstSet_eq_some h
    exact .inl ⟨by simpa using hjn, hj, fun l hl => hbefore l (Nat.zero_le l) hl⟩

theorem fls_spec (n x : Nat) :
    (fls n x < n ∧ x.testBit (fls n x) ∧ ∀ l, fls n x < l → l < n → x.testBit l = false) ∨
      (fls n x = n ∧ ∀ l < n, x.testBit l = false) := by
  unfold fls
  cases h : lastSetBelow x n with
  | none => exact .inr ⟨rfl, lastSetBelow_eq_none h⟩
  | some j =>
    obtain ⟨hjn, hj, hafter⟩ := lastSetBelow_eq_some h
    exact .inl ⟨hjn, hj, hafter⟩

end BitScan
