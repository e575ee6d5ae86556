import Mathlib

/-!
# Scaled fixed-point arithmetic with explicit rounding

Natural numbers read as fixed-point values with an arbitrary scale `s` (a value `x` stands for
`x / s`). Multiplication and division of such values round either down (`/`) or up (`⌈/⌉`), and
the results that matter for agreement between two implementations are the order facts:

* rounding up never falls short of the exact quotient (`le_mul_ceilDiv`), and neither rounding
  exceeds the numerator for a positive divisor (`divRound_le_self`);
* both roundings are monotone in the numerator and antitone in the divisor;
* a conversion there and back in the unfavourable direction never gains
  (`divUp_mulDown_le`, `le_mulDown_divUp`).

`divRound` is the two-way rounding division, `satCap` clamps a result at a maximal machine value,
and `wrapAdd` and `wrapSub` are addition and subtraction modulo a power of two. None of this mentions any particular program.

A quotient rounded down and scaled back loses less than one unit of a coarser scale
(`div_mul_div_le`), and the high word of a product of two `w`-bit words is recovered from its
residues modulo `2 ^ w` and `2 ^ w - 1` (`highWord_eq`), the step of a 512-bit multiplication.

A conversion that rounds up and its inverse that rounds down form a Galois connection: scaling by
`a / d` rounded up against scaling by `d / a` rounded down (`gc_mul_ceilDiv`), and the ceiling
square root against squaring (`gc_ceilSqrt`). Composites of such pairs are again Galois
connections, so a round trip through one never moves a value in the wrong direction.
-/

namespace FixedPoint

/-- Division rounded up when `up`, down otherwise. -/
def divRound (n d : Nat) (up : Bool) : Nat := if up then n ⌈/⌉ d else n / d

@[simp] theorem divRound_true (n d : Nat) : divRound n d true = n ⌈/⌉ d := rfl
@[simp] theorem divRound_false (n d : Nat) : divRound n d false = n / d := rfl

/-- A value clamped at `cap`: a saturating conversion into a type whose largest value is `cap`. -/
def satCap (cap n : Nat) : Nat := min n cap

/-- Addition modulo `2 ^ w`, a wrapping machine addition. -/
def wrapAdd (w a b : Nat) : Nat := (a + b) % 2 ^ w

theorem satCap_of_le {cap n : Nat} (h : n ≤ cap) : satCap cap n = n := min_eq_left h

theorem satCap_le (cap n : Nat) : satCap cap n ≤ n := min_le_left _ _

theorem satCap_mono {cap a b : Nat} (h : a ≤ b) : satCap cap a ≤ satCap cap b :=
  min_le_min_right _ h

theorem wrapAdd_of_lt {w a b : Nat} (h : a + b < 2 ^ w) : wrapAdd w a b = a + b :=
  Nat.mod_eq_of_lt h

/-- Subtraction modulo `2 ^ w`, a wrapping machine subtraction. -/
def wrapSub (w a b : Nat) : Nat := (a + (2 ^ w - b % 2 ^ w)) % 2 ^ w

theorem wrapSub_of_le {w a b : Nat} (ha : a < 2 ^ w) (h : b ≤ a) : wrapSub w a b = a - b := by
  unfold wrapSub
  rw [Nat.mod_eq_of_lt (lt_of_le_of_lt h ha)]
  have hsum : a + (2 ^ w - b) = (a - b) + 2 ^ w := by omega
  rw [hsum, Nat.add_mod_right, Nat.mod_eq_of_lt (by omega)]

/-! ## Rounding up -/

theorem ceilDiv_le_iff {n d k : Nat} (hd : 0 < d) : n ⌈/⌉ d ≤ k ↔ n ≤ d * k :=
  ceilDiv_le_iff_le_mul hd

theorem le_mul_ceilDiv (n : Nat) {d : Nat} (hd : 0 < d) : n ≤ d * (n ⌈/⌉ d) :=
  (ceilDiv_le_iff hd).1 le_rfl

theorem ceilDiv_mono_left {a b : Nat} (d : Nat) (h : a ≤ b) : a ⌈/⌉ d ≤ b ⌈/⌉ d := by
  rcases Nat.eq_zero_or_pos d with rfl | hd
  · simp
  · exact (ceilDiv_le_iff hd).2 (h.trans (le_mul_ceilDiv b hd))

theorem ceilDiv_anti_right (n : Nat) {d e : Nat} (hd : 0 < d) (h : d ≤ e) :
    n ⌈/⌉ e ≤ n ⌈/⌉ d := by
  apply (ceilDiv_le_iff (lt_of_lt_of_le hd h)).2
  calc n ≤ d * (n ⌈/⌉ d) := le_mul_ceilDiv n hd
    _ ≤ e * (n ⌈/⌉ d) := Nat.mul_le_mul_right _ h

theorem div_add_mod_ne_zero (z : Nat) {d : Nat} (hd : 0 < d) :
    z / d + (if z % d = 0 then 0 else 1) = z ⌈/⌉ d := by
  rw [Nat.ceilDiv_eq_add_pred_div]
  have hz := Nat.div_add_mod z d
  have hlt := Nat.mod_lt z hd
  split_ifs with hm
  · have hsplit : z + d - 1 = d * (z / d) + (d - 1) := by omega
    have hrem : (d - 1) / d = 0 := Nat.div_eq_of_lt (by omega)
    rw [hsplit, Nat.mul_add_div hd, hrem]
  · have hsplit : z + d - 1 = d * (z / d + 1) + (z % d - 1) := by rw [Nat.mul_add]; omega
    have hrem : (z % d - 1) / d = 0 := Nat.div_eq_of_lt (by omega)
    rw [hsplit, Nat.mul_add_div hd, hrem]

theorem divRound_le_self (n : Nat) {d : Nat} (hd : 0 < d) (up : Bool) : divRound n d up ≤ n := by
  cases up
  · exact Nat.div_le_self n d
  · exact (ceilDiv_le_iff hd).2 (Nat.le_mul_of_pos_left n hd)

/-! ## Products rescaled by `s` -/

theorem mulDown_mono {x y a b s : Nat} (hx : x ≤ y) (ha : a ≤ b) : x * a / s ≤ y * b / s :=
  Nat.div_le_div_right (Nat.mul_le_mul hx ha)

theorem scale_le (x m f : Nat) : x * (m - f) / m ≤ x := by
  rcases Nat.eq_zero_or_pos m with rfl | hm
  · simp
  · exact Nat.div_le_of_le_mul (by rw [Nat.mul_comm]; exact Nat.mul_le_mul_right _ (Nat.sub_le m f))

theorem divUp_mulDown_le (x : Nat) {a b : Nat} (s : Nat) (hb : 0 < b) (hab : a ≤ b) :
    (x * a / s * s) ⌈/⌉ b ≤ x := by
  apply (ceilDiv_le_iff hb).2
  calc x * a / s * s ≤ x * a := Nat.div_mul_le_self _ _
    _ ≤ x * b := Nat.mul_le_mul_left _ hab
    _ = b * x := Nat.mul_comm _ _

theorem le_mulDown_divUp (y : Nat) {a b s : Nat} (hs : 0 < s) (ha : 0 < a) (hab : a ≤ b) :
    y ≤ b * ((y * s) ⌈/⌉ a) / s := by
  apply (Nat.le_div_iff_mul_le hs).2
  calc y * s ≤ a * ((y * s) ⌈/⌉ a) := le_mul_ceilDiv _ ha
    _ ≤ b * ((y * s) ⌈/⌉ a) := Nat.mul_le_mul_right _ hab

/-! ## Galois connections of rounded conversions -/

theorem gc_mul_ceilDiv {a d : Nat} (ha : 0 < a) (hd : 0 < d) :
    GaloisConnection (fun r => (r * a) ⌈/⌉ d) (fun m => m * d / a) := by
  intro r m
  rw [ceilDiv_le_iff hd, Nat.le_div_iff_mul_le ha, Nat.mul_comm d m]

def ceilSqrt (n : Nat) : Nat := if Nat.sqrt n * Nat.sqrt n = n then Nat.sqrt n else Nat.sqrt n + 1

theorem ceilSqrt_le_iff {n k : Nat} : ceilSqrt n ≤ k ↔ n ≤ k * k := by
  have hsq := Nat.sqrt_le n
  have hlt := Nat.lt_succ_sqrt n
  unfold ceilSqrt
  split_ifs with hexact
  · -- an exact square: its root is at most `k` exactly when the square is at most `k * k`
    constructor
    · intro h
      rw [← hexact]
      exact Nat.mul_self_le_mul_self h
    · intro h
      apply Nat.mul_self_le_mul_self_iff.1
      rw [hexact]
      exact h
  · -- between two squares: `n` exceeds `sqrt n * sqrt n`, so `k` must pass `sqrt n`
    constructor
    · intro h
      exact le_of_lt (lt_of_lt_of_le hlt (Nat.mul_self_le_mul_self h))
    · intro h
      by_contra hk
      have hle : k * k ≤ Nat.sqrt n * Nat.sqrt n := Nat.mul_self_le_mul_self (by omega)
      omega

theorem gc_ceilSqrt : GaloisConnection ceilSqrt fun k => k * k := fun _ _ => ceilSqrt_le_iff

/-! ## Rescaling and products of two words -/

theorem div_mul_div_le (n : Nat) {z m : Nat} (hz : 0 < z) (hzm : z ≤ m) :
    n / z * z / m ≤ n / m ∧ n / m ≤ n / z * z / m + 1 := by
  have hm : 0 < m := lt_of_lt_of_le hz hzm
  refine ⟨Nat.div_le_div_right (Nat.div_mul_le_self n z), ?_⟩
  have hlt : n ≤ n / z * z + m := by
    have := Nat.div_add_mod n z
    have := Nat.mod_lt n hz
    nlinarith
  calc n / m ≤ (n / z * z + m) / m := Nat.div_le_div_right hlt
    _ = n / z * z / m + 1 := Nat.add_div_right _ hm

/-- The high word of the product of two `w`-bit words, from the product's residues modulo `2 ^ w`
and `2 ^ w - 1`: their difference, less a borrow, modulo `2 ^ w` (the Chinese remainder step of a
full-precision multiplication). -/
theorem highWord_eq {w x y : Nat} (hw : 0 < w) (hx : x < 2 ^ w) (hy : y < 2 ^ w) :
    wrapSub w (x * y % (2 ^ w - 1))
        (wrapAdd w (x * y % 2 ^ w) (if x * y % (2 ^ w - 1) < x * y % 2 ^ w then 1 else 0)) =
      x * y / 2 ^ w := by
  have hB : 2 ≤ 2 ^ w := by
    calc 2 = 2 ^ 1 := rfl
      _ ≤ 2 ^ w := Nat.pow_le_pow_right (by norm_num) hw
  unfold wrapSub wrapAdd
  generalize 2 ^ w = B at hB hx hy ⊢
  obtain ⟨k, rfl⟩ : ∃ k, B = k + 2 := ⟨B - 2, by omega⟩
  rw [show k + 2 - 1 = k + 1 by omega]
  have hprod : x * y ≤ k * (k + 2) + 1 := by
    have := Nat.mul_le_mul (show x ≤ k + 1 by omega) (show y ≤ k + 1 by omega)
    nlinarith
  generalize x * y = P at hprod ⊢
  have hdm := Nat.div_add_mod P (k + 2)
  have hlo_lt := Nat.mod_lt P (show 0 < k + 2 by omega)
  have hhi_le : P / (k + 2) ≤ k := by
    calc P / (k + 2) ≤ (k * (k + 2) + 1) / (k + 2) := Nat.div_le_div_right hprod
      _ = k := by
        rw [Nat.add_comm, Nat.add_mul_div_right _ _ (by omega), Nat.div_eq_of_lt (by omega),
          Nat.zero_add]
  have hmm : P % (k + 1) = (P / (k + 2) + P % (k + 2)) % (k + 1) := by
    conv_lhs => rw [← hdm]
    rw [show (k + 2) * (P / (k + 2)) + P % (k + 2) =
      (k + 1) * (P / (k + 2)) + (P / (k + 2) + P % (k + 2)) by ring, Nat.mul_add_mod]
  rw [hmm]
  generalize P / (k + 2) = hi at hhi_le hdm ⊢
  generalize P % (k + 2) = lo at hlo_lt hdm ⊢
  by_cases hsmall : hi + lo < k + 1
  · -- no wrap modulo `k + 1`: the residue is `hi + lo`, at least `lo`, and nothing is borrowed
    rw [Nat.mod_eq_of_lt hsmall, if_neg (by omega)]
    simp only [Nat.add_zero, Nat.mod_eq_of_lt hlo_lt]
    rw [show hi + lo + (k + 2 - lo) = hi + (k + 2) by omega, Nat.add_mod_right,
      Nat.mod_eq_of_lt (by omega)]
  · -- one wrap: the residue is `hi + lo - (k + 1)`, below `lo`, and one is borrowed
    have hres : (hi + lo) % (k + 1) = hi + lo - (k + 1) := by
      rw [Nat.mod_eq_sub_mod (by omega), Nat.mod_eq_of_lt (by omega)]
    rw [hres, if_pos (by omega)]
    by_cases hlast : lo + 1 < k + 2
    · rw [Nat.mod_eq_of_lt hlast, Nat.mod_eq_of_lt hlast,
        show hi + lo - (k + 1) + (k + 2 - (lo + 1)) = hi by omega, Nat.mod_eq_of_lt (by omega)]
    · rw [show lo + 1 = k + 2 by omega, Nat.mod_self, Nat.zero_mod, Nat.sub_zero,
        Nat.add_mod_right, Nat.mod_eq_of_lt (by omega)]
      omega

end FixedPoint
