import Angstrom.Lib.FixedPoint

/-!
# `Ray`, the node's 27-decimal prices

`Ray(pub U256)` in `crates/types/src/sol_bindings/ray.rs`: a price `t1 / t0` held as a 256-bit
integer with 27 decimals. The operations compute in malachite `Natural`s (unbounded, modelled by
`Nat`), round as their `RoundingMode` says, and come back either into a `U256` (a panic in
`Uint::from_limbs_slice` when the value does not fit) or into a `u128` through
`u128::saturating_from`, which clamps at `u128::MAX`. A malachite division by zero panics; every
operation that can panic returns an `Option`, `none` standing for the panic.
-/

namespace Angstrom

open FixedPoint

def const1e6 : Nat := 10 ^ 6

def const1e27 : Nat := 10 ^ 27

def const1e54 : Nat := 10 ^ 54

def u128Max : Nat := 2 ^ 128 - 1

/-- A price with 27 decimals; the field states that it fits the `U256` it is stored in. -/
structure Ray where
  val : Nat
  val_lt : val < 2 ^ 256
  deriving DecidableEq

namespace Ray

theorem const1e54_lt : const1e54 < 2 ^ 256 := by decide

/-- `U256::from_limbs_slice` of a `Natural`: the value when it fits, a panic otherwise. -/
def ofNatural (n : Nat) : Option Ray := if h : n < 2 ^ 256 then some ⟨n, h⟩ else none

/-- `Ray::scale_to_fee`: `self * (1e6 - fee) / 1e6` rounded down; a zero fee returns `self`. -/
def scaleToFee (r : Ray) (fee : Nat) : Ray :=
  if fee = 0 then r
  else ⟨r.val * (const1e6 - fee) / const1e6, lt_of_le_of_lt (scale_le _ _ _) r.val_lt⟩

/-- `Ray::unscale_to_fee`: `self * 1e6 / (1e6 - fee)` rounded down, the price that scales back to
`self`; a zero fee returns `self`. -/
def unscaleToFee (r : Ray) (fee : Nat) : Option Ray :=
  if fee = 0 then some r
  else if const1e6 - fee = 0 then none
  else ofNatural (r.val * const1e6 / (const1e6 - fee))

/-- `Ray::invert`: `1e54 / self` with the given rounding. -/
def invert (r : Ray) (up : Bool) : Option Ray :=
  if h : r.val = 0 then none
  else some ⟨divRound const1e54 r.val up,
    lt_of_le_of_lt (divRound_le_self _ (Nat.pos_of_ne_zero h) up) const1e54_lt⟩

/-- `Ray::inv_ray_round`: the inversion rounded up when `round_up`. -/
def invRayRound (r : Ray) (roundUp : Bool) : Option Ray := r.invert roundUp

/-- `Ray::inv_ray`: `1e54 / self` rounded down, with zero mapped to itself. -/
def invRay (r : Ray) : Ray :=
  if r.val = 0 then r
  else ⟨const1e54 / r.val, lt_of_le_of_lt (Nat.div_le_self _ _) const1e54_lt⟩

/-- `Ray::quantity`: the `t1` needed for `q` of `t0`, `self * q / 1e27`, clamped into `u128`. -/
def quantity (r : Ray) (q : Nat) (roundUp : Bool) : Nat :=
  satCap u128Max (divRound (r.val * q) const1e27 roundUp)

/-- `Ray::inverse_quantity`: the `t0` needed for `q` of `t1`, `q * 1e27 / self`, clamped into
`u128`. -/
def inverseQuantity (r : Ray) (q : Nat) (roundUp : Bool) : Option Nat :=
  if r.val = 0 then none else some (satCap u128Max (divRound (q * const1e27) r.val roundUp))

def fromQuantities (amountOut amountIn : Nat) (roundUp : Bool) : Option Ray :=
  if amountIn = 0 then none else ofNatural (divRound (amountOut * const1e27) amountIn roundUp)

/-! ## Evaluation lemmas -/

@[simp] theorem scaleToFee_val (r : Ray) (fee : Nat) :
    (r.scaleToFee fee).val = r.val * (const1e6 - fee) / const1e6 := by
  unfold scaleToFee
  split_ifs with h
  · subst h; simp [const1e6]
  · rfl

@[simp] theorem invRay_val (r : Ray) : r.invRay.val = const1e54 / r.val := by
  unfold invRay
  split_ifs with h
  · simp [h]
  · rfl

theorem scaleToFee_le (r : Ray) (fee : Nat) : (r.scaleToFee fee).val ≤ r.val := by
  rw [scaleToFee_val]; exact scale_le _ _ _

theorem invert_le {r r' : Ray} {up : Bool} (h : r.invert up = some r') : r'.val ≤ const1e54 := by
  unfold invert at h
  split_ifs at h with h0
  simp only [Option.some.injEq] at h
  subst h
  exact divRound_le_self _ (Nat.pos_of_ne_zero h0) up

theorem inverseQuantity_of_pos {r : Ray} (h : 0 < r.val) (q : Nat) (roundUp : Bool) :
    r.inverseQuantity q roundUp = some (satCap u128Max (divRound (q * const1e27) r.val roundUp)) :=
  if_neg (Nat.pos_iff_ne_zero.1 h)

theorem inverseQuantity_of_zero {r : Ray} (h : r.val = 0) (q : Nat) (roundUp : Bool) :
    r.inverseQuantity q roundUp = none :=
  if_pos h

end Ray

end Angstrom
