import Angstrom.Lib.Checked
import Angstrom.Lib.FixedPoint

/-!
# Contract words, reverts and price arithmetic

The Solidity side of the model (`contracts/src`). A `uint` word is a natural number below
`2 ^ 256`; a call that may revert returns `Except Revert`. The custom errors that the modelled code
raises are constructors of `Revert`, and checked arithmetic raises `Revert.panic`.

* `RayMathLib` (`libraries/RayMathLib.sol`): ray multiplication and division, rounding down with
  checked arithmetic or up through solady's `FixedPointMathLib.mulDivUp`.
* `PriceLib` (`types/Price.sol`): conversion of amounts between the two sides of a price.
* `PairLib.getSwapInfo` (`types/Pair.sol`): a pair's assets and its fee-scaled price in the
  direction of a swap.

`mulDivUp_eq` says once what solady's assembly computes, so that nothing later unfolds it.
-/

namespace Angstrom.Contract

open FixedPoint

/-- An EVM address. -/
abbrev Address := Fin (2 ^ 160)

/-- The literals of `Address` rest on this one instance. -/
instance neZero_addressSize : NeZero (2 ^ 160) := NeZero.of_pos (Nat.two_pow_pos 160)

/-- The reverts of the modelled contract code. -/
inductive Revert where
  /-- A `Panic` of checked arithmetic or indexing. -/
  | panic (p : Checked.Panic)
  /-- `FixedPointMathLib.MulDivFailed()`. -/
  | mulDivFailed
  | fillingTooLittle
  | fillingTooMuch
  | gasAboveMax
  | limitViolated
  | assetsUnordered
  | assetsOutOfOrderOrNotUnique
  | assetAccessOutOfBounds (index length : Nat)
  | outOfOrderOrDuplicatePairs
  | entryKeyMismatch
  | insufficientCapacity
  | indexMayHaveChanged
  | invalidTickSpacing
  /-- `FeeAboveMax()`, raised by `ConfigEntryLib` and by `ControllerV1` under one selector. -/
  | feeAboveMax
  /-- `LPFeeLibrary.LPFeeTooLarge(fee)`. -/
  | lpFeeTooLarge (fee : Nat)
  | noEntry
  | nonexistentPool (asset0 asset1 : Address)
  | nonceReuse
  | orderAlreadyExecuted
  | expired
  | onlyOncePerBlock
  | notNode
  /-- `CalldataReaderLib.ReaderNotAtEnd()`. -/
  | readerNotAtEnd
  /-- The call runs out of gas: a decoding loop that has passed the end of its list never
  stops. -/
  | outOfGas
  /-- `MixedSignLib.ArithmeticOverflowUnderflow()`. -/
  | arithmeticOverflowUnderflow
  /-- Solady's `SafeTransferLib.TransferFailed()`, or the pool manager's own failed transfer. -/
  | transferFailed
  /-- Solady's `SafeTransferLib.TransferFromFailed()`. -/
  | transferFromFailed
  /-- `Settlement.BundlDeltaUnresolved(asset)`. -/
  | bundlDeltaUnresolved (asset : Address)
  | notController
  | notUniswap
  /-- `HookBufferLib.InvalidHookReturn()`. -/
  | invalidHookReturn
  | toBGasUsedAboveMax
  | pairAccessOutOfBounds (index length : Nat)
  | justInTimeLiquidityChange
  | wrongEndLiquidity (endLiquidity actualCurrentLiquidity : Nat)
  /-- `X128MathLib.FullMulX128Failed()`. -/
  | fullMulX128Failed
  /-- Solady's `FixedPointMathLib.FullMulDivFailed()`. -/
  | fullMulDivFailed
  /-- The pool manager's `SafeCastOverflow()`: a position's liquidity leaves the `uint128` range. -/
  | safeCastOverflow
  deriving DecidableEq, Repr

instance : Checked.HasPanic Revert := ⟨Revert.panic⟩

/-- The checked-arithmetic overflow or underflow panic, `Panic(0x11)`. -/
abbrev overflow : Revert := .panic .overflowUnderflow

/-! ## `FixedPointMathLib.mulDivUp` -/

/-- Solady's `mulDivUp(x, y, d)`: `ceil(x * y / d)`, reverting when `x * y` overflows or `d` is
zero. The assembly multiplies modulo `2 ^ 256` and detects the overflow by dividing back. -/
def mulDivUp (x y d : Nat) : Except Revert Nat :=
  let z := x * y % 2 ^ 256
  if (x = 0 ∨ z / x = y) ∧ d ≠ 0 then .ok (z / d + if z % d = 0 then 0 else 1)
  else .error .mulDivFailed

theorem mulDivUp_eq {x y d : Nat} (hxy : x * y < 2 ^ 256) (hd : 0 < d) :
    mulDivUp x y d = .ok ((x * y) ⌈/⌉ d) := by
  have hz : x * y % 2 ^ 256 = x * y := Nat.mod_eq_of_lt hxy
  have hback : x = 0 ∨ x * y / x = y := by
    rcases Nat.eq_zero_or_pos x with h | h
    · exact .inl h
    · exact .inr (Nat.mul_div_cancel_left y h)
  simp only [mulDivUp, hz]
  rw [if_pos ⟨hback, Nat.pos_iff_ne_zero.1 hd⟩, div_add_mod_ne_zero _ hd]

theorem mulDivUp_zero_divisor (x y : Nat) : mulDivUp x y 0 = .error .mulDivFailed := by
  simp [mulDivUp]

/-! ## `RayMathLib` -/

def RAY : Nat := 10 ^ 27

def RAY_2 : Nat := 10 ^ 54

def mulRayDown (x y : Nat) : Except Revert Nat := do
  let p ← Checked.mul 256 x y
  return p / RAY

def mulRayUp (x y : Nat) : Except Revert Nat := mulDivUp x y RAY

/-- `divRayDown(x, y) = x * RAY / y`, with a checked multiplication and division. -/
def divRayDown (x y : Nat) : Except Revert Nat := do
  let p ← Checked.mul 256 x RAY
  Checked.div p y

def divRayUp (x y : Nat) : Except Revert Nat := mulDivUp x RAY y

/-- `invRayUnchecked(x)`: the assembly `div(RAY_2, x)`, which is zero for a zero `x`, as `Nat`
division is. -/
def invRayUnchecked (x : Nat) : Nat := RAY_2 / x

theorem mulRayDown_eq {x y : Nat} (h : x * y < 2 ^ 256) : mulRayDown x y = .ok (x * y / RAY) := by
  simp [mulRayDown, Checked.mul_of_lt h]

theorem divRayUp_eq {x y : Nat} (h : x * RAY < 2 ^ 256) (hy : 0 < y) :
    divRayUp x y = .ok ((x * RAY) ⌈/⌉ y) :=
  mulDivUp_eq h hy

/-! ## `PriceLib` -/

namespace PriceLib

def ONE_E6 : Nat := 10 ^ 6

/-- `convertDown(PriceAB, AmountB)`: an amount of `B` in `A` at price `A / B`, rounded down. -/
def convertDownB (priceAB amountB : Nat) : Except Revert Nat := mulRayDown amountB priceAB

/-- `convertUp(PriceAB, AmountA)`: an amount of `A` in `B` at price `A / B`, rounded up. -/
def convertUpA (priceAB amountA : Nat) : Except Revert Nat := divRayUp amountA priceAB

end PriceLib

/-! ## `PairLib.getSwapInfo` -/

/-- A pair as `PairLib.readFromAndValidate` lays it out in memory. -/
structure Pair where
  asset0 : Address
  asset1 : Address
  tickSpacing : Int
  /-- The bundle fee in pips, from the pool config store. -/
  feeInE6 : Nat
  price0Over1 : Nat
  price1Over0 : Nat

/-- `PairLib.getSwapInfo(self, zeroToOne)`: the asset in, the asset out and the price of the
asset out in units of the asset in, scaled by `(1e6 - fee) / 1e6`. The assembly's `sub` wraps
modulo `2 ^ 256`; the multiplication after it is checked. -/
def getSwapInfo (self : Pair) (zeroToOne : Bool) : Except Revert (Address × Address × Nat) := do
  let assetIn := if zeroToOne then self.asset0 else self.asset1
  let assetOut := if zeroToOne then self.asset1 else self.asset0
  let priceOutVsIn := if zeroToOne then self.price1Over0 else self.price0Over1
  let oneMinusFee := (PriceLib.ONE_E6 + 2 ^ 256 - self.feeInE6) % 2 ^ 256
  let scaled ← Checked.mul 256 priceOutVsIn oneMinusFee
  return (assetIn, assetOut, scaled / PriceLib.ONE_E6)

theorem getSwapInfo_eq (self : Pair) (zeroToOne : Bool) (hfee : self.feeInE6 ≤ PriceLib.ONE_E6)
    (hmul : (if zeroToOne then self.price1Over0 else self.price0Over1) *
      (PriceLib.ONE_E6 - self.feeInE6) < 2 ^ 256) :
    getSwapInfo self zeroToOne =
      .ok (if zeroToOne then self.asset0 else self.asset1,
        if zeroToOne then self.asset1 else self.asset0,
        (if zeroToOne then self.price1Over0 else self.price0Over1) *
          (PriceLib.ONE_E6 - self.feeInE6) / PriceLib.ONE_E6) := by
  have hsub : (PriceLib.ONE_E6 + 2 ^ 256 - self.feeInE6) % 2 ^ 256 =
      PriceLib.ONE_E6 - self.feeInE6 := by
    rw [show PriceLib.ONE_E6 + 2 ^ 256 - self.feeInE6 = PriceLib.ONE_E6 - self.feeInE6 + 2 ^ 256
      by omega, Nat.add_mod_right, Nat.mod_eq_of_lt (by unfold PriceLib.ONE_E6; omega)]
  simp only [getSwapInfo, hsub, Checked.mul_of_lt hmul]
  rfl

end Angstrom.Contract
