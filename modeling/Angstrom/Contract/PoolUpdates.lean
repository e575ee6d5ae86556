import Angstrom.Contract.Settlement
import Angstrom.Contract.PoolRewards
import Angstrom.Lib.Transition

/-!
# Rewards of liquidity positions

`PoolUpdates.beforeAddLiquidity` and `beforeRemoveLiquidity` (`modules/PoolUpdates.sol`) are the
hooks the pool manager calls before it changes a position's liquidity. For each position the
contract keeps the growth inside its range when it was last paid (`Position.lastGrowthInside`,
`types/Positions.sol`). Removing liquidity pays the position the growth since then times its
liquidity (`X128MathLib.fullMulX128`) and marks it paid; adding liquidity moves the mark so that
what the position is owed stays what it was (`FixedPointMathLib.fullMulDiv`).

`fullMulX128` multiplies to 512 bits with the Chinese remainder step of `FixedPoint.highWord_eq`:
it is `⌊x y / 2 ^ 128⌋`, and it reverts exactly when that does not fit a word
(`fullMulX128_eq`).

One position of one pool is then a system: the pool manager's `modifyLiquidity` on it, with the
hook that the sign of the change selects, and swaps, each followed by `updateAfterTickMove`. What
the position is owed (`PositionState.owed`) is kept by an addition up to one unit of rounding in
the contract's favour (`owed_modifyLiquidity_add`), paid into the pool manager in full by a
removal, and kept by a swap. So over every run, what the pool manager has received plus what is
still owed never exceeds what was owed at the start (`paid_add_owed_le`): no order of liquidity
changes and swaps draws more than the rewards. The pool manager's bitmap is the environment; the
proofs need of it Uniswap's guarantee that the ends of a position holding liquidity are
initialized ticks.
-/

namespace Angstrom.Contract

open FixedPoint Transition

namespace X128MathLib

/-- `fullMulX128(x, y)`: the product modulo `2 ^ 256` shifted down when `mul` did not overflow;
otherwise the high word `p1`, from `mulmod(x, y, not(0))` less the low word and a borrow, a
revert when its top half is set, and its low half above the low word's high half. -/
def fullMulX128 (x y : Nat) : Except Revert Nat :=
  let z := x * y % 2 ^ 256
  if ¬(x = 0 ∨ z / x = y) then
    let mm := x * y % (2 ^ 256 - 1)
    let p1 := wrapSub 256 mm (wrapAdd 256 z (if mm < z then 1 else 0))
    if ¬p1 < 2 ^ 128 then throw .fullMulX128Failed
    else pure (wrapAdd 256 (p1 <<< 128 % 2 ^ 256) (z >>> 128))
  else pure (z >>> 128)

theorem mul_noOverflow_iff {x y : Nat} : (x = 0 ∨ x * y % 2 ^ 256 / x = y) ↔ x * y < 2 ^ 256 := by
  constructor
  · rintro (rfl | h)
    · simp
    · calc x * y = x * (x * y % 2 ^ 256 / x) := by rw [h]
        _ ≤ x * y % 2 ^ 256 := Nat.mul_div_le _ _
        _ < 2 ^ 256 := Nat.mod_lt _ (by positivity)
  · intro h
    rcases Nat.eq_zero_or_pos x with rfl | hx
    · exact .inl rfl
    · exact .inr (by rw [Nat.mod_eq_of_lt h, Nat.mul_div_cancel_left y hx])

theorem fullMulX128_of_lt {x y : Nat} (h : x * y < 2 ^ 256) :
    fullMulX128 x y = pure (x * y / 2 ^ 128) := by
  unfold fullMulX128
  rw [if_neg (not_not.2 (mul_noOverflow_iff.2 h)), Nat.mod_eq_of_lt h, Nat.shiftRight_eq_div_pow]

/-- A product of two words that overflows one: the quotient is the high word's low half above
the low word's high half, and the result reverts exactly when the high word has a top half. -/
theorem fullMulX128_of_le {x y : Nat} (hx : x < 2 ^ 256) (hy : y < 2 ^ 256)
    (h : 2 ^ 256 ≤ x * y) :
    fullMulX128 x y =
      if x * y / 2 ^ 128 < 2 ^ 256 then pure (x * y / 2 ^ 128) else throw .fullMulX128Failed := by
  unfold fullMulX128
  rw [if_pos (mt mul_noOverflow_iff.1 (not_lt.2 h))]
  dsimp only
  rw [highWord_eq (by norm_num) hx hy]
  have h256 : (2 : Nat) ^ 256 = 2 ^ 128 * 2 ^ 128 := by norm_num
  have hhigh : x * y / 2 ^ 256 = x * y / 2 ^ 128 / 2 ^ 128 := by
    rw [h256, Nat.div_div_eq_div_mul]
  have hfits : x * y / 2 ^ 256 < 2 ^ 128 ↔ x * y / 2 ^ 128 < 2 ^ 256 := by
    rw [hhigh, Nat.div_lt_iff_lt_mul (by positivity), ← h256]
  by_cases hq : x * y / 2 ^ 128 < 2 ^ 256
  · rw [if_neg (not_not.2 (hfits.2 hq)), if_pos hq, Nat.shiftLeft_eq, Nat.shiftRight_eq_div_pow]
    have hlow : x * y % 2 ^ 256 / 2 ^ 128 = x * y / 2 ^ 128 % 2 ^ 128 := by
      rw [h256, Nat.mod_mul_right_div_self]
    have hsplit : x * y / 2 ^ 256 * 2 ^ 128 + x * y % 2 ^ 256 / 2 ^ 128 = x * y / 2 ^ 128 := by
      rw [hhigh, hlow, Nat.div_add_mod']
    have hshift : x * y / 2 ^ 256 * 2 ^ 128 < 2 ^ 256 := by
      rw [h256]
      exact Nat.mul_lt_mul_of_pos_right (hfits.2 hq) (by positivity)
    rw [Nat.mod_eq_of_lt hshift, wrapAdd_of_lt (hsplit ▸ hq), hsplit]
  · rw [if_pos (mt hfits.1 hq), if_neg hq]

/-- `fullMulX128` of two words is `⌊x y / 2 ^ 128⌋`, and reverts exactly when that does not fit
a word. -/
theorem fullMulX128_eq {x y : Nat} (hx : x < 2 ^ 256) (hy : y < 2 ^ 256) :
    fullMulX128 x y =
      if x * y / 2 ^ 128 < 2 ^ 256 then pure (x * y / 2 ^ 128) else throw .fullMulX128Failed := by
  by_cases h : x * y < 2 ^ 256
  · rw [fullMulX128_of_lt h, if_pos (lt_of_le_of_lt (Nat.div_le_self _ _) h)]
  · exact fullMulX128_of_le hx hy (not_lt.1 h)

theorem fullMulX128_two_pow : fullMulX128 (2 ^ 200) (2 ^ 100) = pure (2 ^ 172) := by
  rw [fullMulX128_eq (by norm_num) (by norm_num), if_pos (by norm_num)]
  norm_num

theorem fullMulX128_of_uint128 {x y : Nat} (hx : x < 2 ^ 256) (hy : y < 2 ^ 128) :
    fullMulX128 x y = pure (x * y / 2 ^ 128) := by
  by_cases h : x * y < 2 ^ 256
  · exact fullMulX128_of_lt h
  · rw [fullMulX128_of_le hx (lt_trans hy (by norm_num)) (not_lt.1 h), if_pos]
    rw [Nat.div_lt_iff_lt_mul (by positivity)]
    exact Nat.mul_lt_mul'' hx hy

end X128MathLib

namespace FixedPointMathLib

/-- Solady's `fullMulDiv(x, y, d)`, a library the repository imports and does not contain, by
its documented behaviour: `⌊x y / d⌋` to full precision, reverting with `FullMulDivFailed()`
when `d` is zero or the result does not fit a word. -/
def fullMulDiv (x y d : Nat) : Except Revert Nat :=
  if d = 0 ∨ 2 ^ 256 ≤ x * y / d then throw .fullMulDivFailed else pure (x * y / d)

theorem fullMulDiv_eq_ok {x y d r : Nat} (h : fullMulDiv x y d = .ok r) : r = x * y / d := by
  unfold fullMulDiv at h
  split_ifs at h
  exact (Checked.pure_eq_ok.1 h).symm

end FixedPointMathLib

namespace IUniV4

/-- `IUniV4.isInitialized`: the bit of the tick's compressed tick in the pool's bitmap. -/
def isInitialized (bitmap : TickBitmap) (tick tickSpacing : Int) : Bool :=
  let p := TickLib.position (TickLib.compress tick tickSpacing)
  (bitmap.word p.1).testBit p.2

theorem isInitialized_of_initialized {bitmap : TickBitmap} {tick tickSpacing : Int}
    (hs : 0 < tickSpacing) (h : bitmap.isInitialized tickSpacing tick = true) :
    isInitialized bitmap tick tickSpacing = true := by
  unfold TickBitmap.isInitialized at h
  unfold isInitialized TickLib.position
  rw [TickLib.compress_eq hs]
  exact (Bool.and_eq_true_iff.1 h).2

end IUniV4

/-- `Position`: the growth inside the position's range when it was last paid. -/
structure Position where
  lastGrowthInside : BitVec 256

namespace PoolUpdates

open X128MathLib FixedPointMathLib

/-! ## The hooks -/

/-- `if (!isInitialized(tick)) rewardGrowthOutside[uint24(tick)] = growth = globalGrowth`:
Uniswap's convention for a tick the price is above. -/
def initializeOutside (rewards : PoolRewards) (isInitialized : Int → Bool) (tick : Int)
    (growth : BitVec 256) : PoolRewards × BitVec 256 :=
  if !isInitialized tick then
    ({ rewards with
        rewardGrowthOutside :=
          Function.update rewards.rewardGrowthOutside (uint24 tick) rewards.globalGrowth },
      rewards.globalGrowth)
  else (rewards, growth)

/-- The block of `beforeAddLiquidity` that reads the growth inside the range: below it, the lower
end's growth outside less the upper's; above it, the reverse after both ends are initialized by
the convention; inside it, the global growth less both after the lower end is. -/
def growthInsideOnAdd (rewards : PoolRewards) (isInitialized : Int → Bool)
    (currentTick tickLower tickUpper : Int) : PoolRewards × BitVec 256 :=
  let lowerGrowth := rewards.rewardGrowthOutside (uint24 tickLower)
  let upperGrowth := rewards.rewardGrowthOutside (uint24 tickUpper)
  if currentTick < tickLower then (rewards, lowerGrowth - upperGrowth)
  else if tickUpper ≤ currentTick then
    let lower := initializeOutside rewards isInitialized tickLower lowerGrowth
    let upper := initializeOutside lower.1 isInitialized tickUpper upperGrowth
    (upper.1, upper.2 - lower.2)
  else
    let lower := initializeOutside rewards isInitialized tickLower lowerGrowth
    (lower.1, lower.1.globalGrowth - lower.2 - upperGrowth)

section Growth

variable {rewards : PoolRewards} {isInitialized : Int → Bool} {tick : Int} {growth : BitVec 256}

@[simp] theorem initializeOutside_globalGrowth :
    (initializeOutside rewards isInitialized tick growth).1.globalGrowth = rewards.globalGrowth := by
  unfold initializeOutside
  split <;> rfl

theorem initializeOutside_of_ne {u : Nat} (h : u ≠ uint24 tick) :
    (initializeOutside rewards isInitialized tick growth).1.rewardGrowthOutside u =
      rewards.rewardGrowthOutside u := by
  unfold initializeOutside
  split
  · exact Function.update_of_ne h _ _
  · rfl

theorem initializeOutside_snd (hg : growth = rewards.rewardGrowthOutside (uint24 tick)) :
    (initializeOutside rewards isInitialized tick growth).2 =
      (initializeOutside rewards isInitialized tick growth).1.rewardGrowthOutside (uint24 tick) := by
  unfold initializeOutside
  split
  · simp
  · exact hg

theorem initializeOutside_of_initialized (h : isInitialized tick = true) :
    initializeOutside rewards isInitialized tick growth = (rewards, growth) := by
  simp [initializeOutside, h]

variable {currentTick tickLower tickUpper : Int}

theorem growthInsideOnAdd_snd (hne : uint24 tickUpper ≠ uint24 tickLower) :
    (growthInsideOnAdd rewards isInitialized currentTick tickLower tickUpper).2 =
      (growthInsideOnAdd rewards isInitialized currentTick tickLower tickUpper).1.getGrowthInside
        currentTick tickLower tickUpper := by
  unfold growthInsideOnAdd PoolRewards.getGrowthInside
  dsimp only
  by_cases hbelow : currentTick < tickLower
  · simp only [if_pos hbelow]
  · by_cases habove : tickUpper ≤ currentTick
    · simp only [if_neg hbelow, if_pos habove]
      rw [initializeOutside_snd (initializeOutside_of_ne hne).symm, initializeOutside_snd rfl,
        initializeOutside_of_ne hne.symm]
    · simp only [if_neg hbelow, if_neg habove, initializeOutside_globalGrowth]
      rw [initializeOutside_snd rfl, initializeOutside_of_ne hne]

theorem growthInsideOnAdd_of_initialized (hl : isInitialized tickLower = true)
    (hu : isInitialized tickUpper = true) :
    growthInsideOnAdd rewards isInitialized currentTick tickLower tickUpper =
      (rewards, rewards.getGrowthInside currentTick tickLower tickUpper) := by
  unfold growthInsideOnAdd PoolRewards.getGrowthInside
  simp only [initializeOutside_of_initialized hl, initializeOutside_of_initialized hu]
  split_ifs <;> rfl

end Growth

section Hooks

variable (angstrom uniV4 : Address)

/-- `beforeAddLiquidity`, called by `sender`, for a position with `lastLiquidity` that gains
`liquidityDelta`: the growth inside the range, then the position's mark, moved so that the growth
since it times the new liquidity is the growth since the old mark times the old liquidity,
rounded down. -/
def beforeAddLiquidity (rewards : PoolRewards) (position : Position) (bitmap : TickBitmap)
    (sender : Address) (tickSpacing currentTick tickLower tickUpper : Int) (lastLiquidity : Nat)
    (liquidityDelta : Int) : Except Revert (PoolRewards × Position) := do
  if sender ≠ uniV4 then throw .notUniswap
  let growth := growthInsideOnAdd rewards (fun tick => IUniV4.isInitialized bitmap tick tickSpacing)
    currentTick tickLower tickUpper
  let newLiquidity ← Checked.add 128 lastLiquidity (liquidityDelta % 2 ^ 128).toNat
  if lastLiquidity = 0 then pure (growth.1, ⟨growth.2⟩)
  else
    let lastGrowthAdjustment ←
      fullMulDiv (growth.2 - position.lastGrowthInside).toNat lastLiquidity newLiquidity
    pure (growth.1, ⟨growth.2 - BitVec.ofNat 256 lastGrowthAdjustment⟩)

/-- `beforeRemoveLiquidity`, called by `sender`, for a position with `positionTotalLiquidity`:
the growth since the mark times the liquidity is paid in `currency0` to the pool manager
(`Settlement.beforeRemoveLiquidity`), and the mark moves to the growth inside when anything was
paid. -/
def beforeRemoveLiquidity (s : Settlement.State) (poolRewards : PoolRewards) (position : Position)
    (sender currency0 : Address) (currentTick tickLower tickUpper : Int)
    (positionTotalLiquidity : Nat) : Except Revert (Settlement.State × Position) := do
  if sender ≠ uniV4 then throw .notUniswap
  let growthInside := poolRewards.getGrowthInside currentTick tickLower tickUpper
  let rewards ← fullMulX128 (growthInside - position.lastGrowthInside).toNat positionTotalLiquidity
  let s ← Settlement.beforeRemoveLiquidity angstrom uniV4 s sender currency0 rewards
  pure (s, if rewards > 0 then ⟨growthInside⟩ else position)

end Hooks

section HookSpecs

variable {angstrom uniV4 : Address} {bitmap : TickBitmap} {sender currency0 : Address}
  {tickSpacing currentTick tickLower tickUpper : Int}

theorem beforeAddLiquidity_ok {rewards rewards' : PoolRewards} {position position' : Position}
    {lastLiquidity : Nat} {liquidityDelta : Int}
    (h : beforeAddLiquidity uniV4 rewards position bitmap sender tickSpacing currentTick tickLower
      tickUpper lastLiquidity liquidityDelta = .ok (rewards', position')) :
    let growth := growthInsideOnAdd rewards
      (fun tick => IUniV4.isInitialized bitmap tick tickSpacing) currentTick tickLower tickUpper
    let newLiquidity := lastLiquidity + (liquidityDelta % 2 ^ 128).toNat
    sender = uniV4 ∧ rewards' = growth.1 ∧ newLiquidity < 2 ^ 128 ∧
      position'.lastGrowthInside = if lastLiquidity = 0 then growth.2 else
        growth.2 - BitVec.ofNat 256
          ((growth.2 - position.lastGrowthInside).toNat * lastLiquidity / newLiquidity) := by
  intro growth newLiquidity
  unfold beforeAddLiquidity at h
  by_cases hs : sender = uniV4
  · simp only [hs, ne_eq, not_true_eq_false, if_false] at h
    obtain ⟨n, hn, h⟩ := Checked.bind_eq_ok.1 h
    obtain ⟨hfit, rfl⟩ := Checked.add_eq_ok.1 hn
    refine ⟨hs, ?_⟩
    by_cases h0 : lastLiquidity = 0
    · rw [if_pos h0] at h
      cases Checked.pure_eq_ok.1 h
      exact ⟨rfl, hfit, by rw [if_pos h0]⟩
    · rw [if_neg h0] at h
      obtain ⟨adj, hadj, h⟩ := Checked.bind_eq_ok.1 h
      cases Checked.pure_eq_ok.1 h
      exact ⟨rfl, hfit, by rw [if_neg h0, fullMulDiv_eq_ok hadj]⟩
  · simp [hs] at h

theorem beforeRemoveLiquidity_ok {s s' : Settlement.State} {poolRewards : PoolRewards}
    {position position' : Position} {positionTotalLiquidity : Nat}
    (h : beforeRemoveLiquidity angstrom uniV4 s poolRewards position sender currency0 currentTick
      tickLower tickUpper positionTotalLiquidity = .ok (s', position')) :
    let growthInside := poolRewards.getGrowthInside currentTick tickLower tickUpper
    ∃ rewards, fullMulX128 (growthInside - position.lastGrowthInside).toNat
        positionTotalLiquidity = .ok rewards ∧
      Settlement.beforeRemoveLiquidity angstrom uniV4 s sender currency0 rewards = .ok s' ∧
      position' = if rewards > 0 then ⟨growthInside⟩ else position := by
  intro growthInside
  unfold beforeRemoveLiquidity at h
  by_cases hs : sender = uniV4
  · simp only [hs, ne_eq, not_true_eq_false, if_false] at h
    obtain ⟨rewards, hrewards, h⟩ := Checked.bind_eq_ok.1 h
    obtain ⟨s₁, hs₁, h⟩ := Checked.bind_eq_ok.1 h
    cases Checked.pure_eq_ok.1 h
    exact ⟨rewards, hrewards, hs ▸ hs₁, rfl⟩
  · simp [hs] at h

end HookSpecs

/-! ## One position under every run of calls -/

/-- One position of one pool: the contract's tokens and books, the pool's rewards and current
tick, the position's record and its liquidity in the pool manager. -/
structure PositionState where
  settlement : Settlement.State
  rewards : PoolRewards
  currentTick : Int
  position : Position
  liquidity : Nat

/-- A call into the pool manager that touches the position or the pool's rewards, with the pool's
tick bitmap as it stands. -/
inductive PoolCall where
  | modifyLiquidity (bitmap : TickBitmap) (liquidityDelta : Int)
  | swap (bitmap : TickBitmap) (newTick : Int)

end PoolUpdates

namespace LiquidityMath

/-- Uniswap's `LiquidityMath.addDelta`: a liquidity moved by a signed change, reverting with
`SafeCastOverflow()` when it leaves the `uint128` range. -/
def addDelta (x : Nat) (y : Int) : Except Revert Nat :=
  if 0 ≤ x + y ∧ x + y < 2 ^ 128 then pure (x + y).toNat else throw .safeCastOverflow

theorem addDelta_eq_ok {x : Nat} {y : Int} {z : Nat} (h : addDelta x y = .ok z) :
    (z : Int) = x + y ∧ z < 2 ^ 128 := by
  unfold addDelta at h
  split_ifs at h with hz
  obtain rfl := Checked.pure_eq_ok.1 h
  omega

end LiquidityMath

namespace PoolUpdates

open X128MathLib

section System

variable (angstrom uniV4 currency0 : Address) (tickSpacing tickLower tickUpper : Int)

/-- The pool manager's `modifyLiquidity` on the position, as far as it concerns the contract: the
hook that the sign of the change selects, called by the pool manager, then the change. -/
def modifyLiquidity (s : PositionState) (bitmap : TickBitmap) (liquidityDelta : Int) :
    Except Revert PositionState := do
  if liquidityDelta > 0 then
    let r ← beforeAddLiquidity uniV4 s.rewards s.position bitmap uniV4 tickSpacing s.currentTick
      tickLower tickUpper s.liquidity liquidityDelta
    let liquidity ← LiquidityMath.addDelta s.liquidity liquidityDelta
    pure { s with rewards := r.1, position := r.2, liquidity }
  else
    let r ← beforeRemoveLiquidity angstrom uniV4 s.settlement s.rewards s.position uniV4 currency0
      s.currentTick tickLower tickUpper s.liquidity
    let liquidity ← LiquidityMath.addDelta s.liquidity liquidityDelta
    pure { s with settlement := r.1, position := r.2, liquidity }

/-- A swap that moves the price to `newTick`, and the hook's `updateAfterTickMove` after it, with
gas for the ticks it passes. -/
def swap (s : PositionState) (bitmap : TickBitmap) (newTick : Int) : Except Revert PositionState :=
  match s.rewards.updateAfterTickMove bitmap s.currentTick newTick tickSpacing
      ((newTick - s.currentTick).natAbs + 1) with
  | some rewards => pure { s with rewards, currentTick := newTick }
  | none => throw .outOfGas

def step (s : PositionState) : PoolCall → Except Revert PositionState
  | .modifyLiquidity bitmap liquidityDelta =>
    modifyLiquidity angstrom uniV4 currency0 tickSpacing tickLower tickUpper s bitmap liquidityDelta
  | .swap bitmap newTick => swap tickSpacing s bitmap newTick

/-- Uniswap's guarantee: while the position holds liquidity its ends are initialized ticks. -/
def EndsInitialized (s : PositionState) (bitmap : TickBitmap) : Prop :=
  0 < s.liquidity → bitmap.isInitialized tickSpacing tickLower = true ∧
    bitmap.isInitialized tickSpacing tickUpper = true

/-- What the pool manager guarantees of a call: the bitmap is the pool's, and a swap ends at a
tick of the `int24` range. -/
def Admissible (s : PositionState) : PoolCall → Prop
  | .modifyLiquidity bitmap _ => EndsInitialized tickSpacing tickLower tickUpper s bitmap
  | .swap bitmap newTick => Int24 newTick ∧ EndsInitialized tickSpacing tickLower tickUpper s bitmap

def system (s₀ : PositionState) : System PositionState PoolCall :=
  guarded (· = s₀) (Admissible tickSpacing tickLower tickUpper)
    (step angstrom uniV4 currency0 tickSpacing tickLower tickUpper)

/-- What the position is owed: the growth inside its range since it was last paid times its
liquidity, in `X128`, as `beforeRemoveLiquidity` computes it. -/
def PositionState.owed (s : PositionState) : Nat :=
  (s.rewards.getGrowthInside s.currentTick tickLower tickUpper -
    s.position.lastGrowthInside).toNat * s.liquidity / 2 ^ 128

/-- A position on ticks `10` to `20` of a pool with spacing `10`, at tick `15`, with liquidity
`100` and `4090 * 2 ^ 128` of growth inside since its mark: it is owed `409000` of asset `10`. The
contract, at `1`, holds a million of it, and the pool manager is `2`. -/
def samplePosition : PositionState where
  settlement := ⟨fun asset holder => if asset = 10 ∧ holder = 1 then 1000000 else 0,
    fun _ _ => 0, 5⟩
  rewards := ⟨fun slot => if slot = 10 then BitVec.ofNat 256 (2 ^ 130)
    else if slot = 20 then BitVec.ofNat 256 (2 ^ 129) else 0, BitVec.ofNat 256 (2 ^ 140)⟩
  currentTick := 15
  position := ⟨0⟩
  liquidity := 100

theorem sampleWord_lt (w : Int) : (if w = 0 then 6 else 0 : Nat) < 2 ^ 256 := by
  split <;> decide

def sampleBitmap : TickBitmap := ⟨fun w => if w = 0 then 6 else 0, sampleWord_lt⟩

theorem endsInitialized_sampleBitmap (s : PositionState) :
    EndsInitialized 10 10 20 s sampleBitmap :=
  fun _ => ⟨by decide +kernel, by decide +kernel⟩

end System

section Steps

variable {angstrom uniV4 currency0 : Address} {tickSpacing tickLower tickUpper : Int}
  {s s' : PositionState} {bitmap : TickBitmap}

/-- An addition leaves the contract's tokens and the tick, and rescales what is owed: with `D` the
growth inside since the mark, `D L / 2 ^ 128` before and `⌊D L / L'⌋ L' / 2 ^ 128` after. -/
theorem modifyLiquidity_add_owed (hs : 0 < tickSpacing) (hl : Int24 tickLower)
    (hu : Int24 tickUpper) (hlu : tickLower < tickUpper) {liquidityDelta : Int}
    (hδ : 0 < liquidityDelta) (hinit : EndsInitialized tickSpacing tickLower tickUpper s bitmap)
    (h : modifyLiquidity angstrom uniV4 currency0 tickSpacing tickLower tickUpper s bitmap
      liquidityDelta = .ok s') :
    s'.settlement = s.settlement ∧ s'.currentTick = s.currentTick ∧ 0 < s'.liquidity ∧
      s'.liquidity < 2 ^ 128 ∧ ∃ D, s.owed tickLower tickUpper = D * s.liquidity / 2 ^ 128 ∧
        s'.owed tickLower tickUpper = D * s.liquidity / s'.liquidity * s'.liquidity / 2 ^ 128 := by
  unfold modifyLiquidity at h
  rw [if_pos hδ] at h
  obtain ⟨r, hr, h⟩ := Checked.bind_eq_ok.1 h
  obtain ⟨liquidity, hliq, h⟩ := Checked.bind_eq_ok.1 h
  obtain rfl := Checked.pure_eq_ok.1 h
  obtain ⟨hliq, hlt⟩ := LiquidityMath.addDelta_eq_ok hliq
  obtain ⟨-, hrewards, -, hmark⟩ := beforeAddLiquidity_ok hr
  have hnew : s.liquidity + (liquidityDelta % 2 ^ 128).toNat = liquidity := by
    rw [Int.emod_eq_of_lt hδ.le (by omega)]
    omega
  refine ⟨rfl, rfl, show 0 < liquidity by omega, hlt, (s.rewards.getGrowthInside s.currentTick tickLower tickUpper -
    s.position.lastGrowthInside).toNat, rfl, ?_⟩
  simp only [PositionState.owed]
  rw [hmark, hrewards, hnew]
  by_cases h0 : s.liquidity = 0
  · -- a new position is marked at the growth inside the range that the hook leaves
    have hne : uint24 tickUpper ≠ uint24 tickLower := fun heq => by
      rw [uint24_inj hu hl] at heq
      omega
    rw [if_pos h0, ← growthInsideOnAdd_snd hne, h0]
    simp
  · -- the ends are initialized: the hook writes nothing and moves the mark by the rescaled growth
    obtain ⟨hil, hiu⟩ := hinit (Nat.pos_of_ne_zero h0)
    rw [if_neg h0, @growthInsideOnAdd_of_initialized s.rewards
      (fun tick => IUniV4.isInitialized bitmap tick tickSpacing) s.currentTick tickLower tickUpper
      (IUniV4.isInitialized_of_initialized hs hil) (IUniV4.isInitialized_of_initialized hs hiu)]
    dsimp only
    set D := (s.rewards.getGrowthInside s.currentTick tickLower tickUpper -
      s.position.lastGrowthInside).toNat
    have hadj : D * s.liquidity / liquidity < 2 ^ 256 := by
      have hD : D < 2 ^ 256 := BitVec.isLt _
      have hdiv : D * s.liquidity / liquidity ≤ D :=
        Nat.div_le_of_le_mul (Nat.mul_le_mul_left D (by omega) |>.trans (Nat.mul_comm _ _).le)
      omega
    rw [sub_sub_cancel, BitVec.toNat_ofNat, Nat.mod_eq_of_lt hadj]

/-- An addition of liquidity keeps what the position is owed, up to one unit of rounding in the
contract's favour, and moves none of the contract's tokens. -/
theorem owed_modifyLiquidity_add (hs : 0 < tickSpacing) (hl : Int24 tickLower)
    (hu : Int24 tickUpper) (hlu : tickLower < tickUpper) {liquidityDelta : Int}
    (hδ : 0 < liquidityDelta) (hinit : EndsInitialized tickSpacing tickLower tickUpper s bitmap)
    (h : modifyLiquidity angstrom uniV4 currency0 tickSpacing tickLower tickUpper s bitmap
      liquidityDelta = .ok s') :
    s'.settlement = s.settlement ∧ s'.owed tickLower tickUpper ≤ s.owed tickLower tickUpper ∧
      s.owed tickLower tickUpper ≤ s'.owed tickLower tickUpper + 1 := by
  obtain ⟨hset, -, hpos, hlt, D, howed, howed'⟩ := modifyLiquidity_add_owed hs hl hu hlu hδ hinit h
  obtain ⟨hle, hge⟩ := div_mul_div_le (D * s.liquidity) hpos hlt.le
  rw [howed, howed']
  exact ⟨hset, hle, hge⟩

/-- Half as much liquidity again on the sample position. -/
theorem owed_modifyLiquidity_add_samplePosition :
    ∃ s', modifyLiquidity 1 2 10 10 10 20 samplePosition sampleBitmap 50 = .ok s' ∧
      s'.settlement = samplePosition.settlement ∧ s'.owed 10 20 ≤ samplePosition.owed 10 20 ∧
      samplePosition.owed 10 20 ≤ s'.owed 10 20 + 1 := by
  obtain ⟨s', h⟩ := Checked.exists_eq_ok_of_isOk
    (show (modifyLiquidity 1 2 10 10 10 20 samplePosition sampleBitmap 50).isOk = true by
      decide +kernel)
  exact ⟨s', h, owed_modifyLiquidity_add (by decide) (by decide) (by decide) (by decide)
    (by decide) (endsInitialized_sampleBitmap _) h⟩

theorem modifyLiquidity_remove_paid {liquidityDelta : Int}
    (hδ : liquidityDelta ≤ 0) (hL : s.liquidity < 2 ^ 128)
    (h : modifyLiquidity angstrom uniV4 currency0 tickSpacing tickLower tickUpper s bitmap
      liquidityDelta = .ok s') :
    (∀ holder, (s'.settlement.tokens currency0 holder : Int) =
      s.settlement.tokens currency0 holder - (if angstrom = holder then s.owed tickLower tickUpper else 0) +
        (if uniV4 = holder then s.owed tickLower tickUpper else 0)) ∧
      s'.owed tickLower tickUpper = 0 ∧ s'.currentTick = s.currentTick ∧ s'.liquidity < 2 ^ 128 := by
  unfold modifyLiquidity at h
  rw [if_neg (not_lt.2 hδ)] at h
  obtain ⟨r, hr, h⟩ := Checked.bind_eq_ok.1 h
  obtain ⟨liquidity, hliq, h⟩ := Checked.bind_eq_ok.1 h
  obtain rfl := Checked.pure_eq_ok.1 h
  obtain ⟨hliq, hlt⟩ := LiquidityMath.addDelta_eq_ok hliq
  obtain ⟨rewards, hrewards, hpay, hmark⟩ := beforeRemoveLiquidity_ok hr
  rw [fullMulX128_of_uint128 (BitVec.isLt _) hL] at hrewards
  obtain rfl : s.owed tickLower tickUpper = rewards := Checked.pure_eq_ok.1 hrewards
  refine ⟨?_, ?_, rfl, hlt⟩
  · intro holder
    obtain ⟨-, ⟨h0, hs'⟩ | ⟨tokens, htok, hs'⟩⟩ := Settlement.beforeRemoveLiquidity_ok hpay
    · simp [hs', h0]
    · rw [hs']
      simpa using Settlement.tokens_transferToken htok currency0 holder
  · simp only [PositionState.owed]
    rw [hmark]
    by_cases hpos : s.owed tickLower tickUpper > 0
    · -- marked at the growth inside: nothing accrues since
      simp [hpos]
    · -- nothing was owed, and less liquidity owes no more
      rw [if_neg hpos]
      apply Nat.eq_zero_of_le_zero
      calc _ ≤ s.owed tickLower tickUpper :=
            Nat.div_le_div_right (Nat.mul_le_mul_left _ (by omega))
        _ ≤ 0 := by omega

theorem swap_owed (hs : 0 < tickSpacing) (hl : Int24 tickLower) (hu : Int24 tickUpper)
    (hlu : tickLower < tickUpper) {newTick : Int} (hcur : Int24 s.currentTick)
    (hnew : Int24 newTick) (hinit : EndsInitialized tickSpacing tickLower tickUpper s bitmap)
    (h : swap tickSpacing s bitmap newTick = .ok s') :
    s'.settlement = s.settlement ∧ s'.currentTick = newTick ∧ s'.liquidity = s.liquidity ∧
      s'.owed tickLower tickUpper = s.owed tickLower tickUpper := by
  obtain ⟨r, hr, hflip⟩ :=
    PoolRewards.updateAfterTickMove_flipped s.rewards bitmap _ hs hcur hnew (Nat.lt_succ_self _)
  unfold swap at h
  rw [hr] at h
  obtain rfl := Checked.pure_eq_ok.1 h
  refine ⟨rfl, rfl, rfl, ?_⟩
  simp only [PositionState.owed]
  rcases Nat.eq_zero_or_pos s.liquidity with h0 | hpos
  · simp [h0]
  · obtain ⟨hil, hiu⟩ := hinit hpos
    rw [PoolRewards.getGrowthInside_of_flipped hflip hl hu hlu hil hiu]

end Steps

section Run

/-- What a run keeps from `s₀`: the liquidity fits a `uint128`, the tick is an `int24`, and what
the pool manager holds plus what the position is owed has not grown. -/
structure Kept (uniV4 currency0 : Address) (tickLower tickUpper : Int) (s₀ s : PositionState) :
    Prop where
  liquidity_lt : s.liquidity < 2 ^ 128
  currentTick : Int24 s.currentTick
  paid_owed_le : s.settlement.tokens currency0 uniV4 + s.owed tickLower tickUpper ≤
    s₀.settlement.tokens currency0 uniV4 + s₀.owed tickLower tickUpper

variable {angstrom uniV4 currency0 : Address} {tickSpacing tickLower tickUpper : Int}
  {s₀ s s' : PositionState}

theorem kept_step (hne : angstrom ≠ uniV4) (hs : 0 < tickSpacing) (hl : Int24 tickLower)
    (hu : Int24 tickUpper) (hlu : tickLower < tickUpper) {c : PoolCall}
    (hk : Kept uniV4 currency0 tickLower tickUpper s₀ s)
    (hc : Admissible tickSpacing tickLower tickUpper s c)
    (h : step angstrom uniV4 currency0 tickSpacing tickLower tickUpper s c = .ok s') :
    Kept uniV4 currency0 tickLower tickUpper s₀ s' := by
  have hbound := hk.paid_owed_le
  cases c with
  | modifyLiquidity bitmap liquidityDelta =>
    by_cases hδ : 0 < liquidityDelta
    · obtain ⟨hset, htick, hpos, hlt, D, howed, howed'⟩ :=
        modifyLiquidity_add_owed hs hl hu hlu hδ hc h
      have hle := (div_mul_div_le (D * s.liquidity) hpos hlt.le).1
      refine ⟨hlt, htick ▸ hk.currentTick, ?_⟩
      rw [hset, howed']
      rw [howed] at hbound
      omega
    · obtain ⟨htok, howed', htick, hlt⟩ :=
        modifyLiquidity_remove_paid (not_lt.1 hδ) hk.liquidity_lt h
      have hpaid := htok uniV4
      rw [if_neg hne, if_pos rfl] at hpaid
      refine ⟨hlt, htick ▸ hk.currentTick, ?_⟩
      rw [howed']
      omega
  | swap bitmap newTick =>
    obtain ⟨hset, htick, hliq, howed⟩ := swap_owed hs hl hu hlu hk.currentTick hc.1 hc.2 h
    refine ⟨hliq ▸ hk.liquidity_lt, htick ▸ hc.1, ?_⟩
    rw [hset, howed]
    exact hbound

/-- Over every run of liquidity changes and swaps on a position, what the pool manager has
received in `currency0` plus what the position is still owed never exceeds what was owed at the
start. -/
theorem paid_add_owed_le (hne : angstrom ≠ uniV4) (hs : 0 < tickSpacing) (hl : Int24 tickLower)
    (hu : Int24 tickUpper) (hlu : tickLower < tickUpper) (hL₀ : s₀.liquidity < 2 ^ 128)
    (ht₀ : Int24 s₀.currentTick)
    (h : Reachable (system angstrom uniV4 currency0 tickSpacing tickLower tickUpper s₀) s) :
    s.settlement.tokens currency0 uniV4 + s.owed tickLower tickUpper ≤
      s₀.settlement.tokens currency0 uniV4 + s₀.owed tickLower tickUpper := by
  have hinv : Invariant (system angstrom uniV4 currency0 tickSpacing tickLower tickUpper s₀)
      (Kept uniV4 currency0 tickLower tickUpper s₀) := by
    apply guarded_invariant
    · rintro s rfl
      exact ⟨hL₀, ht₀, le_refl _⟩
    · intro s c s' hc hk hstep
      exact kept_step hne hs hl hu hlu hk hc hstep
  exact (hinv.reachable h).paid_owed_le

/-- A swap above the range, an addition, a removal that pays the position, a swap below the range
and a change of zero. -/
def sampleCalls : List PoolCall :=
  [.swap sampleBitmap 25, .modifyLiquidity sampleBitmap 50, .modifyLiquidity sampleBitmap (-30),
    .swap sampleBitmap 5, .modifyLiquidity sampleBitmap 0]

theorem paid_add_owed_le_sampleCalls :
    ∃ s, Reachable (system 1 2 10 10 10 20 samplePosition) s ∧
      s.settlement.tokens 10 2 + s.owed 10 20 ≤
        samplePosition.settlement.tokens 10 2 + samplePosition.owed 10 20 := by
  obtain ⟨s, hrun⟩ := Checked.exists_eq_ok_of_isOk
    (show (sampleCalls.foldlM (step 1 2 10 10 10 20) samplePosition).isOk = true by
      decide +kernel)
  have hadmissible : ∀ t, ∀ c ∈ sampleCalls, Admissible 10 10 20 t c := by
    intro t c hc
    simp only [sampleCalls, List.mem_cons, List.not_mem_nil, or_false] at hc
    rcases hc with rfl | rfl | rfl | rfl | rfl
    all_goals first
      | exact endsInitialized_sampleBitmap t
      | exact ⟨by decide, endsInitialized_sampleBitmap t⟩
  have hreach : Reachable (system 1 2 10 10 10 20 samplePosition) s :=
    guarded_reachable_foldlM sampleCalls hadmissible (Reachable.init rfl) hrun
  exact ⟨s, hreach, paid_add_owed_le (by decide) (by decide) (by decide) (by decide) (by decide)
    (by decide) (by decide) hreach⟩

end Run

end PoolUpdates

end Angstrom.Contract
