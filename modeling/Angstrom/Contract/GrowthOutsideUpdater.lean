import Angstrom.Contract.PoolRewards
import Angstrom.Contract.MixedSign
import Angstrom.Contract.BundleDecoding
import Angstrom.Lib.Transition

/-!
# Distributing a pool's rewards over its ticks

`GrowthOutsideUpdater._decodeAndReward` (`modules/GrowthOutsideUpdater.sol`) pays out the rewards
of one pool update. A `CurrentOnly` update adds an amount over the pool's liquidity to the global
growth. A `MultiTick` update names a start tick and the liquidity in range there, and then one
amount for the start tick and for each initialized tick the contract walks through on the way to
the current tick, and one more for the current tick's range. The walk is `_rewardBelow` when the
start tick is at or below the current tick and `_rewardAbove` otherwise: two `do … while` loops
over the tick bitmap that, at each initialized tick, add the tick's amount over the liquidity to a
cumulative growth, add the cumulative growth to the tick's growth outside, cross the tick's net
liquidity and fold the tick into a checksum. The end liquidity must be the pool's liquidity and
the checksum the one the update names.

The two loops are one loop of the library (`Transition.doWhile`) with their own body, search and
test. For a spacing up to `MAX_TICK_SPACING` and ticks in `[MIN_TICK, MAX_TICK]` every search a
loop makes returns an `int24` tick, so that the contract's checked `int24` arithmetic, which the
model leaves to integers, does not revert; with gas above the distance walked, each loop is then
the fold of its body over the start tick and the initialized ticks between it and the current
tick, in the order walked (`rewardBelow_eq_foldlM`, `rewardAbove_eq_foldlM`): the bitmap search
finds what a scan of every tick would. Walking down, this needs a start tick that is a multiple of the spacing: the first
search starts one compressed tick below the start tick's own, and passes over the multiple of the
spacing just below a start tick that is not one.

The fold has a closed form (`foldlM_distributed`): the `j`-th tick walked through earns the `j`-th
amount over the liquidity after crossing the ticks before it (`growthAt`), and its growth outside
rises by the growth earned up to and including its own. So a `MultiTick` update that goes through
adds to each tick walked through exactly that growth, leaves every other tick as it was, raises
the global growth by everything paid out, and returns the sum of the amounts
(`decodeAndReward_multiTick`).

The pool manager's state that the update reads is a `PoolView`: the tick bitmap, each tick's net
liquidity and the pool's liquidity. Growth values are `uint256` words (`BitVec 256`), added modulo
`2 ^ 256` as in the `unchecked` blocks; the checksum's hash is a parameter.
-/

namespace Angstrom.Contract

open Bytes TickLib Transition

/-- `X128MathLib.flatDivX128`: `div(shl(128, numerator), denominator)`, zero for a zero
denominator. -/
def flatDivX128 (numerator denominator : Nat) : BitVec 256 :=
  BitVec.ofNat 256 ((numerator <<< 128) % 2 ^ 256 / denominator)

/-- What `_decodeAndReward` reads of a pool through `IUniV4`: the tick bitmap
(`getNextTickGt`, `getNextTickLt`), the net liquidity of each tick, an `int128`
(`getTickLiquidity`), and the pool's liquidity, a `uint128` (`getPoolLiquidity`). -/
structure PoolView where
  bitmap : TickBitmap
  liquidityNet : Int → Int
  liquidity : Nat
  liquidityNet_fits : ∀ t, -2 ^ 127 ≤ liquidityNet t ∧ liquidityNet t < 2 ^ 127
  liquidity_lt : liquidity < 2 ^ 128

namespace GrowthOutsideUpdater

/-- The locals of `_rewardBelow` and `_rewardAbove` and the storage they write: the reader, the
running total, the cumulative growth, the liquidity in range, the checksum, and the growth
outside of every tick slot. -/
structure RewardState where
  reader : CalldataReader
  total : Nat
  cumulativeGrowth : BitVec 256
  liquidity : Nat
  rewardChecksum : Nat
  rewardGrowthOutside : Nat → BitVec 256

section Loops

variable (keccak256 : List UInt8 → Nat) (cd : Calldata) (pool : PoolView)

/-- The body of both loops at an initialized tick: read the tick's amount, add it to the total,
add its growth to the cumulative growth and the cumulative growth to the tick's growth outside,
cross the tick's net liquidity with `cross` (`MixedSignLib.add` walking up, `sub` walking down),
and hash the checksum with the new liquidity and the tick (`keccak256(0x00, 0x33)` over the
checksum word, the `uint128` liquidity and the tick's three bytes). -/
def rewardInitializedTick (cross : Nat → Nat → Except Revert Nat) (self : RewardState)
    (rewardTick : Int) : Except Revert RewardState := do
  let (reader, amount) := readU128 cd self.reader
  let total ← Checked.add 256 self.total amount
  let cumulativeGrowth := self.cumulativeGrowth + flatDivX128 amount self.liquidity
  let rewardGrowthOutside := Function.update self.rewardGrowthOutside (uint24 rewardTick)
    (self.rewardGrowthOutside (uint24 rewardTick) + cumulativeGrowth)
  let liquidity ← cross self.liquidity (word (pool.liquidityNet rewardTick))
  let rewardChecksum :=
    keccak256 (toBE 32 self.rewardChecksum ++ toBE 16 liquidity ++ toBE 3 (uint24 rewardTick))
  pure { reader, total, cumulativeGrowth, liquidity, rewardChecksum, rewardGrowthOutside }

def RewardState.start (rewardGrowthOutside : Nat → BitVec 256) (reader : CalldataReader)
    (liquidity : Nat) : RewardState :=
  ⟨reader, 0, 0, liquidity, 0, rewardGrowthOutside⟩

variable (tickSpacing currentTick : Int) (fuel : Nat)

/-- `_rewardBelow`, with `fuel` iterations of gas: from `rewardTick`, flagged initialized, reward
and step up with `getNextTickGt` while the next tick is at or below the current tick. -/
def rewardBelow (rewardGrowthOutside : Nat → BitVec 256) (rewardTick : Int)
    (reader : CalldataReader) (liquidity : Nat) : Except Revert RewardState :=
  doWhile .outOfGas (rewardInitializedTick keccak256 cd pool MixedSignLib.addUint128)
    (fun t => pool.bitmap.getNextTickGt t tickSpacing) (fun t => decide (t ≤ currentTick)) fuel
    (.start rewardGrowthOutside reader liquidity) true rewardTick

/-- `_rewardAbove`, with `fuel` iterations of gas: from `rewardTick`, flagged initialized, reward
and step down with `getNextTickLt` while the next tick is above the current tick. -/
def rewardAbove (rewardGrowthOutside : Nat → BitVec 256) (rewardTick : Int)
    (reader : CalldataReader) (liquidity : Nat) : Except Revert RewardState :=
  doWhile .outOfGas (rewardInitializedTick keccak256 cd pool MixedSignLib.subUint128)
    (fun t => pool.bitmap.getNextTickLt t tickSpacing) (fun t => decide (currentTick < t)) fuel
    (.start rewardGrowthOutside reader liquidity) true rewardTick

/-- `_decodeAndReward` on the pool's rewards, with `fuel` iterations of gas for the walk; it
returns the reader, the total paid out and the new rewards. -/
def decodeAndReward (currentOnly : Bool) (reader : CalldataReader) (poolRewards : PoolRewards) :
    Except Revert (CalldataReader × Nat × PoolRewards) :=
  if currentOnly then
    let (reader, amount) := readU128 cd reader
    let (reader, expectedLiquidity) := readU128 cd reader
    -- an empty update, kept for the swap encoding
    if amount = 0 ∨ expectedLiquidity = 0 then pure (reader, amount, poolRewards)
    else if expectedLiquidity ≠ pool.liquidity then throw .justInTimeLiquidityChange
    else pure (reader, amount,
      { poolRewards with globalGrowth := poolRewards.globalGrowth + flatDivX128 amount pool.liquidity })
  else do
    let (reader, startTick) := readI24 cd reader
    let (reader, liquidity) := readU128 cd reader
    let (newReader, amountsEnd) := readU24End cd reader
    let r ← (if startTick ≤ currentTick then
        rewardBelow keccak256 cd pool tickSpacing currentTick fuel poolRewards.rewardGrowthOutside
          startTick newReader liquidity
      else
        rewardAbove keccak256 cd pool tickSpacing currentTick fuel poolRewards.rewardGrowthOutside
          startTick newReader liquidity)
    let (newReader, donateToCurrent) := readU128 cd r.reader
    let cumulativeGrowth := r.cumulativeGrowth + flatDivX128 donateToCurrent r.liquidity
    let total ← Checked.add 256 r.total donateToCurrent
    requireAtEndOf newReader amountsEnd
    if r.liquidity ≠ pool.liquidity then throw (.wrongEndLiquidity r.liquidity pool.liquidity)
    let (newReader, expectedRewardChecksum) := readU160 cd newReader
    if expectedRewardChecksum ≠ r.rewardChecksum >>> 96 then throw .justInTimeLiquidityChange
    pure (newReader, total,
      ⟨r.rewardGrowthOutside, poolRewards.globalGrowth + cumulativeGrowth⟩)

end Loops

/-! ## The ticks a walk rewards -/

def ticksBetween (lo hi : Int) : List Int :=
  (List.range (hi - lo).toNat).map fun i : Nat => lo + 1 + i

theorem mem_ticksBetween {lo hi u : Int} : u ∈ ticksBetween lo hi ↔ lo < u ∧ u ≤ hi := by
  unfold ticksBetween
  rw [List.mem_map]
  constructor
  · rintro ⟨i, hi', rfl⟩
    rw [List.mem_range] at hi'
    omega
  · rintro ⟨hlo, hhi⟩
    exact ⟨(u - lo - 1).toNat, List.mem_range.2 (by omega), by omega⟩

theorem nodup_ticksBetween (lo hi : Int) : (ticksBetween lo hi).Nodup :=
  (List.nodup_range).map fun i j (h : lo + 1 + (i : Int) = lo + 1 + j) => by omega

theorem ticksBetween_split {lo m hi : Int} (hlo : lo < m) (hhi : m ≤ hi) :
    ticksBetween lo hi = ticksBetween lo (m - 1) ++ m :: ticksBetween m hi := by
  have hlen : (hi - lo).toNat = (m - 1 - lo).toNat + ((hi - m).toNat + 1) := by omega
  unfold ticksBetween
  rw [hlen, List.range_add, List.range_succ_eq_map, List.map_append, List.map_map, List.map_cons,
    List.map_map]
  congr 2
  · simp only [Function.comp_apply]
    omega
  · apply List.map_congr_left
    intro i _
    simp only [Function.comp_apply]
    omega

theorem filter_ticksBetween_eq_nil {p : Int → Bool} {lo hi : Int}
    (h : ∀ u, lo < u → u ≤ hi → p u = false) : (ticksBetween lo hi).filter p = [] := by
  rw [List.filter_eq_nil_iff]
  intro u hu
  obtain ⟨hlo, hhi⟩ := mem_ticksBetween.1 hu
  simp [h u hlo hhi]

section Trails

variable (bitmap : TickBitmap) (tickSpacing currentTick : Int)

/-- The initialized ticks of `(tick, currentTick]`, upward: what a walk up from `tick` meets. -/
def trailBelow (tick : Int) : List Int :=
  (ticksBetween tick currentTick).filter (bitmap.isInitialized tickSpacing)

/-- The initialized ticks of `(currentTick, tick)`, downward: what a walk down from `tick` meets. -/
def trailAbove (tick : Int) : List Int :=
  ((ticksBetween currentTick (tick - 1)).filter (bitmap.isInitialized tickSpacing)).reverse

/-- The ticks a `MultiTick` update from `startTick` rewards, in the order walked: the start tick,
then the initialized ticks up to the current tick, or down to the one above it. -/
def rewardedTicks (startTick : Int) : List Int :=
  startTick :: if startTick ≤ currentTick then trailBelow bitmap tickSpacing currentTick startTick
    else trailAbove bitmap tickSpacing currentTick startTick

/-- The direction in which the walk from `startTick` crosses liquidity: `1` walking up, `-1`
walking down. -/
def crossSign (startTick : Int) : Int := if startTick ≤ currentTick then 1 else -1

variable {bitmap tickSpacing currentTick}

theorem trail_below (hs : 0 < tickSpacing) :
    Trail (fun t => bitmap.getNextTickGt t tickSpacing) (fun t => decide (t ≤ currentTick))
      (fun _ => True) (trailBelow bitmap tickSpacing currentTick) := by
  refine Trail.intro fun t _ n (hn : bitmap.getNextTickGt t tickSpacing = n) => ⟨trivial, ?_⟩
  obtain ⟨hgt, -, hnone, hflag⟩ := hn ▸ bitmap.getNextTickGt_spec t hs
  obtain ⟨flag, next⟩ := n
  dsimp only at hgt hnone hflag ⊢
  unfold trailBelow
  by_cases hc : next ≤ currentTick
  · -- the walk goes on to `next`, and nothing before it is initialized
    rw [if_pos (decide_eq_true hc), ticksBetween_split hgt hc, List.filter_append,
      List.filter_cons, filter_ticksBetween_eq_nil fun u h1 h2 => hnone u h1 (by omega), ← hflag]
    cases flag <;> rfl
  · rw [if_neg (by simpa using hc)]
    exact filter_ticksBetween_eq_nil fun u h1 h2 => hnone u h1 (by omega)

theorem trail_above (hs : 0 < tickSpacing) :
    Trail (fun t => bitmap.getNextTickLt t tickSpacing) (fun t => decide (currentTick < t))
      (tickSpacing ∣ ·) (trailAbove bitmap tickSpacing currentTick) := by
  refine Trail.intro fun t (ht : tickSpacing ∣ t) n (hn : bitmap.getNextTickLt t tickSpacing = n) => ?_
  obtain ⟨hlt, hdvd, hnone, hflag⟩ := hn ▸ bitmap.getNextTickLt_spec hs ht
  obtain ⟨flag, next⟩ := n
  dsimp only at hlt hdvd hnone hflag ⊢
  refine ⟨hdvd, ?_⟩
  unfold trailAbove
  by_cases hc : currentTick < next
  · -- the walk goes on to `next`, and nothing between it and `t` is initialized
    rw [if_pos (decide_eq_true hc), ticksBetween_split hc (by omega : next ≤ t - 1),
      List.filter_append, List.filter_cons,
      filter_ticksBetween_eq_nil fun u h1 h2 => hnone u h1 (by omega), ← hflag]
    cases flag <;> simp
  · rw [if_neg (by simpa using hc),
      filter_ticksBetween_eq_nil fun u h1 h2 => hnone u (by omega) (by omega)]
    rfl

theorem mem_rewardedTicks {startTick u : Int}
    (hu : u ∈ rewardedTicks bitmap tickSpacing currentTick startTick) :
    (startTick ≤ currentTick → startTick ≤ u ∧ u ≤ currentTick) ∧
      (currentTick < startTick → currentTick < u ∧ u ≤ startTick) := by
  unfold rewardedTicks at hu
  rcases List.mem_cons.1 hu with rfl | hu
  · exact ⟨fun h => ⟨le_rfl, h⟩, fun h => ⟨h, le_rfl⟩⟩
  split_ifs at hu with hdir
  · obtain ⟨hlo, hhi⟩ := mem_ticksBetween.1 (List.mem_filter.1 hu).1
    exact ⟨fun _ => ⟨hlo.le, hhi⟩, fun h => absurd hdir (not_le.2 h)⟩
  · obtain ⟨hlo, hhi⟩ := mem_ticksBetween.1 (List.mem_filter.1 (List.mem_reverse.1 hu)).1
    exact ⟨fun h => absurd h hdir, fun _ => ⟨hlo, by omega⟩⟩

theorem int24_of_mem_rewardedTicks {startTick u : Int} (hstart : Int24 startTick)
    (hcur : Int24 currentTick) (hu : u ∈ rewardedTicks bitmap tickSpacing currentTick startTick) :
    Int24 u := by
  have hrange := mem_rewardedTicks hu
  unfold Int24 at *
  by_cases hdir : startTick ≤ currentTick
  · have := hrange.1 hdir
    omega
  · have := hrange.2 (not_le.1 hdir)
    omega

theorem nodup_slots_rewardedTicks {startTick : Int} (hstart : Int24 startTick)
    (hcur : Int24 currentTick) :
    ((rewardedTicks bitmap tickSpacing currentTick startTick).map uint24).Nodup := by
  have h24 := fun u => @int24_of_mem_rewardedTicks bitmap tickSpacing currentTick startTick u
    hstart hcur
  refine List.Nodup.map_on (fun x hx y hy hxy => (uint24_inj (h24 x hx) (h24 y hy)).1 hxy) ?_
  unfold rewardedTicks
  refine List.nodup_cons.2 ⟨fun hmem => ?_, ?_⟩
  · -- the start tick is not met again: the trail lies strictly on one side of it
    split_ifs at hmem
    · exact absurd (mem_ticksBetween.1 (List.mem_filter.1 hmem).1).1 (lt_irrefl _)
    · have := (mem_ticksBetween.1 (List.mem_filter.1 (List.mem_reverse.1 hmem)).1).2
      omega
  · split_ifs
    · exact (nodup_ticksBetween _ _).filter _
    · exact List.nodup_reverse.2 ((nodup_ticksBetween _ _).filter _)

theorem pairwise_ticksBetween (lo hi : Int) : (ticksBetween lo hi).Pairwise (· < ·) := by
  unfold ticksBetween
  rw [List.pairwise_map]
  exact List.pairwise_lt_range.imp fun h => by omega

theorem pairwise_rewardedTicks_lt {startTick : Int} (hdir : startTick ≤ currentTick) :
    (rewardedTicks bitmap tickSpacing currentTick startTick).Pairwise (· < ·) := by
  unfold rewardedTicks trailBelow
  rw [if_pos hdir]
  refine List.pairwise_cons.2 ⟨fun u hu => ?_, (pairwise_ticksBetween _ _).filter _⟩
  exact (mem_ticksBetween.1 (List.mem_filter.1 hu).1).1

theorem pairwise_rewardedTicks_gt {startTick : Int} (hdir : currentTick < startTick) :
    (rewardedTicks bitmap tickSpacing currentTick startTick).Pairwise (· > ·) := by
  unfold rewardedTicks trailAbove
  rw [if_neg (not_le.2 hdir)]
  refine List.pairwise_cons.2 ⟨fun u hu => ?_,
    List.pairwise_reverse.2 ((pairwise_ticksBetween _ _).filter _)⟩
  have := (mem_ticksBetween.1 (List.mem_filter.1 (List.mem_reverse.1 hu)).1).2
  omega

end Trails

/-! ## What a walk pays out -/

section Payout

variable (cd : Calldata) (net : Int → Int) (sign : Int)

def amountAt (reader : CalldataReader) (j : Nat) : Nat := (readU128 cd (reader + 16 * j)).2

/-- The liquidity in range once a walk from `liquidity` has crossed the first `j` ticks of `ts`:
their net liquidity added walking up (`sign = 1`), taken away walking down (`sign = -1`). -/
def liquidityAt (liquidity : Nat) (ts : List Int) (j : Nat) : Int :=
  liquidity + sign * ((ts.take j).map net).sum

/-- The growth the `j`-th tick of a walk earns: its amount over the liquidity in range when the
walk reaches it. -/
def growthAt (reader : CalldataReader) (liquidity : Nat) (ts : List Int) (j : Nat) :
    BitVec 256 :=
  flatDivX128 (amountAt cd reader j) (liquidityAt net sign liquidity ts j).toNat

/-- `s'` is `s` after the loop body ran at the ticks `ts` in turn: the reader moved past
one amount a tick, the total grew by the amounts and the cumulative growth by the growth each tick
earned, the liquidity crossed every tick, the growth outside of the `j`-th tick grew by the
cumulative growth once its own growth was added, and no other slot changed. -/
structure Distributed (ts : List Int) (s s' : RewardState) : Prop where
  reader_eq : s'.reader = s.reader + 16 * ts.length
  total_eq : s'.total = s.total + ∑ j ∈ Finset.range ts.length, amountAt cd s.reader j
  cumulativeGrowth_eq : s'.cumulativeGrowth = s.cumulativeGrowth +
    ∑ j ∈ Finset.range ts.length, growthAt cd net sign s.reader s.liquidity ts j
  liquidity_eq : (s'.liquidity : Int) = liquidityAt net sign s.liquidity ts ts.length
  visited : ∀ j (hj : j < ts.length), s'.rewardGrowthOutside (uint24 ts[j]) =
    s.rewardGrowthOutside (uint24 ts[j]) + (s.cumulativeGrowth +
      ∑ i ∈ Finset.range (j + 1), growthAt cd net sign s.reader s.liquidity ts i)
  other : ∀ k ∉ ts.map uint24, s'.rewardGrowthOutside k = s.rewardGrowthOutside k

theorem amountAt_succ (reader : CalldataReader) (j : Nat) :
    amountAt cd (reader + 16) j = amountAt cd reader (j + 1) := by
  unfold amountAt
  rw [show reader + 16 + 16 * j = reader + 16 * (j + 1) by ring]

theorem liquidityAt_succ {liquidity liquidity' : Nat} {t : Int}
    (h : (liquidity' : Int) = liquidity + sign * net t) (ts : List Int) (j : Nat) :
    liquidityAt net sign liquidity' ts j = liquidityAt net sign liquidity (t :: ts) (j + 1) := by
  unfold liquidityAt
  rw [List.take_succ_cons, List.map_cons, List.sum_cons, h]
  ring

theorem growthAt_succ {reader : CalldataReader} {liquidity liquidity' : Nat} {t : Int}
    (h : (liquidity' : Int) = liquidity + sign * net t) (ts : List Int) (j : Nat) :
    growthAt cd net sign (reader + 16) liquidity' ts j =
      growthAt cd net sign reader liquidity (t :: ts) (j + 1) := by
  unfold growthAt
  rw [amountAt_succ, liquidityAt_succ net sign h]

theorem growthAt_zero (reader : CalldataReader) (liquidity : Nat) (ts : List Int) :
    growthAt cd net sign reader liquidity ts 0 = flatDivX128 (amountAt cd reader 0) liquidity := by
  simp [growthAt, liquidityAt]

theorem Distributed.nil (self : RewardState) : Distributed cd net sign [] self self where
  reader_eq := by simp
  total_eq := by simp
  cumulativeGrowth_eq := by simp
  liquidity_eq := by simp [liquidityAt]
  visited j hj := absurd hj (Nat.not_lt_zero j)
  other _ _ := rfl

end Payout

/-! ## One tick, and a run of them -/

/-- `cross` moves a `uint128` liquidity by `sign` times an `int128` net liquidity when it
returns, and the result is a `uint128`. -/
def Crosses (cross : Nat → Nat → Except Revert Nat) (sign : Int) : Prop :=
  ∀ x v y, x < 2 ^ 128 → -2 ^ 127 ≤ v → v < 2 ^ 127 → cross x (word v) = .ok y →
    y < 2 ^ 128 ∧ (y : Int) = x + sign * v

theorem crosses_addUint128 : Crosses MixedSignLib.addUint128 1 := by
  intro x v y hx hlo hhi h
  rw [MixedSignLib.addUint128_eq hx hlo hhi] at h
  split_ifs at h with hfit
  · cases h
    unfold FitsUint128 at hfit
    omega

theorem crosses_subUint128 : Crosses MixedSignLib.subUint128 (-1) := by
  intro x v y hx hlo hhi h
  rw [MixedSignLib.subUint128_eq hx hlo hhi] at h
  split_ifs at h with hfit
  · cases h
    unfold FitsUint128 at hfit
    omega

section Steps

variable {keccak256 : List UInt8 → Nat} {cd : Calldata} {pool : PoolView}
  {cross : Nat → Nat → Except Revert Nat} {sign : Int}

theorem rewardInitializedTick_ok {self self' : RewardState} {t : Int}
    (h : rewardInitializedTick keccak256 cd pool cross self t = .ok self') :
    self'.reader = self.reader + 16 ∧ self'.total = self.total + amountAt cd self.reader 0 ∧
      self'.cumulativeGrowth =
        self.cumulativeGrowth + flatDivX128 (amountAt cd self.reader 0) self.liquidity ∧
      self'.rewardGrowthOutside = Function.update self.rewardGrowthOutside (uint24 t)
        (self.rewardGrowthOutside (uint24 t) + self'.cumulativeGrowth) ∧
      cross self.liquidity (word (pool.liquidityNet t)) = .ok self'.liquidity := by
  unfold rewardInitializedTick at h
  obtain ⟨total, htotal, h⟩ := Checked.bind_eq_ok.1 h
  obtain ⟨liquidity, hliq, h⟩ := Checked.bind_eq_ok.1 h
  obtain ⟨-, rfl⟩ := Checked.add_eq_ok.1 htotal
  cases Checked.pure_eq_ok.1 h
  exact ⟨rfl, rfl, rfl, rfl, hliq⟩

theorem Distributed.cons (hcross : Crosses cross sign) {t : Int} {ts : List Int}
    {self mid self' : RewardState} (hslot : uint24 t ∉ ts.map uint24)
    (hliq : self.liquidity < 2 ^ 128)
    (hstep : rewardInitializedTick keccak256 cd pool cross self t = .ok mid)
    (hrest : Distributed cd pool.liquidityNet sign ts mid self') :
    Distributed cd pool.liquidityNet sign (t :: ts) self self' := by
  obtain ⟨hreader, htotal, hcum, hrgo, hcross'⟩ := rewardInitializedTick_ok hstep
  have hnet := pool.liquidityNet_fits t
  have hmid : (mid.liquidity : Int) = self.liquidity + sign * pool.liquidityNet t :=
    (hcross _ _ _ hliq hnet.1 hnet.2 hcross').2
  have hg : ∀ j, growthAt cd pool.liquidityNet sign mid.reader mid.liquidity ts j =
      growthAt cd pool.liquidityNet sign self.reader self.liquidity (t :: ts) (j + 1) := by
    intro j
    rw [hreader]
    exact growthAt_succ cd pool.liquidityNet sign hmid ts j
  constructor
  · rw [hrest.reader_eq, hreader, List.length_cons]
    ring
  · rw [hrest.total_eq, htotal, hreader, List.length_cons, Finset.sum_range_succ']
    simp only [amountAt_succ]
    ring
  · rw [hrest.cumulativeGrowth_eq, hcum, List.length_cons, Finset.sum_range_succ', growthAt_zero]
    simp only [hg]
    abel
  · rw [hrest.liquidity_eq, List.length_cons]
    exact liquidityAt_succ pool.liquidityNet sign hmid ts ts.length
  · intro j hj
    cases j with
    | zero =>
      rw [List.getElem_cons_zero, hrest.other _ hslot, hrgo, Function.update_self, hcum,
        Finset.sum_range_one, growthAt_zero]
    | succ j =>
      have hj' : j < ts.length := by simpa using hj
      have hne : uint24 ts[j] ≠ uint24 t :=
        fun he => hslot (he ▸ List.mem_map_of_mem (List.getElem_mem hj'))
      rw [List.getElem_cons_succ, hrest.visited j hj', hrgo, Function.update_of_ne hne, hcum,
        Finset.sum_range_succ' _ (j + 1), growthAt_zero]
      simp only [hg]
      abel
  · intro k hk
    rw [List.map_cons, List.mem_cons, not_or] at hk
    rw [hrest.other k hk.2, hrgo, Function.update_of_ne hk.1]

/-- The run lemma: the fold of the body over ticks in distinct slots pays them out in turn. The
induction is on the ticks, and the liquidity stays a `uint128` from one to the next. -/
theorem foldlM_distributed (hcross : Crosses cross sign) :
    ∀ {ts : List Int} {self self' : RewardState}, (ts.map uint24).Nodup →
      self.liquidity < 2 ^ 128 →
      ts.foldlM (rewardInitializedTick keccak256 cd pool cross) self = .ok self' →
      Distributed cd pool.liquidityNet sign ts self self'
  | [], self, _, _, _, h => by
    obtain rfl := Checked.pure_eq_ok.1 h
    exact Distributed.nil cd pool.liquidityNet sign self
  | t :: ts, self, self', hnd, hliq, h => by
    rw [List.foldlM_cons] at h
    obtain ⟨mid, hstep, hrest⟩ := Checked.bind_eq_ok.1 h
    rw [List.map_cons, List.nodup_cons] at hnd
    have hnet := pool.liquidityNet_fits t
    have hmid := (hcross _ _ _ hliq hnet.1 hnet.2 (rewardInitializedTick_ok hstep).2.2.2.2).1
    exact Distributed.cons hcross hnd.1 hliq hstep (foldlM_distributed hcross hnd.2 hmid hrest)

end Steps

/-! ## The walks -/

/-- A pool of spacing `10` whose ticks `10` and `20` are initialized, with net liquidity `50` and
`-30`, and liquidity `120`. -/
def samplePool : PoolView where
  bitmap := ⟨fun w => if w = 0 then 6 else 0, fun w => by split <;> norm_num⟩
  liquidityNet t := if t = 10 then 50 else if t = 20 then -30 else 0
  liquidity := 120
  liquidityNet_fits t := by split_ifs <;> norm_num
  liquidity_lt := by norm_num

/-- A `MultiTick` update from tick `0` with liquidity `100`: the amounts `5`, `7` and `9`, `11` for
the current range, and a zero checksum. -/
def sampleCalldata : Calldata :=
  toBE 3 0 ++ toBE 16 100 ++ toBE 3 64 ++ toBE 16 5 ++ toBE 16 7 ++ toBE 16 9 ++ toBE 16 11 ++
    toBE 20 0

section Walks

variable {keccak256 : List UInt8 → Nat} {cd : Calldata} {pool : PoolView}
  {tickSpacing currentTick : Int} {fuel : Nat} (rewardGrowthOutside : Nat → BitVec 256)
  (reader : CalldataReader) (liquidity : Nat)

variable {rewardGrowthOutside reader liquidity}

theorem distributed_walk (hs : 0 < tickSpacing) {startTick : Int} (hstart : Int24 startTick)
    (hcur : Int24 currentTick) (halign : startTick ≤ currentTick ∨ tickSpacing ∣ startTick)
    (hliq : liquidity < 2 ^ 128) {r : RewardState}
    (h : (if startTick ≤ currentTick then
        rewardBelow keccak256 cd pool tickSpacing currentTick fuel rewardGrowthOutside startTick
          reader liquidity
      else
        rewardAbove keccak256 cd pool tickSpacing currentTick fuel rewardGrowthOutside startTick
          reader liquidity) = .ok r) :
    Distributed cd pool.liquidityNet (crossSign currentTick startTick)
      (rewardedTicks pool.bitmap tickSpacing currentTick startTick)
      (.start rewardGrowthOutside reader liquidity) r := by
  have hnd : ((rewardedTicks pool.bitmap tickSpacing currentTick startTick).map uint24).Nodup :=
    nodup_slots_rewardedTicks hstart hcur
  unfold rewardedTicks crossSign at *
  by_cases hdir : startTick ≤ currentTick
  · simp only [if_pos hdir] at h hnd ⊢
    exact foldlM_distributed crosses_addUint128 hnd hliq
      (doWhile_eq_foldlM_of_ok (trail_below hs) trivial h)
  · simp only [if_neg hdir] at h hnd ⊢
    exact foldlM_distributed crosses_subUint128 hnd hliq
      (doWhile_eq_foldlM_of_ok (trail_above hs) (halign.resolve_left hdir) h)

end Walks

/-! ## The update -/

theorem int24_readI24 (cd : Calldata) (self : CalldataReader) : Int24 (readI24 cd self).2 := by
  have hlt := readUint_lt cd self (show 3 ≤ 32 by decide)
  have hread : (readI24 cd self).2 = toSigned 3 (readUint 3 cd self).2 := rfl
  rw [hread]
  unfold Int24 toSigned
  norm_num at hlt ⊢
  split_ifs <;> omega

/-- `r` is `self` with the ticks `ts` paid the growths `g` in turn and the current range
`current` more: the growth outside of the `j`-th tick rose by the growth paid up to and including
it, every other tick's is as it was, and the global growth rose by all of it. -/
def Rewarded (ts : List Int) (g : Nat → BitVec 256) (current : BitVec 256) (self r : PoolRewards) :
    Prop :=
  (∀ j (hj : j < ts.length), r.rewardGrowthOutside (uint24 ts[j]) =
      self.rewardGrowthOutside (uint24 ts[j]) + ∑ i ∈ Finset.range (j + 1), g i) ∧
    (∀ t, Int24 t → t ∉ ts →
      r.rewardGrowthOutside (uint24 t) = self.rewardGrowthOutside (uint24 t)) ∧
    r.globalGrowth = self.globalGrowth + (∑ j ∈ Finset.range ts.length, g j + current)

namespace Rewarded

variable {ts : List Int} {g : Nat → BitVec 256} {c : BitVec 256} {self r : PoolRewards}

/-- Between the `i`-th and the `k`-th rewarded tick, on the side of the current tick the walk
went to, the growth inside rose by the growth paid to the ticks after the `i`-th up to the
`k`-th. -/
theorem getGrowthInside_between (hR : Rewarded ts g c self r) {current : Int} {i k : Nat}
    (hik : i < k) (hk : k < ts.length)
    (hside : ts[i] < ts[k] ∧ ts[k] ≤ current ∨ current < ts[k] ∧ ts[k] < ts[i]) :
    r.getGrowthInside current (min ts[i] ts[k]) (max ts[i] ts[k]) =
      self.getGrowthInside current (min ts[i] ts[k]) (max ts[i] ts[k]) +
        ∑ j ∈ Finset.Ico (i + 1) (k + 1), g j := by
  have hi : i < ts.length := hik.trans hk
  have hsum := Finset.sum_Ico_eq_sub g (show i + 1 ≤ k + 1 by omega)
  rcases hside with ⟨hlt, hle⟩ | ⟨hlt, hgt⟩
  · -- walking up, the range lies at or below the current tick
    rw [min_eq_left hlt.le, max_eq_right hlt.le]
    simp only [PoolRewards.getGrowthInside, if_neg (not_lt.2 (hlt.le.trans hle)), if_pos hle,
      hR.1 i hi, hR.1 k hk, hsum]
    abel
  · -- walking down, the range lies above the current tick
    rw [min_eq_right hgt.le, max_eq_left hgt.le]
    simp only [PoolRewards.getGrowthInside, if_pos hlt, hR.1 i hi, hR.1 k hk, hsum]
    abel

/-- From the `i`-th rewarded tick across the current tick to a tick `u` the walk did not reward,
the growth inside rose by the growth paid to every tick after the `i`-th and to the current
range. -/
theorem getGrowthInside_across (hR : Rewarded ts g c self r) {current : Int} {i : Nat}
    (hi : i < ts.length) {u : Int} (hu : Int24 u) (hnot : u ∉ ts)
    (hside : ts[i] ≤ current ∧ current < u ∨ u ≤ current ∧ current < ts[i]) :
    r.getGrowthInside current (min ts[i] u) (max ts[i] u) =
      self.getGrowthInside current (min ts[i] u) (max ts[i] u) +
        (∑ j ∈ Finset.Ico (i + 1) ts.length, g j + c) := by
  have hsum := Finset.sum_Ico_eq_sub g (show i + 1 ≤ ts.length by omega)
  have hother := hR.2.1 u hu hnot
  rcases hside with ⟨hle, hlt⟩ | ⟨hle, hlt⟩
  · rw [min_eq_left (hle.trans hlt.le), max_eq_right (hle.trans hlt.le)]
    simp only [PoolRewards.getGrowthInside, if_neg (not_lt.2 hle), if_neg (not_le.2 hlt),
      hR.1 i hi, hother, hR.2.2, hsum]
    abel
  · rw [min_eq_right (hle.trans hlt.le), max_eq_left (hle.trans hlt.le)]
    simp only [PoolRewards.getGrowthInside, if_neg (not_lt.2 hle), if_neg (not_le.2 hlt),
      hR.1 i hi, hother, hR.2.2, hsum]
    abel

end Rewarded

/-- A walk that paid out the ticks `ts`, all `int24` ticks, from the growth outside of `self`,
with the walk's growth outside written back and its cumulative growth and `current` more added to
the global growth, rewarded `ts` with the growth each earned. -/
theorem Distributed.rewarded {cd : Calldata} {net : Int → Int} {sign : Int} {ts : List Int}
    {reader : CalldataReader} {liquidity : Nat} {r : RewardState} {self self' : PoolRewards}
    {current : BitVec 256}
    (hd : Distributed cd net sign ts (.start self.rewardGrowthOutside reader liquidity) r)
    (hts : ∀ t ∈ ts, Int24 t) (hrgo : self'.rewardGrowthOutside = r.rewardGrowthOutside)
    (hglobal : self'.globalGrowth = self.globalGrowth + (r.cumulativeGrowth + current)) :
    Rewarded ts (growthAt cd net sign reader liquidity ts) current self self' := by
  refine ⟨?_, ?_, ?_⟩
  · intro j hj
    rw [hrgo, hd.visited j hj]
    simp only [RewardState.start, zero_add]
  · intro t ht hnot
    rw [hrgo]
    refine hd.other _ fun hmem => hnot ?_
    obtain ⟨u, hu, hut⟩ := List.mem_map.1 hmem
    rwa [← (uint24_inj (hts u hu) ht).1 hut]
  · rw [hglobal, hd.cumulativeGrowth_eq]
    simp only [RewardState.start, zero_add]

section Update

variable {keccak256 : List UInt8 → Nat} {cd : Calldata} {pool : PoolView}
  {tickSpacing currentTick : Int} {fuel : Nat}

/-- The inversion lemma of a `MultiTick` update that goes through: the walk paid out the rewarded
ticks in turn, its end liquidity is the pool's, and the update wrote back the walk's growth
outside, added the walk's cumulative growth and the last amount over the pool's liquidity to the
global growth, and returned the walk's total with the last amount. -/
theorem decodeAndReward_false_ok (hs : 0 < tickSpacing) (hcur : Int24 currentTick)
    {reader reader' : CalldataReader} {self self' : PoolRewards} {total : Nat}
    (halign : (readI24 cd reader).2 ≤ currentTick ∨ tickSpacing ∣ (readI24 cd reader).2)
    (h : decodeAndReward keccak256 cd pool tickSpacing currentTick fuel false reader self =
      .ok (reader', total, self')) :
    ∃ r, Distributed cd pool.liquidityNet (crossSign currentTick (readI24 cd reader).2)
        (rewardedTicks pool.bitmap tickSpacing currentTick (readI24 cd reader).2)
        (.start self.rewardGrowthOutside (reader + 22) (readU128 cd (reader + 3)).2) r ∧
      r.liquidity = pool.liquidity ∧ self'.rewardGrowthOutside = r.rewardGrowthOutside ∧
      self'.globalGrowth = self.globalGrowth + (r.cumulativeGrowth + flatDivX128
        (amountAt cd (reader + 22)
          (rewardedTicks pool.bitmap tickSpacing currentTick (readI24 cd reader).2).length)
        pool.liquidity) ∧
      total = r.total + amountAt cd (reader + 22)
        (rewardedTicks pool.bitmap tickSpacing currentTick (readI24 cd reader).2).length := by
  have hstart := int24_readI24 cd reader
  have hliq : (readU128 cd (reader + 3)).2 < 2 ^ 128 := readUint_lt cd (reader + 3) (by decide)
  unfold decodeAndReward at h
  rw [if_neg Bool.false_ne_true] at h
  obtain ⟨r, hwalk, h⟩ := Checked.bind_eq_ok.1 h
  have hd := distributed_walk hs hstart hcur halign hliq hwalk
  rw [show reader + 3 + 16 + 3 = reader + 22 from rfl] at hd
  obtain ⟨total', htotal, h⟩ := Checked.bind_eq_ok.1 h
  obtain ⟨-, -, h⟩ := Checked.bind_eq_ok.1 h
  dsimp only at h
  have hL : r.liquidity = pool.liquidity := by
    by_contra hne
    rw [if_pos hne] at h
    simp at h
  rw [if_neg (not_not.2 hL)] at h
  have hsum : (readU160 cd (r.reader + 16)).2 = r.rewardChecksum >>> 96 := by
    by_contra hne
    rw [if_pos hne] at h
    simp at h
  rw [if_neg (not_not.2 hsum)] at h
  simp only [Checked.pure_eq_ok, Prod.mk.injEq] at h
  obtain ⟨-, rfl, rfl⟩ := h
  obtain ⟨-, rfl⟩ := Checked.add_eq_ok.1 htotal
  have hdon : calldataload cd r.reader / 2 ^ (256 - 8 * 16) =
      amountAt cd (reader + 22) (rewardedTicks pool.bitmap tickSpacing currentTick
        (readI24 cd reader).2).length := by
    rw [hd.reader_eq]
    rfl
  refine ⟨r, hd, hL, rfl, ?_, ?_⟩
  · show self.globalGrowth + (r.cumulativeGrowth + flatDivX128 _ r.liquidity) = _
    rw [hdon, hL]
  · show r.total + calldataload cd r.reader / 2 ^ (256 - 8 * 16) = _
    rw [hdon]

/-- A `MultiTick` update that goes through pays each tick it rewards (the start tick, then the
initialized ticks up to the current tick, or down to the one above it) its amount over the
liquidity in range there, adds to its growth outside everything paid up to and including it,
leaves every other tick as it was, and adds everything paid, with the last amount over the pool's
liquidity for the current range, to the global growth. It returns the sum of the amounts, and the
liquidity after the last crossing is the pool's. Walking down, the start tick is a multiple of the
spacing. -/
theorem decodeAndReward_multiTick (hs : 0 < tickSpacing) (hcur : Int24 currentTick)
    {reader reader' : CalldataReader} {self self' : PoolRewards} {total : Nat}
    (halign : (readI24 cd reader).2 ≤ currentTick ∨ tickSpacing ∣ (readI24 cd reader).2)
    (h : decodeAndReward keccak256 cd pool tickSpacing currentTick fuel false reader self =
      .ok (reader', total, self')) :
    let startTick := (readI24 cd reader).2
    let ts := rewardedTicks pool.bitmap tickSpacing currentTick startTick
    let sign := crossSign currentTick startTick
    let liquidity := (readU128 cd (reader + 3)).2
    Rewarded ts (growthAt cd pool.liquidityNet sign (reader + 22) liquidity ts)
        (flatDivX128 (amountAt cd (reader + 22) ts.length) pool.liquidity) self self' ∧
      total = ∑ j ∈ Finset.range (ts.length + 1), amountAt cd (reader + 22) j ∧
      liquidityAt pool.liquidityNet sign liquidity ts ts.length = pool.liquidity := by
  obtain ⟨r, hd, hL, hrgo, hglobal, htotal⟩ := decodeAndReward_false_ok hs hcur halign h
  refine ⟨hd.rewarded (fun t ht => int24_of_mem_rewardedTicks (int24_readI24 cd reader) hcur ht)
    hrgo hglobal, ?_, ?_⟩
  · rw [htotal, hd.total_eq, Finset.sum_range_succ]
    simp only [RewardState.start, zero_add]
  · rw [← hL]
    exact hd.liquidity_eq.symm

theorem decodeAndReward_sampleCalldata_ok :
    ∃ out, decodeAndReward (fun _ => 0) sampleCalldata samplePool 10 25 30 false 0
      ⟨fun _ => 0, 0⟩ = .ok out := by
  have hok : (decodeAndReward (fun _ => 0) sampleCalldata samplePool 10 25 30 false 0
      ⟨fun _ => 0, 0⟩).isOk = true := by decide +kernel
  cases h : decodeAndReward (fun _ => 0) sampleCalldata samplePool 10 25 30 false 0
      ⟨fun _ => 0, 0⟩ with
  | error e =>
    rw [h] at hok
    cases hok
  | ok out => exact ⟨out, rfl⟩

/-- The sample update pays ticks `0`, `10` and `20` and the current range. -/
theorem decodeAndReward_multiTick_sampleCalldata :
    ∃ reader' total self', decodeAndReward (fun _ => 0) sampleCalldata samplePool 10 25 30 false 0
        ⟨fun _ => 0, 0⟩ = .ok (reader', total, self') ∧
      let startTick := (readI24 sampleCalldata 0).2
      let ts := rewardedTicks samplePool.bitmap 10 25 startTick
      let sign := crossSign 25 startTick
      let liquidity := (readU128 sampleCalldata (0 + 3)).2
      Rewarded ts (growthAt sampleCalldata samplePool.liquidityNet sign (0 + 22) liquidity ts)
          (flatDivX128 (amountAt sampleCalldata (0 + 22) ts.length) samplePool.liquidity)
          ⟨fun _ => 0, 0⟩ self' ∧
        total = ∑ j ∈ Finset.range (ts.length + 1), amountAt sampleCalldata (0 + 22) j ∧
        liquidityAt samplePool.liquidityNet sign liquidity ts ts.length = samplePool.liquidity := by
  obtain ⟨⟨reader', total, self'⟩, hrun⟩ := decodeAndReward_sampleCalldata_ok
  exact ⟨reader', total, self', hrun,
    decodeAndReward_multiTick (by decide) (by decide) (by decide +kernel) hrun⟩

/-- After a `MultiTick` update that goes through, a position between two ticks the update
rewarded earns the growth paid to the ticks after the first up to the second, and a position from
a rewarded tick across the current tick earns the growth paid to every tick after it and the last
amount over the pool's liquidity: the growth inside each such range rises by exactly what was paid
for the stretches of it the update covers. Walking down, the start tick is a multiple of the
spacing. -/
theorem getGrowthInside_decodeAndReward (hs : 0 < tickSpacing) (hcur : Int24 currentTick)
    {reader reader' : CalldataReader} {self self' : PoolRewards} {total : Nat}
    (halign : (readI24 cd reader).2 ≤ currentTick ∨ tickSpacing ∣ (readI24 cd reader).2)
    (h : decodeAndReward keccak256 cd pool tickSpacing currentTick fuel false reader self =
      .ok (reader', total, self')) :
    let startTick := (readI24 cd reader).2
    let ts := rewardedTicks pool.bitmap tickSpacing currentTick startTick
    let g := growthAt cd pool.liquidityNet (crossSign currentTick startTick) (reader + 22)
      (readU128 cd (reader + 3)).2 ts
    (∀ i k (hik : i < k) (hk : k < ts.length),
      self'.getGrowthInside currentTick (min ts[i] ts[k]) (max ts[i] ts[k]) =
        self.getGrowthInside currentTick (min ts[i] ts[k]) (max ts[i] ts[k]) +
          ∑ j ∈ Finset.Ico (i + 1) (k + 1), g j) ∧
      ∀ i (hi : i < ts.length) u, Int24 u → (currentTick < u ↔ startTick ≤ currentTick) →
        self'.getGrowthInside currentTick (min ts[i] u) (max ts[i] u) =
          self.getGrowthInside currentTick (min ts[i] u) (max ts[i] u) +
            (∑ j ∈ Finset.Ico (i + 1) ts.length, g j +
              flatDivX128 (amountAt cd (reader + 22) ts.length) pool.liquidity) := by
  dsimp only
  obtain ⟨r, hd, -, hrgo, hglobal, -⟩ := decodeAndReward_false_ok hs hcur halign h
  have hstart := int24_readI24 cd reader
  have hR := hd.rewarded (fun t ht => int24_of_mem_rewardedTicks hstart hcur ht) hrgo hglobal
  refine ⟨fun i k hik hk => hR.getGrowthInside_between hik hk ?_,
    fun i hi u hu hside => hR.getGrowthInside_across hi hu ?_ ?_⟩
  · -- both ticks lie on the side walked, in the order walked
    by_cases hdir : (readI24 cd reader).2 ≤ currentTick
    · exact .inl ⟨List.pairwise_iff_getElem.1 (pairwise_rewardedTicks_lt hdir) i k (by omega)
        hk hik, ((mem_rewardedTicks (List.getElem_mem hk)).1 hdir).2⟩
    · have hdir' := not_le.1 hdir
      exact .inr ⟨((mem_rewardedTicks (List.getElem_mem hk)).2 hdir').1,
        List.pairwise_iff_getElem.1 (pairwise_rewardedTicks_gt hdir') i k (by omega) hk hik⟩
  · -- `u` lies on the side the walk did not go to
    intro hmem
    have hrange := mem_rewardedTicks hmem
    by_cases hdir : (readI24 cd reader).2 ≤ currentTick
    · have := hrange.1 hdir
      have := hside.2 hdir
      omega
    · have := hrange.2 (not_le.1 hdir)
      have := mt hside.1 hdir
      omega
  · have hrange := mem_rewardedTicks (List.getElem_mem hi)
    by_cases hdir : (readI24 cd reader).2 ≤ currentTick
    · exact .inl ⟨(hrange.1 hdir).2, hside.2 hdir⟩
    · have hdir' := not_le.1 hdir
      exact .inr ⟨not_lt.1 (mt hside.1 hdir), (hrange.2 hdir').1⟩

/-- The positions between the ticks the sample update rewards, `0`, `10` and `20`, and from them
across tick `25`. -/
theorem getGrowthInside_decodeAndReward_sampleCalldata :
    ∃ reader' total self', decodeAndReward (fun _ => 0) sampleCalldata samplePool 10 25 30 false 0
        ⟨fun _ => 0, 0⟩ = .ok (reader', total, self') ∧
      let startTick := (readI24 sampleCalldata 0).2
      let ts := rewardedTicks samplePool.bitmap 10 25 startTick
      let g := growthAt sampleCalldata samplePool.liquidityNet (crossSign 25 startTick) (0 + 22)
        (readU128 sampleCalldata (0 + 3)).2 ts
      (∀ i k (hik : i < k) (hk : k < ts.length),
        self'.getGrowthInside 25 (min ts[i] ts[k]) (max ts[i] ts[k]) =
          PoolRewards.getGrowthInside ⟨fun _ => 0, 0⟩ 25 (min ts[i] ts[k]) (max ts[i] ts[k]) +
            ∑ j ∈ Finset.Ico (i + 1) (k + 1), g j) ∧
        ∀ i (hi : i < ts.length) u, Int24 u → (25 < u ↔ startTick ≤ 25) →
          self'.getGrowthInside 25 (min ts[i] u) (max ts[i] u) =
            PoolRewards.getGrowthInside ⟨fun _ => 0, 0⟩ 25 (min ts[i] u) (max ts[i] u) +
              (∑ j ∈ Finset.Ico (i + 1) ts.length, g j +
                flatDivX128 (amountAt sampleCalldata (0 + 22) ts.length) samplePool.liquidity) := by
  obtain ⟨⟨reader', total, self'⟩, hrun⟩ := decodeAndReward_sampleCalldata_ok
  exact ⟨reader', total, self', hrun,
    getGrowthInside_decodeAndReward (by decide) (by decide) (by decide +kernel) hrun⟩

end Update

end GrowthOutsideUpdater

end Angstrom.Contract
