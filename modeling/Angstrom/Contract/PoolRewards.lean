import Angstrom.Contract.TickLib

/-!
# Reward growth across tick moves

`PoolRewardsLib` (`types/PoolRewards.sol`). A pool's rewards keep a global growth and, for every
tick, the growth on the side of the tick away from the current price (`rewardGrowthOutside`,
stored at slot `uint24(tick)`). The growth inside a range is read from the two ends
(`getGrowthInside`). When a swap moves the price from `prevTick` to `newTick`,
`updateAfterTickMove` walks the bitmap from one tick to the other and, at every initialized tick it
crosses, turns the growth outside into the global growth minus it.

The two walks are `while (true)` loops; here they take the gas as fuel and return `none` when it
runs out. The growth values are `uint256` words (`BitVec 256`, arithmetic modulo `2 ^ 256` as in
the `unchecked` blocks).

`updateAfterTickMove_spec`: with a spacing from `1` to `MAX_TICK_SPACING` and ticks in
`[MIN_TICK, MAX_TICK]`, where the searches return `int24` ticks and the contract's checked `int24`
arithmetic does not revert (the model computes the searches on integers), and fuel above the
distance moved, the update returns, flips the growth outside of exactly the initialized ticks
crossed (above `prevTick` up to `newTick` moving up, above `newTick` up to `prevTick` moving down),
each once, and leaves every other tick as it was. So the growth inside a range whose ends are
initialized ticks reads the same after the move at the new tick as before it at the old one
(`getGrowthInside_of_flipped`); at an end that is not initialized it need not
(`growthInside_uninitialized_end`).
-/

namespace Angstrom.Contract

open TickLib

def uint24 (tick : Int) : Nat := (tick % 2 ^ 24).toNat

def Int24 (t : Int) : Prop := -2 ^ 23 ≤ t ∧ t < 2 ^ 23

instance : DecidablePred Int24 := fun _ => inferInstanceAs (Decidable (_ ∧ _))

theorem int24_of_tickRange {t : Int} (h : TickLib.MIN_TICK ≤ t ∧ t ≤ TickLib.MAX_TICK) : Int24 t := by
  unfold TickLib.MIN_TICK TickLib.MAX_TICK at h
  unfold Int24
  omega

theorem uint24_inj {t u : Int} (ht : Int24 t) (hu : Int24 u) : uint24 t = uint24 u ↔ t = u := by
  unfold Int24 at ht hu
  unfold uint24
  omega

/-- `PoolRewards`: the growth outside each tick, by slot, and the global growth. -/
structure PoolRewards where
  rewardGrowthOutside : Nat → BitVec 256
  globalGrowth : BitVec 256

namespace PoolRewards

/-- `getGrowthInside`: below the range, the growth outside the lower end less that of the upper;
above it, the reverse; inside, the global growth less both. -/
def getGrowthInside (self : PoolRewards) (current lower upper : Int) : BitVec 256 :=
  let lowerGrowth := self.rewardGrowthOutside (uint24 lower)
  let upperGrowth := self.rewardGrowthOutside (uint24 upper)
  if current < lower then lowerGrowth - upperGrowth
  else if upper ≤ current then upperGrowth - lowerGrowth
  else self.globalGrowth - lowerGrowth - upperGrowth

/-- The crossing of one tick: its growth outside becomes `globalGrowth` less it. -/
def flip (self : PoolRewards) (tick : Int) (globalGrowth : BitVec 256) : PoolRewards :=
  { self with
    rewardGrowthOutside := Function.update self.rewardGrowthOutside (uint24 tick)
      (globalGrowth - self.rewardGrowthOutside (uint24 tick)) }

/-- `_updateTickMoveUp`, from `tick` with `fuel` iterations of gas, `globalGrowth` read once. -/
def updateTickMoveUp (bitmap : TickBitmap) (tickSpacing newTick : Int) (globalGrowth : BitVec 256) :
    Nat → PoolRewards → Int → Option PoolRewards
  | 0, _, _ => none
  | fuel + 1, self, tick =>
    let next := bitmap.getNextTickGt tick tickSpacing
    if newTick < next.2 then some self
    else
      updateTickMoveUp bitmap tickSpacing newTick globalGrowth fuel
        (if next.1 then self.flip next.2 globalGrowth else self) next.2

/-- `_updateTickMoveDown`, from `tick` with `fuel` iterations of gas. -/
def updateTickMoveDown (bitmap : TickBitmap) (tickSpacing newTick : Int) :
    Nat → PoolRewards → Int → Option PoolRewards
  | 0, _, _ => none
  | fuel + 1, self, tick =>
    let next := bitmap.getNextTickLe tick tickSpacing
    if next.2 ≤ newTick then some self
    else
      updateTickMoveDown bitmap tickSpacing newTick fuel
        (if next.1 then self.flip next.2 self.globalGrowth else self) (next.2 - 1)

/-- `updateAfterTickMove`, with `fuel` iterations of gas for its loop. -/
def updateAfterTickMove (self : PoolRewards) (bitmap : TickBitmap)
    (prevTick newTick tickSpacing : Int) (fuel : Nat) : Option PoolRewards :=
  if newTick > prevTick then
    if normalizeUnchecked newTick tickSpacing > prevTick then
      updateTickMoveUp bitmap tickSpacing newTick self.globalGrowth fuel self prevTick
    else some self
  else if newTick < prevTick then
    if newTick < normalizeUnchecked prevTick tickSpacing then
      updateTickMoveDown bitmap tickSpacing newTick fuel self prevTick
    else some self
  else some self

/-! ## Flipping the ticks of an interval -/

/-- `r` is `self` with the growth outside of exactly the initialized ticks in `(lo, hi]` flipped
against `self`'s global growth. -/
def Flipped (bitmap : TickBitmap) (tickSpacing : Int) (self r : PoolRewards) (lo hi : Int) : Prop :=
  r.globalGrowth = self.globalGrowth ∧
    ∀ t, Int24 t → r.rewardGrowthOutside (uint24 t) =
      if bitmap.isInitialized tickSpacing t ∧ lo < t ∧ t ≤ hi then
        self.globalGrowth - self.rewardGrowthOutside (uint24 t)
      else self.rewardGrowthOutside (uint24 t)

section Flipped

variable {bitmap : TickBitmap} {tickSpacing : Int}

@[simp] theorem flip_globalGrowth (self : PoolRewards) (tick : Int) (g : BitVec 256) :
    (self.flip tick g).globalGrowth = self.globalGrowth := rfl

theorem flip_rewardGrowthOutside (self : PoolRewards) {tick t : Int} (htick : Int24 tick)
    (ht : Int24 t) (g : BitVec 256) :
    (self.flip tick g).rewardGrowthOutside (uint24 t) =
      if t = tick then g - self.rewardGrowthOutside (uint24 t)
      else self.rewardGrowthOutside (uint24 t) := by
  by_cases h : t = tick
  · subst h
    simp [flip]
  · simp [flip, Function.update_of_ne (mt (uint24_inj ht htick).1 h), h]

theorem flipped_self (self : PoolRewards) {lo hi : Int}
    (hnone : ∀ t, lo < t → t ≤ hi → bitmap.isInitialized tickSpacing t = false) :
    Flipped bitmap tickSpacing self self lo hi := by
  refine ⟨rfl, fun t _ => ?_⟩
  rw [if_neg]
  rintro ⟨hinit, hlo, hhi⟩
  rw [hnone t hlo hhi] at hinit
  exact Bool.false_ne_true hinit

theorem flipped_top (self : PoolRewards) {lo hi : Int} (hhi : Int24 hi)
    (hnone : ∀ t, lo < t → t < hi → bitmap.isInitialized tickSpacing t = false) (hlo : lo < hi) :
    Flipped bitmap tickSpacing self
      (if bitmap.isInitialized tickSpacing hi then self.flip hi self.globalGrowth else self) lo hi := by
  refine ⟨by split <;> rfl, fun t ht => ?_⟩
  by_cases hth : t = hi
  · -- the top tick: flipped exactly when initialized
    subst hth
    cases hinit : bitmap.isInitialized tickSpacing t
    · simp
    · simp [flip_rewardGrowthOutside self ht ht, hlo]
  · -- below it nothing is initialized, above it nothing is in the interval
    have hnot : ¬(bitmap.isInitialized tickSpacing t ∧ lo < t ∧ t ≤ hi) := by
      rintro ⟨hinit, hlt, hle⟩
      rw [hnone t hlt (lt_of_le_of_ne hle hth)] at hinit
      exact Bool.false_ne_true hinit
    rw [if_neg hnot]
    split
    · rw [flip_rewardGrowthOutside self hhi ht, if_neg hth]
    · rfl

theorem Flipped.trans {a b c : PoolRewards} {lo mid hi : Int} (hlm : lo ≤ mid) (hmh : mid ≤ hi)
    (hab : Flipped bitmap tickSpacing a b lo mid) (hbc : Flipped bitmap tickSpacing b c mid hi) :
    Flipped bitmap tickSpacing a c lo hi := by
  refine ⟨hbc.1.trans hab.1, fun t ht => ?_⟩
  rw [hbc.2 t ht, hab.2 t ht, hab.1]
  by_cases hinit : bitmap.isInitialized tickSpacing t = true <;>
    by_cases h1 : lo < t <;> by_cases h2 : t ≤ mid <;> by_cases h3 : t ≤ hi <;>
    simp [hinit, h1, h2, h3] <;> omega

theorem Flipped.trans' {a b c : PoolRewards} {lo mid hi : Int} (hlm : lo ≤ mid) (hmh : mid ≤ hi)
    (hab : Flipped bitmap tickSpacing a b mid hi) (hbc : Flipped bitmap tickSpacing b c lo mid) :
    Flipped bitmap tickSpacing a c lo hi := by
  refine ⟨hbc.1.trans hab.1, fun t ht => ?_⟩
  rw [hbc.2 t ht, hab.2 t ht, hab.1]
  by_cases hinit : bitmap.isInitialized tickSpacing t = true <;>
    by_cases h1 : lo < t <;> by_cases h2 : t ≤ mid <;> by_cases h3 : mid < t <;>
    by_cases h4 : t ≤ hi <;> simp [hinit, h1, h2, h3, h4] <;> omega

end Flipped

/-! ## The two walks -/

section Walks

variable {bitmap : TickBitmap} {tickSpacing newTick : Int}

/-- `_updateTickMoveUp` from `tick` up to `newTick` returns with enough fuel and flips the
initialized ticks of `(tick, newTick]`. The induction is on the fuel; each iteration flips the
tick `getNextTickGt` stops at, and nothing lies between. -/
theorem updateTickMoveUp_spec (hs : 0 < tickSpacing) (hnew : Int24 newTick) (g : BitVec 256) :
    ∀ (fuel : Nat) (self : PoolRewards) (tick : Int), self.globalGrowth = g → Int24 tick →
      tick ≤ newTick → (newTick - tick).toNat < fuel →
      ∃ r, updateTickMoveUp bitmap tickSpacing newTick g fuel self tick = some r ∧
        Flipped bitmap tickSpacing self r tick newTick
  | 0, _, _, _, _, _, hfuel => absurd hfuel (Nat.not_lt_zero _)
  | fuel + 1, self, tick, hg, htick, hle, hfuel => by
    obtain ⟨hgt, -, hnone, hflag⟩ := bitmap.getNextTickGt_spec tick hs
    generalize hnext : bitmap.getNextTickGt tick tickSpacing = next at hgt hnone hflag
    by_cases hstop : newTick < next.2
    · -- the next tick is past `newTick`: the loop breaks with nothing crossed
      refine ⟨self, by simp [updateTickMoveUp, hnext, hstop], ?_⟩
      exact flipped_self self fun t hlo hle' => hnone t hlo (by omega)
    · have hnext24 : Int24 next.2 := by unfold Int24 at *; omega
      have htop := flipped_top self hnext24 hnone hgt
      rw [← hflag, hg] at htop
      obtain ⟨r, hrun, hr⟩ := updateTickMoveUp_spec hs hnew g fuel
        (if next.1 then self.flip next.2 g else self) next.2 (by split <;> simpa using hg)
        hnext24 (by omega) (by omega)
      refine ⟨r, ?_, htop.trans hgt.le (by omega) hr⟩
      simpa [updateTickMoveUp, hnext, hstop] using hrun

/-- `_updateTickMoveDown` from `tick` down to `newTick` returns with enough fuel and flips the
initialized ticks of `(newTick, tick]`. Each iteration flips the tick `getNextTickLe` stops at
and continues below it. -/
theorem updateTickMoveDown_spec (hs : 0 < tickSpacing) (hnew : Int24 newTick) :
    ∀ (fuel : Nat) (self : PoolRewards) (tick : Int), Int24 tick → newTick ≤ tick →
      (tick - newTick).toNat < fuel →
      ∃ r, updateTickMoveDown bitmap tickSpacing newTick fuel self tick = some r ∧
        Flipped bitmap tickSpacing self r newTick tick
  | 0, _, _, _, _, hfuel => absurd hfuel (Nat.not_lt_zero _)
  | fuel + 1, self, tick, htick, hle, hfuel => by
    obtain ⟨hle', -, hnone, hflag⟩ := bitmap.getNextTickLe_spec tick hs
    generalize hnext : bitmap.getNextTickLe tick tickSpacing = next at hle' hnone hflag
    by_cases hstop : next.2 ≤ newTick
    · -- the next tick is at or below `newTick`: the loop breaks with nothing crossed
      refine ⟨self, by simp [updateTickMoveDown, hnext, hstop], ?_⟩
      exact flipped_self self fun t hlo hle'' => hnone t (by omega) hle''
    · have hnext24 : Int24 next.2 := by unfold Int24 at *; omega
      have htop := @flipped_top bitmap tickSpacing self (next.2 - 1) next.2 hnext24
        (fun t h1 h2 => by omega) (by omega)
      rw [← hflag] at htop
      have hdone : Flipped bitmap tickSpacing self
          (if next.1 then self.flip next.2 self.globalGrowth else self) (next.2 - 1) tick :=
        htop.trans (by omega) hle' (flipped_self _ hnone)
      obtain ⟨r, hrun, hr⟩ := updateTickMoveDown_spec hs hnew fuel
        (if next.1 then self.flip next.2 self.globalGrowth else self) (next.2 - 1)
        (by unfold Int24 at *; omega) (by omega) (by omega)
      refine ⟨r, ?_, hdone.trans' (by omega) (by omega) hr⟩
      simpa [updateTickMoveDown, hnext, hstop] using hrun

theorem isInitialized_eq_false_of_normalizeUnchecked_le (hs : 0 < tickSpacing) {lo tick : Int}
    (h : normalizeUnchecked tick tickSpacing ≤ lo) :
    ∀ t, lo < t → t ≤ tick → bitmap.isInitialized tickSpacing t = false := by
  intro t hlo hle
  cases hinit : bitmap.isInitialized tickSpacing t with
  | false => rfl
  | true =>
    have := TickBitmap.le_normalizeUnchecked_of_isInitialized hs hinit hle
    omega

end Walks

/-- `updateAfterTickMove` returns with fuel above the distance moved, and flips the initialized
ticks between the two ticks: `(prevTick, newTick]` moving up, `(newTick, prevTick]` moving down. -/
theorem updateAfterTickMove_flipped (self : PoolRewards) (bitmap : TickBitmap)
    {prevTick newTick tickSpacing : Int} (fuel : Nat) (hs : 0 < tickSpacing)
    (hprev : Int24 prevTick) (hnew : Int24 newTick) (hfuel : (newTick - prevTick).natAbs < fuel) :
    ∃ r, self.updateAfterTickMove bitmap prevTick newTick tickSpacing fuel = some r ∧
      Flipped bitmap tickSpacing self r (min prevTick newTick) (max prevTick newTick) := by
  unfold updateAfterTickMove
  by_cases hup : newTick > prevTick
  · rw [min_eq_left hup.le, max_eq_right hup.le]
    by_cases hnorm : normalizeUnchecked newTick tickSpacing > prevTick
    · simp only [if_pos hup, if_pos hnorm]
      exact updateTickMoveUp_spec hs hnew _ fuel self prevTick rfl hprev hup.le (by omega)
    · -- the new tick is below the next multiple of the spacing: nothing to cross
      simp only [if_pos hup, if_neg hnorm]
      exact ⟨self, rfl, flipped_self self
        (isInitialized_eq_false_of_normalizeUnchecked_le hs (not_lt.1 hnorm))⟩
  · by_cases hdown : newTick < prevTick
    · rw [min_eq_right hdown.le, max_eq_left hdown.le]
      by_cases hnorm : newTick < normalizeUnchecked prevTick tickSpacing
      · simp only [if_neg hup, if_pos hdown, if_pos hnorm]
        exact updateTickMoveDown_spec hs hnew fuel self prevTick hprev hdown.le (by omega)
      · -- the new tick is at or above the previous tick's multiple of the spacing
        simp only [if_neg hup, if_pos hdown, if_neg hnorm]
        exact ⟨self, rfl, flipped_self self
          (isInitialized_eq_false_of_normalizeUnchecked_le hs (not_lt.1 hnorm))⟩
    · simp only [if_neg hup, if_neg hdown]
      exact ⟨self, rfl, flipped_self self fun t h1 h2 => by omega⟩

/-! ## Growth inside a range -/

/-- The growth below `tick` seen from `current`: what the growth outside stands for when the tick
is at or below the price, and its complement otherwise. -/
def growthBelow (self : PoolRewards) (current tick : Int) : BitVec 256 :=
  if tick ≤ current then self.rewardGrowthOutside (uint24 tick)
  else self.globalGrowth - self.rewardGrowthOutside (uint24 tick)

theorem getGrowthInside_eq_growthBelow (self : PoolRewards) {current lower upper : Int}
    (h : lower < upper) :
    self.getGrowthInside current lower upper =
      self.growthBelow current upper - self.growthBelow current lower := by
  unfold getGrowthInside growthBelow
  dsimp only
  by_cases hl : current < lower
  · -- below the range
    simp only [if_pos hl, if_neg (not_le.2 hl), if_neg (not_le.2 (hl.trans h))]
    abel
  · by_cases hu : upper ≤ current
    · -- above the range
      simp only [if_neg hl, if_pos hu, if_pos (h.le.trans hu)]
    · -- inside it
      simp only [if_neg hl, if_neg hu, if_pos (not_lt.1 hl)]
      abel

section Growth

variable {bitmap : TickBitmap} {tickSpacing : Int}

/-- The growth below an initialized tick is the same after the move, seen from the new tick, as
before it from the old: the tick is flipped exactly when the move takes it across the price. -/
theorem growthBelow_of_flipped {self r : PoolRewards} {prevTick newTick : Int}
    (h : Flipped bitmap tickSpacing self r (min prevTick newTick) (max prevTick newTick))
    {t : Int} (ht : Int24 t) (hinit : bitmap.isInitialized tickSpacing t = true) :
    r.growthBelow newTick t = self.growthBelow prevTick t := by
  unfold growthBelow
  rw [h.2 t ht, h.1]
  have hcross : (bitmap.isInitialized tickSpacing t = true ∧ min prevTick newTick < t ∧
      t ≤ max prevTick newTick) ↔ (t ≤ prevTick ↔ ¬t ≤ newTick) := by
    simp only [hinit, true_and]
    omega
  simp only [hcross]
  by_cases h1 : t ≤ prevTick <;> by_cases h2 : t ≤ newTick <;> simp [h1, h2]

theorem getGrowthInside_of_flipped {self r : PoolRewards} {prevTick newTick : Int}
    (h : Flipped bitmap tickSpacing self r (min prevTick newTick) (max prevTick newTick))
    {lower upper : Int} (hl : Int24 lower) (hu : Int24 upper) (hlu : lower < upper)
    (hlinit : bitmap.isInitialized tickSpacing lower = true)
    (huinit : bitmap.isInitialized tickSpacing upper = true) :
    r.getGrowthInside newTick lower upper = self.getGrowthInside prevTick lower upper := by
  rw [getGrowthInside_eq_growthBelow r hlu, getGrowthInside_eq_growthBelow self hlu,
    growthBelow_of_flipped h hu huinit, growthBelow_of_flipped h hl hlinit]

end Growth

/-- For a spacing up to `MAX_TICK_SPACING` and ticks in `[MIN_TICK, MAX_TICK]`, every search the
move makes returns an `int24` tick, so that no checked `int24` operation of the searches reverts.
The move then returns, flips exactly the initialized ticks crossed and nothing else, and keeps the
growth inside every range whose ends are initialized ticks. -/
theorem updateAfterTickMove_spec (self : PoolRewards) (bitmap : TickBitmap)
    {prevTick newTick tickSpacing : Int} (fuel : Nat) (hs : 0 < tickSpacing)
    (hsmax : tickSpacing ≤ (ConfigEntryLib.MAX_TICK_SPACING : Int))
    (hprev : TickLib.MIN_TICK ≤ prevTick ∧ prevTick ≤ TickLib.MAX_TICK)
    (hnew : TickLib.MIN_TICK ≤ newTick ∧ newTick ≤ TickLib.MAX_TICK)
    (hfuel : (newTick - prevTick).natAbs < fuel) :
    (∀ t, min prevTick newTick ≤ t → t ≤ max prevTick newTick →
      FitsInt24 (bitmap.getNextTickGt t tickSpacing).2 ∧
        FitsInt24 (bitmap.getNextTickLe t tickSpacing).2) ∧
    ∃ r, self.updateAfterTickMove bitmap prevTick newTick tickSpacing fuel = some r ∧
      Flipped bitmap tickSpacing self r (min prevTick newTick) (max prevTick newTick) ∧
      ∀ lower upper, Int24 lower → Int24 upper → lower < upper →
        bitmap.isInitialized tickSpacing lower = true →
        bitmap.isInitialized tickSpacing upper = true →
        r.getGrowthInside newTick lower upper = self.getGrowthInside prevTick lower upper := by
  obtain ⟨r, hrun, hr⟩ := updateAfterTickMove_flipped self bitmap fuel hs (int24_of_tickRange hprev)
    (int24_of_tickRange hnew) hfuel
  refine ⟨fun t hlo hhi => ?_, r, hrun, hr, fun lower upper hl hu hlu hlinit huinit =>
    getGrowthInside_of_flipped hr hl hu hlu hlinit huinit⟩
  have hlo' : TickLib.MIN_TICK ≤ t := (le_min hprev.1 hnew.1).trans hlo
  have hhi' : t ≤ TickLib.MAX_TICK := hhi.trans (max_le hprev.2 hnew.2)
  exact ⟨TickBitmap.fitsInt24_getNextTickGt hs hsmax hlo' hhi',
    TickBitmap.fitsInt24_getNextTickLe hs hsmax hlo' hhi'⟩

def emptyBitmap : TickBitmap := ⟨fun _ => 0, TickBitmap.empty.word_lt⟩

def rewardsAtSeven : PoolRewards := ⟨fun _ => 0, 7⟩

theorem updateAfterTickMove_spec_emptyBitmap :
    0 < (1 : Int) ∧ (1 : Int) ≤ (ConfigEntryLib.MAX_TICK_SPACING : Int) ∧
      (TickLib.MIN_TICK ≤ 0 ∧ (0 : Int) ≤ TickLib.MAX_TICK) ∧
      (TickLib.MIN_TICK ≤ 10 ∧ (10 : Int) ≤ TickLib.MAX_TICK) ∧ (10 - 0 : Int).natAbs < 11 ∧
      (∀ t, min 0 10 ≤ t → t ≤ max 0 10 →
        FitsInt24 (emptyBitmap.getNextTickGt t 1).2 ∧ FitsInt24 (emptyBitmap.getNextTickLe t 1).2) ∧
      ∃ r, rewardsAtSeven.updateAfterTickMove emptyBitmap 0 10 1 11 = some r ∧
        Flipped emptyBitmap 1 rewardsAtSeven r (min 0 10) (max 0 10) ∧
        ∀ lower upper, Int24 lower → Int24 upper → lower < upper →
          emptyBitmap.isInitialized 1 lower = true → emptyBitmap.isInitialized 1 upper = true →
          r.getGrowthInside 10 lower upper = rewardsAtSeven.getGrowthInside 0 lower upper :=
  ⟨by decide, by decide, by decide, by decide, by decide,
    updateAfterTickMove_spec rewardsAtSeven emptyBitmap 11 (by decide) (by decide) (by decide)
      (by decide) (by decide)⟩

/-- With the lower end `5` of the range `[5, 20)` not initialized, a move from `0` to `10`
crosses nothing, and the growth inside reads `0` before the move and `7` after it, with the
global growth unchanged. -/
theorem growthInside_uninitialized_end :
    emptyBitmap.isInitialized 1 5 = false ∧
      (rewardsAtSeven.updateAfterTickMove emptyBitmap 0 10 1 11).map
        (fun r => (r.globalGrowth, r.getGrowthInside 10 5 20)) = some (7, 7) ∧
      rewardsAtSeven.getGrowthInside 0 5 20 = 0 := by
  decide +kernel

end PoolRewards

end Angstrom.Contract
