import Angstrom.Contract.ConfigStore
import Angstrom.Lib.BitScan

/-!
# Ticks and the tick bitmap

`TickLib` (`libraries/TickLib.sol`) and the bitmap reads of `IUniV4` (`interfaces/IUniV4.sol`).
Uniswap v4 keeps one bit per usable tick: the tick divided by the tick spacing (`compress`) is
split into a word position and a bit position (`position`), and `getPoolBitmapInfo` reads the
256-bit word. `getNextTickGt` looks in the word of the next compressed tick for the first set bit
at or above it, `getNextTickLe` in the word of the tick itself for the last set bit at or below
it; both stop at the edge of the word, returning its edge tick as not initialized.

The assembly's `sdiv` and `smod` truncate towards zero (`Int.tdiv`, `Int.tmod`), `sar` rounds
down; the `int24` and `int16` values stay in range for ticks in `[MIN_TICK, MAX_TICK]` and are
integers here. Both searches are specified by what a tick loop needs (`getNextTickGt_spec`,
`getNextTickLe_spec`): the tick found is a multiple of the spacing on the right side of the
start, no initialized tick lies between, and the flag says whether it is initialized.
-/

namespace Angstrom.Contract

/-- A pool's tick bitmap as `getPoolBitmapInfo` reads it: a 256-bit word per word position. -/
structure TickBitmap where
  word : Int → Nat
  word_lt : ∀ w, word w < 2 ^ 256

def TickBitmap.isInitialized (b : TickBitmap) (tickSpacing t : Int) : Bool :=
  decide (tickSpacing ∣ t) && (b.word (t / tickSpacing / 256)).testBit (t / tickSpacing % 256).toNat

namespace TickLib

def MIN_TICK : Int := -887272

def MAX_TICK : Int := 887272

/-- `compress`: `sdiv(tick, tickSpacing) - slt(smod(tick, tickSpacing), 0)`. -/
def compress (tick tickSpacing : Int) : Int :=
  tick.tdiv tickSpacing - if tick.tmod tickSpacing < 0 then 1 else 0

def normalizeUnchecked (tick tickSpacing : Int) : Int :=
  (tick.tdiv tickSpacing - if tick.tmod tickSpacing < 0 then 1 else 0) * tickSpacing

def position (compressed : Int) : Int × Nat := (compressed / 256, (compressed % 256).toNat)

def toTick (wordPos : Int) (bitPos : Nat) (tickSpacing : Int) : Int :=
  (wordPos * 256 + bitPos) * tickSpacing

/-- `nextBitPosLte`: the last set bit of `word` at or below `bitPos`, found as the last set bit
of the word shifted so that `bitPos` is its top bit; bit `0` when there is none. -/
def nextBitPosLte (word bitPos : Nat) : Bool × Nat :=
  let offset := 0xff - bitPos
  let relativePos := BitScan.fls 256 ((word <<< offset) % 2 ^ 256)
  let initialized := relativePos != 256
  (initialized, if initialized then (relativePos - offset) % 256 else 0)

/-- `nextBitPosGte`: the first set bit of `word` at or above `bitPos`; bit `255` when there is
none. -/
def nextBitPosGte (word bitPos : Nat) : Bool × Nat :=
  let relativePos := BitScan.ffs 256 (word >>> bitPos)
  let initialized := relativePos != 256
  (initialized, if initialized then (relativePos + bitPos) % 256 else 255)

/-! ## Compressed ticks and positions -/

theorem compress_eq {tick tickSpacing : Int} (hs : 0 < tickSpacing) :
    compress tick tickSpacing = tick / tickSpacing := by
  have hlt := Int.emod_lt_of_pos tick hs
  have hnn := Int.emod_nonneg tick hs.ne'
  have habs : ((tickSpacing.natAbs : Nat) : Int) = tickSpacing := Int.natAbs_of_nonneg hs.le
  unfold compress
  rw [Int.tdiv_eq_ediv, Int.tmod_eq_emod, Int.sign_eq_one_of_pos hs]
  -- the correction of the truncated quotient and that of `smod` cancel
  split_ifs <;> push_cast [habs] at * <;> omega

theorem normalizeUnchecked_eq {tick tickSpacing : Int} (hs : 0 < tickSpacing) :
    normalizeUnchecked tick tickSpacing = tick / tickSpacing * tickSpacing := by
  rw [normalizeUnchecked, ← compress, compress_eq hs]

theorem position_spec (compressed : Int) :
    (position compressed).1 * 256 + (position compressed).2 = compressed ∧
      (position compressed).2 < 256 := by
  simp only [position]
  omega

/-! ## The bit searches -/

theorem testBit_shift_mod (word offset j : Nat) :
    ((word <<< offset) % 2 ^ 256).testBit j =
      (decide (j < 256) && decide (offset ≤ j) && word.testBit (j - offset)) := by
  rw [Nat.testBit_mod_two_pow, Nat.testBit_shiftLeft]
  simp [ge_iff_le, Bool.and_assoc]

theorem nextBitPosGte_spec {word bitPos : Nat} (hword : word < 2 ^ 256) (hbit : bitPos < 256) :
    bitPos ≤ (nextBitPosGte word bitPos).2 ∧ (nextBitPosGte word bitPos).2 < 256 ∧
      (∀ j, bitPos ≤ j → j < (nextBitPosGte word bitPos).2 → word.testBit j = false) ∧
      (nextBitPosGte word bitPos).1 = word.testBit (nextBitPosGte word bitPos).2 := by
  have hhigh : ∀ j, 256 ≤ j → word.testBit j = false := fun j hj =>
    Nat.testBit_lt_two_pow (lt_of_lt_of_le hword (Nat.pow_le_pow_right (by omega) hj))
  rcases BitScan.ffs_spec 256 (word >>> bitPos) with ⟨hlt, hset, hclear⟩ | ⟨heq, hnone⟩
  · -- a set bit at `bitPos + ffs`, which stays inside the word
    generalize hr : BitScan.ffs 256 (word >>> bitPos) = r at hlt hset hclear
    rw [Nat.testBit_shiftRight] at hset
    have hin : bitPos + r < 256 := by
      by_contra hout
      rw [hhigh _ (by omega)] at hset
      exact Bool.false_ne_true hset
    have h1 : (nextBitPosGte word bitPos).1 = true := by simp [nextBitPosGte, hr, hlt.ne]
    have h2 : (nextBitPosGte word bitPos).2 = bitPos + r := by
      simp only [nextBitPosGte, hr, bne_iff_ne, ne_eq, hlt.ne, not_false_eq_true, if_true]
      omega
    rw [h1, h2, hset]
    refine ⟨by omega, hin, fun j hj hjb => ?_, rfl⟩
    have := hclear (j - bitPos) (by omega)
    rwa [Nat.testBit_shiftRight, show bitPos + (j - bitPos) = j by omega] at this
  · -- no set bit at or above `bitPos`: bit `255`, clear
    have hclear : ∀ j, bitPos ≤ j → j < 256 → word.testBit j = false := fun j hj hj' => by
      have := hnone (j - bitPos) (by omega)
      rwa [Nat.testBit_shiftRight, show bitPos + (j - bitPos) = j by omega] at this
    simp only [nextBitPosGte, heq, bne_self_eq_false, Bool.false_eq_true, if_false]
    exact ⟨by omega, by omega, fun j hj hjb => hclear j hj (by omega),
      (hclear 255 (by omega) (by omega)).symm⟩

theorem nextBitPosLte_spec {word bitPos : Nat} (hbit : bitPos < 256) :
    (nextBitPosLte word bitPos).2 ≤ bitPos ∧
      (∀ j, (nextBitPosLte word bitPos).2 < j → j ≤ bitPos → word.testBit j = false) ∧
      (nextBitPosLte word bitPos).1 = word.testBit (nextBitPosLte word bitPos).2 := by
  have hshift := testBit_shift_mod word (0xff - bitPos)
  have hback : ∀ j, j ≤ bitPos →
      ((word <<< (0xff - bitPos)) % 2 ^ 256).testBit (j + (0xff - bitPos)) = word.testBit j :=
    fun j hj => by
      rw [hshift]
      simp [show j + (0xff - bitPos) - (0xff - bitPos) = j by omega,
        show j + (0xff - bitPos) < 256 by omega]
  rcases BitScan.fls_spec 256 ((word <<< (0xff - bitPos)) % 2 ^ 256) with
    ⟨hlt, hset, hclear⟩ | ⟨heq, hnone⟩
  · -- the last set bit of the shifted word sits at or above the shift
    generalize hr : BitScan.fls 256 ((word <<< (0xff - bitPos)) % 2 ^ 256) = r at hlt hset hclear
    rw [hshift] at hset
    simp only [Bool.and_eq_true, decide_eq_true_eq] at hset
    obtain ⟨⟨-, hoff⟩, hword⟩ := hset
    have h1 : (nextBitPosLte word bitPos).1 = true := by
      simp only [nextBitPosLte, hr]
      simpa using hlt.ne
    have h2 : (nextBitPosLte word bitPos).2 = r - (0xff - bitPos) := by
      simp only [nextBitPosLte, hr, bne_iff_ne, ne_eq, hlt.ne, not_false_eq_true, if_true]
      omega
    rw [h1, h2, hword]
    refine ⟨by omega, fun j hj hjb => ?_, rfl⟩
    rw [← hback j hjb]
    exact hclear _ (by omega) (by omega)
  · -- no set bit at or below `bitPos`: bit `0`, clear
    have hclear : ∀ j, j ≤ bitPos → word.testBit j = false := fun j hj => by
      rw [← hback j hj]
      exact hnone _ (by omega)
    simp only [nextBitPosLte, heq, bne_self_eq_false, Bool.false_eq_true, if_false]
    exact ⟨by omega, fun j _ hjb => hclear j hjb, (hclear 0 (by omega)).symm⟩

theorem nextBitPosGte_snd_of_fst {word bitPos : Nat} (h : (nextBitPosGte word bitPos).1 = false) :
    (nextBitPosGte word bitPos).2 = 255 := by
  simp only [nextBitPosGte] at h ⊢
  rw [if_neg (by simpa using h)]

theorem nextBitPosLte_snd_of_fst {word bitPos : Nat} (h : (nextBitPosLte word bitPos).1 = false) :
    (nextBitPosLte word bitPos).2 = 0 := by
  simp only [nextBitPosLte] at h ⊢
  rw [if_neg (by simpa using h)]

theorem toTick_position (compressed tickSpacing : Int) :
    toTick (position compressed).1 (position compressed).2 tickSpacing =
      compressed * tickSpacing := by
  rw [toTick, (position_spec compressed).1]

theorem position_toTick_index (w : Int) {j : Nat} (hj : j < 256) : position (w * 256 + j) = (w, j) := by
  simp only [position, Prod.mk.injEq]
  omega

def FitsInt24 (v : Int) : Prop := -2 ^ 23 ≤ v ∧ v < 2 ^ 23

instance (v : Int) : Decidable (FitsInt24 v) := inferInstanceAs (Decidable (_ ∧ _))

end TickLib

/-! ## The next tick in the bitmap -/

namespace TickBitmap

open TickLib

/-- `IUniV4.getNextTickGt`: the first tick above `tick`, up to the end of the word of the next
compressed tick. -/
def getNextTickGt (b : TickBitmap) (tick tickSpacing : Int) : Bool × Int :=
  let p := position (compress tick tickSpacing + 1)
  let n := nextBitPosGte (b.word p.1) p.2
  (n.1, toTick p.1 n.2 tickSpacing)

/-- `IUniV4.getNextTickLe`: the last tick at or below `tick`, down to the start of its word. -/
def getNextTickLe (b : TickBitmap) (tick tickSpacing : Int) : Bool × Int :=
  let p := position (compress tick tickSpacing)
  let n := nextBitPosLte (b.word p.1) p.2
  (n.1, toTick p.1 n.2 tickSpacing)

/-- `IUniV4.getNextTickLt`: the last tick at or below the compressed tick before `tick`'s, down
to the start of its word. -/
def getNextTickLt (b : TickBitmap) (tick tickSpacing : Int) : Bool × Int :=
  let p := position (compress tick tickSpacing - 1)
  let n := nextBitPosLte (b.word p.1) p.2
  (n.1, toTick p.1 n.2 tickSpacing)

def bit (b : TickBitmap) (k : Int) : Bool := (b.word (k / 256)).testBit (k % 256).toNat

theorem isInitialized_toTick (b : TickBitmap) {tickSpacing : Int} (hs : 0 < tickSpacing)
    (w : Int) {j : Nat} (hj : j < 256) :
    b.isInitialized tickSpacing (toTick w j tickSpacing) = (b.word w).testBit j := by
  have hdiv : (w * 256 + j) / 256 = w := by omega
  have hmod : ((j : Int) % 256).toNat = j := by omega
  simp [isInitialized, toTick, Int.mul_ediv_cancel _ hs.ne', hdiv, hmod]

theorem eq_of_isInitialized {b : TickBitmap} {tickSpacing u : Int}
    (hu : b.isInitialized tickSpacing u = true) :
    u = u / tickSpacing * tickSpacing ∧
      (b.word (u / tickSpacing / 256)).testBit (u / tickSpacing % 256).toNat = true := by
  simp only [isInitialized, Bool.and_eq_true, decide_eq_true_eq] at hu
  exact ⟨(Int.ediv_mul_cancel hu.1).symm, hu.2⟩

theorem isInitialized_eq_false_of_clear {b : TickBitmap} {tickSpacing u w : Int} {lo hi : Nat}
    (hhi : hi ≤ 256) (hclear : ∀ j, lo ≤ j → j < hi → (b.word w).testBit j = false)
    (hk : ∀ k, u = k * tickSpacing → w * 256 + lo ≤ k ∧ k < w * 256 + hi) :
    b.isInitialized tickSpacing u = false := by
  by_contra hinit
  obtain ⟨hmul, hset⟩ := eq_of_isInitialized (Bool.not_eq_false _ ▸ hinit)
  obtain ⟨hk1, hk2⟩ := hk (u / tickSpacing) hmul
  have hkw : u / tickSpacing / 256 = w := by omega
  rw [hkw, hclear (u / tickSpacing % 256).toNat (by omega) (by omega)] at hset
  exact Bool.false_ne_true hset

theorem getNextTickGt_spec (b : TickBitmap) (tick : Int) {tickSpacing : Int}
    (hs : 0 < tickSpacing) :
    tick < (b.getNextTickGt tick tickSpacing).2 ∧
      tickSpacing ∣ (b.getNextTickGt tick tickSpacing).2 ∧
      (∀ u, tick < u → u < (b.getNextTickGt tick tickSpacing).2 →
        b.isInitialized tickSpacing u = false) ∧
      (b.getNextTickGt tick tickSpacing).1 =
        b.isInitialized tickSpacing (b.getNextTickGt tick tickSpacing).2 := by
  obtain ⟨hpos, hbit⟩ := position_spec (tick / tickSpacing + 1)
  set w := (position (tick / tickSpacing + 1)).1
  set bb := (position (tick / tickSpacing + 1)).2
  obtain ⟨hge, hlt, hclear, hinit⟩ := nextBitPosGte_spec (b.word_lt w) hbit
  set b' := (nextBitPosGte (b.word w) bb).2
  have hlow : tick / tickSpacing * tickSpacing ≤ tick := Int.ediv_mul_le tick hs.ne'
  have hhigh : tick < (tick / tickSpacing + 1) * tickSpacing := Int.lt_ediv_add_one_mul_self tick hs
  have heq : b.getNextTickGt tick tickSpacing =
      ((nextBitPosGte (b.word w) bb).1, toTick w b' tickSpacing) := by
    simp only [getNextTickGt, compress_eq hs, w, bb, b']
  rw [heq]
  refine ⟨?_, Dvd.intro_left _ rfl, ?_, by rw [hinit, isInitialized_toTick b hs w hlt]⟩
  · -- the compressed tick found is at least the next compressed tick
    calc tick < (tick / tickSpacing + 1) * tickSpacing := hhigh
      _ ≤ toTick w b' tickSpacing :=
        mul_le_mul_of_nonneg_right (by rw [← hpos]; omega) hs.le
  · -- a tick strictly between has a compressed position in the clear bits `bb, …, b' - 1`
    intro u hu hu'
    refine isInitialized_eq_false_of_clear (by omega) hclear fun k hmul => ?_
    have hk1 : tick / tickSpacing < k :=
      lt_of_mul_lt_mul_right (lt_of_le_of_lt hlow (hmul ▸ hu)) hs.le
    have hk2 : k < w * 256 + b' :=
      lt_of_mul_lt_mul_right (hmul ▸ hu' : k * tickSpacing < toTick w b' tickSpacing) hs.le
    omega

/-- `getNextTickLe` moves down or stays at a multiple of the spacing, passes no initialized
tick, and reports whether the tick it stops at is initialized. -/
theorem getNextTickLe_spec (b : TickBitmap) (tick : Int) {tickSpacing : Int}
    (hs : 0 < tickSpacing) :
    (b.getNextTickLe tick tickSpacing).2 ≤ tick ∧
      tickSpacing ∣ (b.getNextTickLe tick tickSpacing).2 ∧
      (∀ u, (b.getNextTickLe tick tickSpacing).2 < u → u ≤ tick →
        b.isInitialized tickSpacing u = false) ∧
      (b.getNextTickLe tick tickSpacing).1 =
        b.isInitialized tickSpacing (b.getNextTickLe tick tickSpacing).2 := by
  obtain ⟨hpos, hbit⟩ := position_spec (tick / tickSpacing)
  set w := (position (tick / tickSpacing)).1
  set bb := (position (tick / tickSpacing)).2
  obtain ⟨hle, hclear, hinit⟩ := @nextBitPosLte_spec (b.word w) _ hbit
  set b' := (nextBitPosLte (b.word w) bb).2
  have hb'lt : b' < 256 := by omega
  have hlow : tick / tickSpacing * tickSpacing ≤ tick := Int.ediv_mul_le tick hs.ne'
  have hhigh : tick < (tick / tickSpacing + 1) * tickSpacing := Int.lt_ediv_add_one_mul_self tick hs
  have heq : b.getNextTickLe tick tickSpacing =
      ((nextBitPosLte (b.word w) bb).1, toTick w b' tickSpacing) := by
    simp only [getNextTickLe, compress_eq hs, w, bb, b']
  rw [heq]
  refine ⟨?_, Dvd.intro_left _ rfl, ?_, by rw [hinit, isInitialized_toTick b hs w hb'lt]⟩
  · -- the compressed tick found is at most the tick's own
    calc toTick w b' tickSpacing ≤ tick / tickSpacing * tickSpacing :=
          mul_le_mul_of_nonneg_right (by rw [← hpos]; omega) hs.le
      _ ≤ tick := hlow
  · -- a tick between has a compressed position in the clear bits `b' + 1, …, bb`
    intro u hu hu'
    refine isInitialized_eq_false_of_clear (by omega)
      (fun j (h1 : b' + 1 ≤ j) (h2 : j < bb + 1) => hclear j (by omega) (by omega)) fun k hmul => ?_
    have hk1 : w * 256 + b' < k :=
      lt_of_mul_lt_mul_right (hmul ▸ hu : toTick w b' tickSpacing < k * tickSpacing) hs.le
    have hk2 : k < tick / tickSpacing + 1 :=
      lt_of_mul_lt_mul_right (lt_of_le_of_lt (hmul ▸ hu') hhigh) hs.le
    omega

theorem getNextTickLt_eq (b : TickBitmap) (tick : Int) {tickSpacing : Int} (hs : 0 < tickSpacing) :
    b.getNextTickLt tick tickSpacing = b.getNextTickLe (tick - tickSpacing) tickSpacing := by
  have hdiv : (tick - tickSpacing) / tickSpacing = tick / tickSpacing - 1 := by
    rw [show tick - tickSpacing = tick + (-1) * tickSpacing by ring,
      Int.add_mul_ediv_right _ _ hs.ne']
    ring
  simp only [getNextTickLt, getNextTickLe, compress_eq hs, hdiv]

/-- From a multiple of the spacing, `getNextTickLt` moves down to a multiple of the spacing,
passes no initialized tick, and reports whether the tick it stops at is initialized. -/
theorem getNextTickLt_spec (b : TickBitmap) {tick tickSpacing : Int} (hs : 0 < tickSpacing)
    (halign : tickSpacing ∣ tick) :
    (b.getNextTickLt tick tickSpacing).2 < tick ∧
      tickSpacing ∣ (b.getNextTickLt tick tickSpacing).2 ∧
      (∀ u, (b.getNextTickLt tick tickSpacing).2 < u → u < tick →
        b.isInitialized tickSpacing u = false) ∧
      (b.getNextTickLt tick tickSpacing).1 =
        b.isInitialized tickSpacing (b.getNextTickLt tick tickSpacing).2 := by
  rw [getNextTickLt_eq b tick hs]
  obtain ⟨hle, hdvd, hnone, hflag⟩ := b.getNextTickLe_spec (tick - tickSpacing) hs
  refine ⟨by omega, hdvd, fun u hlo hhi => ?_, hflag⟩
  by_cases hu : u ≤ tick - tickSpacing
  · exact hnone u hlo hu
  · -- strictly inside the spacing below `tick` lies no multiple of the spacing
    have hndvd : ¬ tickSpacing ∣ u := by
      obtain ⟨m, rfl⟩ := halign
      rintro ⟨k, rfl⟩
      have h1 : k < m := lt_of_mul_lt_mul_left hhi hs.le
      have h2 : m - 1 < k :=
        lt_of_mul_lt_mul_left (by linarith : tickSpacing * (m - 1) < tickSpacing * k) hs.le
      omega
    simp [isInitialized, hndvd]

theorem le_normalizeUnchecked_of_isInitialized {b : TickBitmap} {tickSpacing t tick : Int}
    (hs : 0 < tickSpacing) (hinit : b.isInitialized tickSpacing t = true) (h : t ≤ tick) :
    t ≤ normalizeUnchecked tick tickSpacing :=
  calc t = t / tickSpacing * tickSpacing := (eq_of_isInitialized hinit).1
    _ ≤ tick / tickSpacing * tickSpacing :=
        mul_le_mul_of_nonneg_right (Int.ediv_le_ediv hs h) hs.le
    _ = normalizeUnchecked tick tickSpacing := (normalizeUnchecked_eq hs).symm

/-! ### The searches in terms of compressed ticks

`SearchesUp b ts start r` says what a search up the word of the compressed tick `start` returns:
the tick of the first compressed tick `c'` at or above `start` whose bit is set, or of the last
compressed tick of the word when there is none, with the bit of `c'`. `SearchesDown` is the
search down to the start of the word. Each of the three reads is one of them, from
`compress tick ts` and one more or one less (`getNextTickGt_searchesUp`,
`getNextTickLe_searchesDown`, `getNextTickLt_searchesDown`), for any spacing. -/

def SearchesUp (b : TickBitmap) (tickSpacing start : Int) (r : Bool × Int) : Prop :=
  ∃ c', r.2 = c' * tickSpacing ∧ start ≤ c' ∧ c' ≤ start / 256 * 256 + 255 ∧
    (∀ k, start ≤ k → k < c' → b.bit k = false) ∧ r.1 = b.bit c' ∧
    (r.1 = false → c' = start / 256 * 256 + 255)

def SearchesDown (b : TickBitmap) (tickSpacing start : Int) (r : Bool × Int) : Prop :=
  ∃ c', r.2 = c' * tickSpacing ∧ start / 256 * 256 ≤ c' ∧ c' ≤ start ∧
    (∀ k, c' < k → k ≤ start → b.bit k = false) ∧ r.1 = b.bit c' ∧
    (r.1 = false → c' = start / 256 * 256)

theorem bit_index (b : TickBitmap) (w : Int) {j : Nat} (hj : j < 256) :
    b.bit (w * 256 + j) = (b.word w).testBit j := by
  have hpos := position_toTick_index w hj
  simp only [position, Prod.mk.injEq] at hpos
  rw [bit, hpos.1, hpos.2]

theorem searchesUp_nextBitPosGte (b : TickBitmap) (tickSpacing start : Int) :
    b.SearchesUp tickSpacing start
      ((nextBitPosGte (b.word (position start).1) (position start).2).1,
        toTick (position start).1 (nextBitPosGte (b.word (position start).1) (position start).2).2
          tickSpacing) := by
  obtain ⟨hpos, hbit⟩ := position_spec start
  set w := (position start).1
  set bb := (position start).2
  have hw : start / 256 = w := by omega
  obtain ⟨hge, hlt, hclear, hinit⟩ := nextBitPosGte_spec (b.word_lt w) hbit
  set b' := (nextBitPosGte (b.word w) bb).2
  refine ⟨w * 256 + b', rfl, by omega, by omega, fun k hk hk' => ?_, ?_, fun hf => ?_⟩
  · -- a compressed tick between lies in the same word, at a clear bit between `bb` and `b'`
    have hkw : k / 256 = w := by omega
    rw [bit, hkw]
    exact hclear _ (by omega) (by omega)
  · rw [hinit, bit_index b w hlt]
  · have h255 : b' = 255 := nextBitPosGte_snd_of_fst hf
    omega

theorem searchesDown_nextBitPosLte (b : TickBitmap) (tickSpacing start : Int) :
    b.SearchesDown tickSpacing start
      ((nextBitPosLte (b.word (position start).1) (position start).2).1,
        toTick (position start).1 (nextBitPosLte (b.word (position start).1) (position start).2).2
          tickSpacing) := by
  obtain ⟨hpos, hbit⟩ := position_spec start
  set w := (position start).1
  set bb := (position start).2
  have hw : start / 256 = w := by omega
  obtain ⟨hle, hclear, hinit⟩ := @nextBitPosLte_spec (b.word w) _ hbit
  set b' := (nextBitPosLte (b.word w) bb).2
  have hb'lt : b' < 256 := by omega
  refine ⟨w * 256 + b', rfl, by omega, by omega, fun k hk hk' => ?_, ?_, fun hf => ?_⟩
  · -- a compressed tick between lies in the same word, at a clear bit between `b'` and `bb`
    have hkw : k / 256 = w := by omega
    rw [bit, hkw]
    exact hclear _ (by omega) (by omega)
  · rw [hinit, bit_index b w hb'lt]
  · have h0 : b' = 0 := nextBitPosLte_snd_of_fst hf
    omega

theorem getNextTickGt_searchesUp (b : TickBitmap) (tick tickSpacing : Int) :
    b.SearchesUp tickSpacing (compress tick tickSpacing + 1) (b.getNextTickGt tick tickSpacing) :=
  searchesUp_nextBitPosGte b tickSpacing _

theorem getNextTickLe_searchesDown (b : TickBitmap) (tick tickSpacing : Int) :
    b.SearchesDown tickSpacing (compress tick tickSpacing) (b.getNextTickLe tick tickSpacing) :=
  searchesDown_nextBitPosLte b tickSpacing _

theorem getNextTickLt_searchesDown (b : TickBitmap) (tick tickSpacing : Int) :
    b.SearchesDown tickSpacing (compress tick tickSpacing - 1) (b.getNextTickLt tick tickSpacing) :=
  searchesDown_nextBitPosLte b tickSpacing _

/-! ### Progress and the `int24` range

With a positive spacing the compressed tick `c` of `tick` has `c * ts ≤ tick < (c + 1) * ts`, so a
search up from `c + 1` ends above `tick`, one down from `c` at or below it, and one down from
`c - 1` at least a spacing below it. The ticks stay in `int24` for spacings up to
`MAX_TICK_SPACING`: a word that reaches past the compressed tick by up to `255` positions can only
hold a tick beyond `±2 ^ 23` when the compressed tick is near zero and the spacing above
`32767`, or when the compressed tick is far from zero and the tick beyond `MAX_TICK`. -/

section Range

variable {tick tickSpacing : Int}

theorem lt_searchesUp {b : TickBitmap} {r : Bool × Int} (hs : 0 < tickSpacing)
    (h : b.SearchesUp tickSpacing (compress tick tickSpacing + 1) r) : tick < r.2 := by
  obtain ⟨c', hr, hlo, -⟩ := h
  rw [compress_eq hs] at hlo
  rw [hr]
  calc tick < (tick / tickSpacing + 1) * tickSpacing := Int.lt_ediv_add_one_mul_self tick hs
    _ ≤ c' * tickSpacing := Int.mul_le_mul_of_nonneg_right hlo hs.le

theorem searchesDown_le {b : TickBitmap} {r : Bool × Int} {k : Int} (hs : 0 < tickSpacing)
    (h : b.SearchesDown tickSpacing (compress tick tickSpacing - k) r) :
    r.2 + k * tickSpacing ≤ tick := by
  obtain ⟨c', hr, -, hhi, -⟩ := h
  rw [compress_eq hs] at hhi
  rw [hr, ← Int.add_mul]
  calc (c' + k) * tickSpacing ≤ tick / tickSpacing * tickSpacing :=
        Int.mul_le_mul_of_nonneg_right (by omega) hs.le
    _ ≤ tick := Int.ediv_mul_le tick hs.ne'

theorem mul_lt_of_le_word_end {c' : Int} (hs : 0 < tickSpacing)
    (hsmax : tickSpacing ≤ (ConfigEntryLib.MAX_TICK_SPACING : Int)) (htick : tick ≤ TickLib.MAX_TICK)
    (hc' : c' ≤ (tick / tickSpacing + 1) / 256 * 256 + 255) : c' * tickSpacing < 2 ^ 23 := by
  have hmax : (ConfigEntryLib.MAX_TICK_SPACING : Int) = 32767 := rfl
  have hfloor : tick / tickSpacing * tickSpacing ≤ tick := Int.ediv_mul_le tick hs.ne'
  unfold TickLib.MAX_TICK at htick
  rcases Int.lt_or_le ((tick / tickSpacing + 1) / 256) 1 with hw | hw
  · -- the word of compressed ticks below `256`: at most `255 * 32767`
    calc c' * tickSpacing ≤ 255 * tickSpacing := Int.mul_le_mul_of_nonneg_right (by omega) hs.le
      _ < 2 ^ 23 := by omega
  · -- a word further up needs a compressed tick of `255` or more, hence a spacing below `3480`
    have hc : 255 * tickSpacing ≤ tick / tickSpacing * tickSpacing :=
      Int.mul_le_mul_of_nonneg_right (by omega) hs.le
    calc c' * tickSpacing ≤ (tick / tickSpacing + 256) * tickSpacing :=
          Int.mul_le_mul_of_nonneg_right (by omega) hs.le
      _ = tick / tickSpacing * tickSpacing + 256 * tickSpacing := Int.add_mul _ _ _
      _ < 2 ^ 23 := by omega

theorem le_mul_of_word_start_le {c' k : Int} (hs : 0 < tickSpacing)
    (hsmax : tickSpacing ≤ (ConfigEntryLib.MAX_TICK_SPACING : Int)) (htick : TickLib.MIN_TICK ≤ tick)
    (hk : 0 ≤ k) (hk1 : k ≤ 1) (hc' : (tick / tickSpacing - k) / 256 * 256 ≤ c') :
    -2 ^ 23 ≤ c' * tickSpacing := by
  have hmax : (ConfigEntryLib.MAX_TICK_SPACING : Int) = 32767 := rfl
  have hceil : tick < (tick / tickSpacing + 1) * tickSpacing := Int.lt_ediv_add_one_mul_self tick hs
  unfold TickLib.MIN_TICK at htick
  rcases Int.lt_or_le ((tick / tickSpacing - k) / 256) (-1) with hw | hw
  · -- a word further down needs a compressed tick below `-256`, hence a spacing below `3467`
    have hc : (tick / tickSpacing + 1) * tickSpacing ≤ -255 * tickSpacing :=
      Int.mul_le_mul_of_nonneg_right (by omega) hs.le
    calc -2 ^ 23 ≤ (tick / tickSpacing + 1) * tickSpacing - 257 * tickSpacing := by omega
      _ = (tick / tickSpacing - 256) * tickSpacing := by rw [Int.add_mul, Int.sub_mul]; omega
      _ ≤ c' * tickSpacing := Int.mul_le_mul_of_nonneg_right (by omega) hs.le
  · -- the word of compressed ticks from `-256`: at least `-256 * 32767`
    calc -2 ^ 23 ≤ -256 * tickSpacing := by omega
      _ ≤ c' * tickSpacing := Int.mul_le_mul_of_nonneg_right (by omega) hs.le

end Range

section Fits

variable {b : TickBitmap} {tick tickSpacing : Int} {r : Bool × Int}
variable (hs : 0 < tickSpacing) (hsmax : tickSpacing ≤ (ConfigEntryLib.MAX_TICK_SPACING : Int))
  (hlo : TickLib.MIN_TICK ≤ tick) (hhi : tick ≤ TickLib.MAX_TICK)
include hs hsmax hlo hhi

theorem fitsInt24_of_searchesUp (h : b.SearchesUp tickSpacing (compress tick tickSpacing + 1) r) :
    FitsInt24 r.2 := by
  have hgt := lt_searchesUp hs h
  obtain ⟨c', hr, -, hc', -⟩ := h
  rw [compress_eq hs] at hc'
  have hlt := mul_lt_of_le_word_end hs hsmax hhi hc'
  unfold TickLib.MIN_TICK at hlo
  unfold FitsInt24
  omega

theorem fitsInt24_of_searchesDown {k : Int} (hk : 0 ≤ k) (hk1 : k ≤ 1)
    (h : b.SearchesDown tickSpacing (compress tick tickSpacing - k) r) : FitsInt24 r.2 := by
  have hle := searchesDown_le hs h
  obtain ⟨c', hr, hc', -⟩ := h
  rw [compress_eq hs] at hc'
  have hge := le_mul_of_word_start_le hs hsmax hlo hk hk1 hc'
  have hkts : 0 ≤ k * tickSpacing := Int.mul_nonneg hk hs.le
  unfold TickLib.MAX_TICK at hhi
  unfold FitsInt24
  omega

theorem fitsInt24_getNextTickGt : FitsInt24 (b.getNextTickGt tick tickSpacing).2 :=
  fitsInt24_of_searchesUp hs hsmax hlo hhi (getNextTickGt_searchesUp b tick tickSpacing)

theorem fitsInt24_getNextTickLe : FitsInt24 (b.getNextTickLe tick tickSpacing).2 := by
  apply fitsInt24_of_searchesDown hs hsmax hlo hhi le_rfl (by decide)
  rw [Int.sub_zero]
  exact getNextTickLe_searchesDown b tick tickSpacing

theorem fitsInt24_getNextTickLt : FitsInt24 (b.getNextTickLt tick tickSpacing).2 :=
  fitsInt24_of_searchesDown hs hsmax hlo hhi (by decide) le_rfl
    (getNextTickLt_searchesDown b tick tickSpacing)

end Fits

/-- For a spacing from `1` to `MAX_TICK_SPACING` and a tick in `[MIN_TICK, MAX_TICK]`, the three
reads of the bitmap return the nearest tick in the word they search: `getNextTickGt` the first
compressed tick above the tick's whose bit is set in the word of the next compressed tick, or the
word's last; `getNextTickLe` the last at or below the tick's own in its word, or the word's
first; `getNextTickLt` the same from the compressed tick below. The first moves up past the
tick, the second stays at or below it, the third ends a spacing below it, and every tick
returned is an `int24`. -/
theorem getNextTick_nearest (b : TickBitmap) {tick tickSpacing : Int} (hs : 0 < tickSpacing)
    (hsmax : tickSpacing ≤ (ConfigEntryLib.MAX_TICK_SPACING : Int)) (hlo : TickLib.MIN_TICK ≤ tick)
    (hhi : tick ≤ TickLib.MAX_TICK) :
    compress tick tickSpacing = tick / tickSpacing ∧
      (∀ c, toTick (position c).1 (position c).2 tickSpacing = c * tickSpacing) ∧
      (∀ (w : Int) (j : Nat), j < 256 → position (w * 256 + j) = (w, j)) ∧
      b.SearchesUp tickSpacing (compress tick tickSpacing + 1) (b.getNextTickGt tick tickSpacing) ∧
      b.SearchesDown tickSpacing (compress tick tickSpacing) (b.getNextTickLe tick tickSpacing) ∧
      b.SearchesDown tickSpacing (compress tick tickSpacing - 1)
        (b.getNextTickLt tick tickSpacing) ∧
      tick < (b.getNextTickGt tick tickSpacing).2 ∧ (b.getNextTickLe tick tickSpacing).2 ≤ tick ∧
      (b.getNextTickLt tick tickSpacing).2 + tickSpacing ≤ tick ∧
      FitsInt24 (b.getNextTickGt tick tickSpacing).2 ∧
      FitsInt24 (b.getNextTickLe tick tickSpacing).2 ∧
      FitsInt24 (b.getNextTickLt tick tickSpacing).2 := by
  have hgt := getNextTickGt_searchesUp b tick tickSpacing
  have hle := getNextTickLe_searchesDown b tick tickSpacing
  have hlt := getNextTickLt_searchesDown b tick tickSpacing
  have hle0 : b.SearchesDown tickSpacing (compress tick tickSpacing - 0)
      (b.getNextTickLe tick tickSpacing) := by
    rw [Int.sub_zero]
    exact hle
  refine ⟨compress_eq hs, fun c => toTick_position c tickSpacing, fun w _ hj => position_toTick_index w hj,
    hgt, hle, hlt, lt_searchesUp hs hgt, ?_, ?_, fitsInt24_getNextTickGt hs hsmax hlo hhi,
    fitsInt24_getNextTickLe hs hsmax hlo hhi, fitsInt24_getNextTickLt hs hsmax hlo hhi⟩
  · simpa using searchesDown_le hs hle0
  · simpa using searchesDown_le hs hlt

def empty : TickBitmap := ⟨fun _ => 0, fun _ => Nat.two_pow_pos 256⟩

/-- Spacing `60` and tick `0` in the empty bitmap: the search up ends at the word's last
compressed tick, `255 * 60`, above the tick. -/
theorem getNextTick_nearest_empty :
    (0 : Int) < 60 ∧ (60 : Int) ≤ (ConfigEntryLib.MAX_TICK_SPACING : Int) ∧
      TickLib.MIN_TICK ≤ 0 ∧ (0 : Int) ≤ TickLib.MAX_TICK ∧
      (0 : Int) < (empty.getNextTickGt 0 60).2 ∧ (empty.getNextTickGt 0 60).2 = 15300 :=
  ⟨by decide, by decide, by decide, by decide,
    (getNextTick_nearest empty (by decide : (0 : Int) < 60) (by decide)
      (by decide : TickLib.MIN_TICK ≤ 0) (by decide)).2.2.2.2.2.2.1, by decide +kernel⟩

/-- A `uint16` spacing above `MAX_TICK_SPACING` takes `toTick` out of `int24`: for spacing
`32769` and tick `-1`, `getNextTickLe` in the empty bitmap stops at the first compressed tick of
word `-1`, `-256`, whose tick `-256 * 32769` is below `-2 ^ 23`, so the checked multiplication
reverts. -/
theorem getNextTickLe_overflows_int24 :
    (empty.getNextTickLe (-1) 32769).2 = -8388864 ∧ ¬FitsInt24 (empty.getNextTickLe (-1) 32769).2 := by
  decide +kernel

end TickBitmap

end Angstrom.Contract
