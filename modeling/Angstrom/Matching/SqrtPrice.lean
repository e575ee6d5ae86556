import Angstrom.Matching.DeltaMatcher

/-!
# Square-root prices and rays

`crates/types/src/matching/sqrtprice.rs` and `crates/types/src/sol_bindings/ray.rs`. A Uniswap
`SqrtPriceX96` is the square root of a price in `Q64.96`, a `Ray` the price itself scaled by
`10 ^ 27`. `SqrtPriceX96::from(Ray)` scales the ray to `Q128.192` rounding up and takes the
ceiling square root, which must fit in 160 bits; `Ray::from(SqrtPriceX96)` squares, scales to
`10 ^ 27` and rounds down (`rayOfSqrtPrice`).

Rounding up one way and down the other makes the two a Galois connection on the natural numbers
(`gc_sqrtPrice`): a ray is at most the ray of its square-root price, both conversions are
monotone, and a ray that went there and back converts to the same square-root price again, so
the round trip from rays is idempotent. The other round trip is not: the square-root price `1`
is the ray `0`, whose square-root price is `0`.
-/

namespace Angstrom.Matching

open FixedPoint

/-- `SqrtPriceX96::from(Ray)` before the conversion to `U160`: `ceiling_root(2)` of
`ray * 2 ^ 192 / 10 ^ 27` rounded up. -/
def sqrtPriceCeil (ray : Nat) : Nat := ceilSqrt ((ray * 2 ^ 192) ⌈/⌉ const1e27)

/-- `SqrtPriceX96::from(Ray)`: `Uint::from_limbs_slice` panics on a root of more than 160
bits. -/
def sqrtPriceX96OfRay (r : Ray) : Option Nat :=
  let root := sqrtPriceCeil r.val
  if root < 2 ^ 160 then some root else none

def rayOfSqrtPriceX96 (sqrtPriceX96 : Nat) : Option Ray := Ray.ofNatural (rayOfSqrtPrice sqrtPriceX96)

def rayRoundTrip (r : Ray) : Option Ray := (sqrtPriceX96OfRay r).bind rayOfSqrtPriceX96

theorem gc_sqrtPrice : GaloisConnection sqrtPriceCeil rayOfSqrtPrice :=
  (@gc_mul_ceilDiv (2 ^ 192) const1e27 (Nat.two_pow_pos 192) (by decide)).compose
    gc_ceilSqrt

theorem sqrtPriceX96OfRay_eq_some {r : Ray} {s : Nat} :
    sqrtPriceX96OfRay r = some s ↔ sqrtPriceCeil r.val = s ∧ s < 2 ^ 160 := by
  unfold sqrtPriceX96OfRay
  dsimp only
  split_ifs with h
  · simp only [Option.some.injEq]
    constructor
    · rintro rfl
      exact ⟨rfl, h⟩
    · rintro ⟨rfl, -⟩
      rfl
  · simp only [false_iff, not_and]
    rintro rfl
    exact h

theorem rayOfSqrtPriceX96_val {s : Nat} (hs : s < 2 ^ 160) :
    ∃ r : Ray, rayOfSqrtPriceX96 s = some r ∧ r.val = rayOfSqrtPrice s := by
  have hsq : s * s * const1e27 < 2 ^ 160 * 2 ^ 160 * const1e27 :=
    Nat.mul_lt_mul_of_pos_right (Nat.mul_self_lt_mul_self hs) (by decide)
  have hlt : rayOfSqrtPrice s < 2 ^ 256 := by
    unfold rayOfSqrtPrice
    apply Nat.div_lt_of_lt_mul
    calc s * s * const1e27 < 2 ^ 160 * 2 ^ 160 * const1e27 := hsq
      _ ≤ 2 ^ 192 * 2 ^ 256 := by decide
  exact ⟨⟨_, hlt⟩, by rw [rayOfSqrtPriceX96, Ray.ofNatural, dif_pos hlt], rfl⟩

theorem sqrtPriceX96OfRay_roundTrip {r : Ray} {s : Nat} (h : sqrtPriceX96OfRay r = some s) :
    ∃ r' : Ray, rayOfSqrtPriceX96 s = some r' ∧ r.val ≤ r'.val ∧ sqrtPriceX96OfRay r' = some s := by
  obtain ⟨rfl, hs⟩ := sqrtPriceX96OfRay_eq_some.1 h
  obtain ⟨r', hr', hval⟩ := rayOfSqrtPriceX96_val hs
  refine ⟨r', hr', hval ▸ gc_sqrtPrice.le_u_l r.val, sqrtPriceX96OfRay_eq_some.2 ⟨?_, hs⟩⟩
  rw [hval]
  exact gc_sqrtPrice.l_u_l_eq_l r.val

theorem rayRoundTrip_idem {r r' : Ray} (h : rayRoundTrip r = some r') :
    rayRoundTrip r' = some r' := by
  obtain ⟨s, hs, hr'⟩ := Option.bind_eq_some_iff.1 h
  obtain ⟨r'', hr'', -, hback⟩ := sqrtPriceX96OfRay_roundTrip hs
  rw [hr'] at hr''
  cases hr''
  rw [rayRoundTrip, hback, Option.bind_some, hr']

theorem sqrtPriceX96OfRay_mono {r₁ r₂ : Ray} {s₂ : Nat} (hle : r₁.val ≤ r₂.val)
    (h₂ : sqrtPriceX96OfRay r₂ = some s₂) :
    ∃ s₁, sqrtPriceX96OfRay r₁ = some s₁ ∧ s₁ ≤ s₂ := by
  obtain ⟨rfl, hs₂⟩ := sqrtPriceX96OfRay_eq_some.1 h₂
  have hmono : sqrtPriceCeil r₁.val ≤ sqrtPriceCeil r₂.val := gc_sqrtPrice.monotone_l hle
  exact ⟨_, sqrtPriceX96OfRay_eq_some.2 ⟨rfl, lt_of_le_of_lt hmono hs₂⟩, hmono⟩

/-- A ray whose ceiling root fits in 160 bits converts to it. The conversions between rays and
square-root prices round in opposite directions, so that a ray's square-root price, converted
back, is at least the ray and converts to the same square-root price again; the round trip from
rays is idempotent and both conversions are monotone. The other round trip loses small prices:
the square-root price `1` is the ray `0`, whose square-root price is `0`. -/
theorem sqrtPrice_ray_galois :
    (∀ r : Ray, sqrtPriceCeil r.val < 2 ^ 160 → sqrtPriceX96OfRay r = some (sqrtPriceCeil r.val)) ∧
    (∀ (r : Ray) (s : Nat), sqrtPriceX96OfRay r = some s →
      ∃ r' : Ray, rayOfSqrtPriceX96 s = some r' ∧ r.val ≤ r'.val ∧
        sqrtPriceX96OfRay r' = some s) ∧
    (∀ r r' : Ray, rayRoundTrip r = some r' → rayRoundTrip r' = some r') ∧
    (∀ (r₁ r₂ : Ray) (s₂ : Nat), r₁.val ≤ r₂.val → sqrtPriceX96OfRay r₂ = some s₂ →
      ∃ s₁, sqrtPriceX96OfRay r₁ = some s₁ ∧ s₁ ≤ s₂) ∧
    Monotone rayOfSqrtPrice ∧
    rayOfSqrtPrice 1 = 0 ∧ sqrtPriceCeil 0 = 0 :=
  ⟨fun _ h => sqrtPriceX96OfRay_eq_some.2 ⟨rfl, h⟩, fun _ _ => sqrtPriceX96OfRay_roundTrip,
    fun _ _ => rayRoundTrip_idem,
    fun _ _ _ => sqrtPriceX96OfRay_mono, gc_sqrtPrice.monotone_u, by decide, by decide⟩

end Angstrom.Matching
