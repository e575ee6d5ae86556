import Angstrom.Types.Ray

/-!
# `get_quantities_at_price`

`crates/types/src/matching/math/mod.rs`. The node's accounting of one user order filled at the
uniform clearing price `ray_ucp` (`t1 / t0`): for each of the four order shapes it returns
`(t1, t0_net, t0_fee)`, the `t1` moved, the `t0` that reaches or leaves the order net of fee and
gas, and the `t0` the contract keeps as fee. `u128` arithmetic is modelled as it runs in a release
build: `saturating_sub` is truncated subtraction, `+` wraps (`wrapAdd 128`), and the `Ray`
conversions clamp. A zero divisor in a `Ray` conversion panics, so the result is an `Option`.
-/

namespace Angstrom

open FixedPoint

/-- `get_quantities_at_price(is_bid, exact_in, fill_amount, gas, fee, ray_ucp)`. -/
def getQuantitiesAtPrice (isBid exactIn : Bool) (fillAmount gas fee : Nat) (rayUcp : Ray) :
    Option (Nat × Nat × Nat) :=
  match isBid, exactIn with
  | true, true =>
    -- exact-in bid: `fill_amount` of `t1` in, `t0` out at the inverted price less fee and gas
    let bidPrice := rayUcp.invRay
    let bidFeePrice := bidPrice.scaleToFee fee
    let exchangedT0 := bidPrice.quantity fillAmount false
    let netT0 := bidFeePrice.quantity fillAmount false
    let contractT0 := exchangedT0 - netT0
    some (fillAmount, netT0 - gas, contractT0)
  | true, false => do
    -- exact-out bid: the `t1` that buys `fill_amount + gas` of `t0` at the fee price
    let bidPrice := rayUcp.invRay
    let bidFeePrice := bidPrice.scaleToFee fee
    let t1Required ← bidFeePrice.inverseQuantity (wrapAdd 128 fillAmount gas) true
    let totalT0Purchased := bidPrice.quantity t1Required false
    let contractT0 := totalT0Purchased - wrapAdd 128 fillAmount gas
    return (t1Required, fillAmount, contractT0)
  | false, true => do
    -- exact-in ask: `fill_amount` of `t0` in, gas first, then `t1` out at the fee price
    let askFeePrice := rayUcp.scaleToFee fee
    let netT1Out := askFeePrice.quantity (fillAmount - gas) false
    let netT0Sold ← rayUcp.inverseQuantity netT1Out true
    let contractT0 := fillAmount - gas - netT0Sold
    return (netT1Out, netT0Sold, contractT0)
  | false, false => do
    -- exact-out ask: the `t0` that buys `fill_amount` of `t1` at the fee price, plus gas
    let askFeePrice := rayUcp.scaleToFee fee
    let totalT0Input := wrapAdd 128 (← askFeePrice.inverseQuantity fillAmount true) gas
    let netT0 ← rayUcp.inverseQuantity fillAmount true
    let contractFee := totalT0Input - gas - netT0
    return (fillAmount, netT0, contractFee)

end Angstrom
