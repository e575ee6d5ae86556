import Angstrom.Types.Orders
import Angstrom.Matching.Quantities

/-!
# The bundle's user orders

`crates/types/src/contract_payloads/angstrom/order.rs` and `AngstromBundle::apply_user_order`
(`angstrom/mod.rs`). `UserOrder` is what the node puts in the bundle for a filled user order;
`UserOrder.fromInternalOrder` builds it from the stored order and its outcome, and `applyUserOrder`
books the order's `(quantity_in, quantity_out)` with the asset builder from
`getQuantitiesAtPrice`.
-/

namespace Angstrom

open FixedPoint Contract

/-- `OrderQuantities`: the exact quantity, or the range and the filled amount of a partial order. -/
inductive OrderQuantities where
  | exact (quantity : Nat)
  | ranged (minQuantityIn maxQuantityIn filledQuantity : Nat)
  deriving DecidableEq, Repr

/-- `StandingValidation`. -/
structure StandingValidation where
  nonce : Nat
  deadline : Nat
  deriving DecidableEq, Repr

/-- `UserOrder`, in the field order that fixes its PADE encoding. -/
structure UserOrder where
  refId : Nat
  useInternal : Bool
  pairIndex : Nat
  minPrice : Nat
  recipient : Option Address
  hookData : Option (List UInt8)
  zeroForOne : Bool
  standingValidation : Option StandingValidation
  orderQuantities : OrderQuantities
  maxExtraFeeAsset0 : Nat
  extraFeeAsset0 : Nat
  exactIn : Bool
  signature : Signature
  deriving DecidableEq, Repr

namespace UserOrder

/-- The quantities, validation and recipient `from_internal_order` takes from the order variant. -/
def quantitiesOf (order : OrderWithStorageData) (outcome : OrderOutcome) : OrderQuantities :=
  match order.order.amounts with
  | .exact _ _ => .exact order.order.amount
  | .ranged min max => .ranged min max (outcome.outcome.fillAmount max)

def validationOf (order : OrderWithStorageData) : Option StandingValidation :=
  match order.order.validity with
  | .standing nonce deadline => some ⟨nonce, deadline⟩
  | .flash _ => none

/-- `UserOrder::from_internal_order_max_gas`: the order charged its stored gas, unchecked. -/
def fromInternalOrderMaxGas (order : OrderWithStorageData) (outcome : OrderOutcome)
    (pairIndex : Nat) : UserOrder where
  refId := 0
  useInternal := order.order.useInternal
  pairIndex := pairIndex
  minPrice := order.order.minPrice
  recipient := if order.order.recipient = 0 then none else some order.order.recipient
  hookData := if order.order.hookData.isEmpty then none else some order.order.hookData
  zeroForOne := !order.isBid
  standingValidation := validationOf order
  orderQuantities := quantitiesOf order outcome
  maxExtraFeeAsset0 := order.order.maxExtraFeeAsset0
  extraFeeAsset0 := order.gas
  exactIn := order.order.exactIn
  signature := order.order.signature

/-- `UserOrder::from_internal_order`: as above, but an error when the gas used exceeds the
order's maximum. -/
def fromInternalOrder (order : OrderWithStorageData) (outcome : OrderOutcome) (pairIndex : Nat) :
    Except String UserOrder :=
  if order.gas > order.order.maxExtraFeeAsset0 then .error "order used more gas than allocated"
  else .ok (fromInternalOrderMaxGas order outcome pairIndex)

end UserOrder

/-- The `(quantity_in, quantity_out)` that `apply_user_order` books for the result
`(t1, t0_net, t0_fee)` of `get_quantities_at_price`: a bid pays `t1` for `t0_net`, an ask pays
`t0_net + t0_fee + gas` (wrapping `u128` additions) for `t1`. -/
def bookedAmounts (isBid : Bool) (t1 t0Net t0Fee gas : Nat) : Nat × Nat :=
  if isBid then (t1, t0Net) else (wrapAdd 128 (wrapAdd 128 t0Net t0Fee) gas, t1)

/-- What `apply_user_order` records: the external swap it books with the asset builder, the fee it
returns, and the user order it pushes. -/
structure UserOrderBooking where
  tokenIn : Address
  tokenOut : Address
  quantityIn : Nat
  quantityOut : Nat
  t0Fee : Nat
  userOrder : UserOrder

/-- `AngstromBundle::apply_user_order`. The outer `Option` is a panic (an outcome that does not
belong to the order, a gas above `u128`, or a zero price in the quantity math); the inner `Except`
is the error of `from_internal_order`. -/
def applyUserOrder (outcome : OrderOutcome) (order : OrderWithStorageData) (ucp : Ray) (fee : Nat)
    (sharedGas : Option Nat) (pairIdx : Nat) : Option (Except String UserOrderBooking) := do
  if outcome.id ≠ order.orderId then none
  let fillAmount := outcome.outcome.fillAmount order.order.amount
  if 2 ^ 128 ≤ order.gas then none
  let gas := order.gas
  let (t1, t0Net, t0Fee) ←
    getQuantitiesAtPrice order.isBid order.order.exactIn fillAmount gas fee ucp
  let (quantityIn, quantityOut) := bookedAmounts order.isBid t1 t0Net t0Fee gas
  let userOrder : Except String UserOrder :=
    match sharedGas with
    | some _ => UserOrder.fromInternalOrder order outcome pairIdx
    | none => .ok (UserOrder.fromInternalOrderMaxGas order outcome pairIdx)
  return userOrder.map fun uo =>
    ⟨order.order.assetIn, order.order.assetOut, quantityIn, quantityOut, t0Fee, uo⟩

/-- `apply_user_order` for an outcome of the order, a gas that fits a `u128` and is within the
order's maximum: the booking of `get_quantities_at_price`'s result, with the order that
`from_internal_order` builds whether or not the gas is shared. -/
theorem applyUserOrder_eq {outcome : OrderOutcome} {order : OrderWithStorageData} (ucp : Ray)
    (fee : Nat) (sharedGas : Option Nat) (pairIdx : Nat) (hid : outcome.id = order.orderId)
    (hgas128 : order.gas < 2 ^ 128) (hgas : order.gas ≤ order.order.maxExtraFeeAsset0) :
    applyUserOrder outcome order ucp fee sharedGas pairIdx =
      (getQuantitiesAtPrice order.isBid order.order.exactIn
          (outcome.outcome.fillAmount order.order.amount) order.gas fee ucp).map fun r =>
        .ok ⟨order.order.assetIn, order.order.assetOut,
          (bookedAmounts order.isBid r.1 r.2.1 r.2.2 order.gas).1,
          (bookedAmounts order.isBid r.1 r.2.1 r.2.2 order.gas).2, r.2.2,
          UserOrder.fromInternalOrderMaxGas order outcome pairIdx⟩ := by
  have hmaxgas : (UserOrder.fromInternalOrder order outcome pairIdx : Except String UserOrder) =
      .ok (UserOrder.fromInternalOrderMaxGas order outcome pairIdx) := by
    rw [UserOrder.fromInternalOrder, if_neg (Nat.not_lt.2 hgas)]
  unfold applyUserOrder
  rw [if_neg (not_not.2 hid), if_neg (Nat.not_le.2 hgas128)]
  dsimp only
  cases getQuantitiesAtPrice order.isBid order.order.exactIn
      (outcome.outcome.fillAmount order.order.amount) order.gas fee ucp with
  | none => rfl
  | some r =>
    cases sharedGas with
    | none => rfl
    | some _ =>
      simp only [hmaxgas]
      rfl

end Angstrom
