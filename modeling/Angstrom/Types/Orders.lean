import Angstrom.Contract.Basic

/-!
# User orders as the node holds them

`crates/types/src/sol_bindings/rpc_orders.rs` defines four user-order structs (exact or partial
quantity, standing or flash validity) with the same remaining fields; here they are one
`LimitOrder` whose `amounts` and `validity` fields say which of the four it is:

| Rust type             | `amounts`                   | `validity`          |
|-----------------------|-----------------------------|---------------------|
| `ExactStandingOrder`  | `.exact exact_in amount`    | `.standing n d`     |
| `ExactFlashOrder`     | `.exact exact_in amount`    | `.flash b`          |
| `PartialStandingOrder`| `.ranged min_in max_in`     | `.standing n d`     |
| `PartialFlashOrder`   | `.ranged min_in max_in`     | `.flash b`          |

The accessors are the `RawPoolOrder` methods of `ext/grouped_orders.rs` and `ext/mod.rs`.
`OrderWithStorageData` keeps the fields of `grouped_orders.rs` that the matcher and the bundle
builder read; its `is_bid` field is always set from `RawPoolOrder::is_bid` (`grouped_orders.rs`,
`validation/.../pools/mod.rs`), so the model computes it.
-/

namespace Angstrom

open Contract

/-- `OrderFillState`. -/
inductive OrderFillState where
  | unfilled
  | completeFill
  | partialFill (volume : Nat)
  | killed
  deriving DecidableEq, Repr

namespace OrderFillState

def isFilled : OrderFillState → Bool
  | completeFill | partialFill _ => true
  | _ => false

/-- `OrderOutcome::fill_amount`: the quantity a fill state fills of an order of size `max`. -/
def fillAmount : OrderFillState → Nat → Nat
  | completeFill, max => max
  | partialFill p, max => min max p
  | _, _ => 0

theorem fillAmount_le (s : OrderFillState) (max : Nat) : s.fillAmount max ≤ max := by
  cases s <;> simp [fillAmount]

end OrderFillState

/-- An order's identity; the model keeps its hash. -/
abbrev OrderId := Nat

/-- `OrderOutcome`. -/
structure OrderOutcome where
  id : OrderId
  outcome : OrderFillState
  deriving DecidableEq, Repr

/-- `contract_payloads::Signature`. -/
inductive Signature where
  | contract (signer : Address) (signature : List UInt8)
  | ecdsa (v r s : Nat)
  deriving DecidableEq, Repr

/-- How a user order states its size. -/
inductive OrderAmounts where
  | exact (exactIn : Bool) (amount : Nat)
  | ranged (minAmountIn maxAmountIn : Nat)
  deriving DecidableEq, Repr

/-- How a user order avoids being replayed. -/
inductive OrderValidity where
  | standing (nonce deadline : Nat)
  | flash (validForBlock : Nat)
  deriving DecidableEq, Repr

/-- A user order (`AllOrders` less its top-of-block variant). -/
structure LimitOrder where
  refId : Nat
  amounts : OrderAmounts
  maxExtraFeeAsset0 : Nat
  minPrice : Nat
  useInternal : Bool
  assetIn : Address
  assetOut : Address
  recipient : Address
  hookData : List UInt8
  validity : OrderValidity
  /-- `meta.from`. -/
  signer : Address
  /-- `meta.signature`, already PADE-decoded (`order_signature`). -/
  signature : Signature
  deriving DecidableEq, Repr

namespace LimitOrder

variable (o : LimitOrder)

/-- `RawPoolOrder::amount`: the exact amount, or the maximum of a partial order. -/
def amount : Nat :=
  match o.amounts with
  | .exact _ a => a
  | .ranged _ max => max

def minAmount : Nat :=
  match o.amounts with
  | .exact _ a => a
  | .ranged min _ => min

def exactIn : Bool :=
  match o.amounts with
  | .exact e _ => e
  | .ranged _ _ => true

def isPartialType : Bool :=
  match o.amounts with
  | .exact _ _ => false
  | .ranged _ _ => true

/-- `RawPoolOrder::is_partial`: a partial order whose minimum is below its maximum. -/
def isPartial : Bool := decide (o.minAmount < o.amount)

def isBid : Bool := decide (o.assetOut < o.assetIn)

end LimitOrder

/-- `OrderWithStorageData<AllOrders>`, with the fields read by matching and bundle building. -/
structure OrderWithStorageData where
  order : LimitOrder
  orderId : OrderId
  /-- `priority_data.gas`: the gas charged to the order, in `t0`. -/
  gas : Nat
  deriving DecidableEq, Repr

def OrderWithStorageData.isBid (o : OrderWithStorageData) : Bool := o.order.isBid

end Angstrom
