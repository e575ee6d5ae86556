import Angstrom.Payload.UserOrderPade

/-!
# The bundle and its PADE encoding

`AngstromBundle` (`crates/types/src/contract_payloads/angstrom/mod.rs`) and the types of its
lists: `Asset` and `Pair` (`contract_payloads/mod.rs`), `PoolUpdate` and `RewardsUpdate`
(`contract_payloads/rewards.rs`), `TopOfBlockOrder` (`angstrom/tob.rs`) and `UserOrder`
(`Payload.UserOrder`). Each gets the encoding the PADE derive gives it (`pade`), built from the
combinators of `Lib.Pade`: the variant map of its enum fields in field order, then its fields; a
struct without enum fields has an empty map. `Fits` says that every field fits the width of its
Rust type and every list the three bytes of its length.
-/

namespace Angstrom

namespace Payload

open Contract

/-- `Asset`. -/
structure Asset where
  addr : Address
  save : Nat
  take : Nat
  settle : Nat
  deriving DecidableEq, Repr

/-- `Pair`. -/
structure Pair where
  index0 : Nat
  index1 : Nat
  storeIndex : Nat
  price1Over0 : Nat
  deriving DecidableEq, Repr

/-- `RewardsUpdate`. -/
inductive RewardsUpdate where
  | multiTick (startTick : Int) (startLiquidity : Nat) (quantities : List Nat)
      (rewardChecksum : Nat)
  | currentOnly (amount expectedLiquidity : Nat)
  deriving DecidableEq, Repr

/-- `PoolUpdate`. -/
structure PoolUpdate where
  zeroForOne : Bool
  pairIndex : Nat
  swapInQuantity : Nat
  rewardsUpdate : RewardsUpdate
  deriving DecidableEq, Repr

/-- `TopOfBlockOrder`. -/
structure TopOfBlockOrder where
  useInternal : Bool
  quantityIn : Nat
  quantityOut : Nat
  maxGasAsset0 : Nat
  gasUsedAsset0 : Nat
  pairsIndex : Nat
  zeroFor1 : Bool
  recipient : Option Address
  signature : Signature
  deriving DecidableEq, Repr

/-- `AngstromBundle`. -/
structure AngstromBundle where
  assets : List Asset
  pairs : List Pair
  poolUpdates : List PoolUpdate
  topOfBlockOrders : List TopOfBlockOrder
  userOrders : List UserOrder
  deriving DecidableEq, Repr

/-! ## Encodings -/

def Asset.pade (a : Asset) : List UInt8 :=
  Pade.uint 20 a.addr.val ++ Pade.uint 16 a.save ++ Pade.uint 16 a.take ++ Pade.uint 16 a.settle

def Pair.pade (p : Pair) : List UInt8 :=
  Pade.uint 2 p.index0 ++ Pade.uint 2 p.index1 ++ Pade.uint 2 p.storeIndex ++
    Pade.uint 32 p.price1Over0

def RewardsUpdate.isCurrentOnly : RewardsUpdate → Bool
  | .multiTick .. => false
  | .currentOnly .. => true

def RewardsUpdate.pade : RewardsUpdate → List UInt8
  | .multiTick startTick startLiquidity quantities rewardChecksum =>
    Pade.int 3 startTick ++ Pade.uint 16 startLiquidity ++
      Pade.list (quantities.map (Pade.uint 16)) ++ Pade.uint 20 rewardChecksum
  | .currentOnly amount expectedLiquidity => Pade.uint 16 amount ++ Pade.uint 16 expectedLiquidity

def PoolUpdate.pade (u : PoolUpdate) : List UInt8 :=
  Pade.variantMap [u.zeroForOne, u.rewardsUpdate.isCurrentOnly] ++ Pade.uint 2 u.pairIndex ++
    Pade.uint 16 u.swapInQuantity ++ u.rewardsUpdate.pade

def TopOfBlockOrder.pade (t : TopOfBlockOrder) : List UInt8 :=
  Pade.variantMap [t.useInternal, t.zeroFor1, t.recipient.isSome, t.signature.isEcdsa] ++
    Pade.uint 16 t.quantityIn ++ Pade.uint 16 t.quantityOut ++ Pade.uint 16 t.maxGasAsset0 ++
    Pade.uint 16 t.gasUsedAsset0 ++ Pade.uint 2 t.pairsIndex ++
    Pade.option (fun a : Address => Pade.uint 20 a.val) t.recipient ++ t.signature.pade

def AngstromBundle.pade (b : AngstromBundle) : List UInt8 :=
  Pade.list (b.assets.map Asset.pade) ++ Pade.list (b.pairs.map Pair.pade) ++
    Pade.list (b.poolUpdates.map PoolUpdate.pade) ++
    Pade.list (b.topOfBlockOrders.map TopOfBlockOrder.pade) ++
    Pade.list (b.userOrders.map UserOrder.pade)

/-! ## Fields that fit their widths -/

def Asset.Fits (a : Asset) : Prop := a.save < 2 ^ 128 ∧ a.take < 2 ^ 128 ∧ a.settle < 2 ^ 128

def Pair.Fits (p : Pair) : Prop :=
  p.index0 < 2 ^ 16 ∧ p.index1 < 2 ^ 16 ∧ p.storeIndex < 2 ^ 16 ∧ p.price1Over0 < 2 ^ 256

def RewardsUpdate.Fits : RewardsUpdate → Prop
  | .multiTick startTick startLiquidity quantities rewardChecksum =>
    -2 ^ 23 ≤ startTick ∧ startTick < 2 ^ 23 ∧ startLiquidity < 2 ^ 128 ∧
      (∀ q ∈ quantities, q < 2 ^ 128) ∧ Pade.ListFits (quantities.map (Pade.uint 16)) ∧
      rewardChecksum < 2 ^ 160
  | .currentOnly amount expectedLiquidity => amount < 2 ^ 128 ∧ expectedLiquidity < 2 ^ 128

def PoolUpdate.Fits (u : PoolUpdate) : Prop :=
  u.pairIndex < 2 ^ 16 ∧ u.swapInQuantity < 2 ^ 128 ∧ u.rewardsUpdate.Fits

def TopOfBlockOrder.Fits (t : TopOfBlockOrder) : Prop :=
  t.quantityIn < 2 ^ 128 ∧ t.quantityOut < 2 ^ 128 ∧ t.maxGasAsset0 < 2 ^ 128 ∧
    t.gasUsedAsset0 < 2 ^ 128 ∧ t.pairsIndex < 2 ^ 16 ∧ t.signature.Fits

/-- Every item of the bundle fits its widths, and every list its length. -/
structure AngstromBundle.Fits (b : AngstromBundle) : Prop where
  assets : ∀ a ∈ b.assets, a.Fits
  pairs : ∀ p ∈ b.pairs, p.Fits
  poolUpdates : ∀ u ∈ b.poolUpdates, u.Fits
  topOfBlockOrders : ∀ t ∈ b.topOfBlockOrders, t.Fits
  userOrders : ∀ uo ∈ b.userOrders, uo.Fits
  assetsLength : Pade.ListFits (b.assets.map Asset.pade)
  pairsLength : Pade.ListFits (b.pairs.map Pair.pade)
  poolUpdatesLength : Pade.ListFits (b.poolUpdates.map PoolUpdate.pade)
  topOfBlockOrdersLength : Pade.ListFits (b.topOfBlockOrders.map TopOfBlockOrder.pade)
  userOrdersLength : Pade.ListFits (b.userOrders.map UserOrder.pade)

/-- The amounts of a rewards update are as many as the contract's reward loop reads when it
crosses `crossed` initialized ticks after the start tick: one per tick it rewards, and one for
the current tick. -/
def RewardsUpdate.ListsTicks (crossed : Nat) : RewardsUpdate → Prop
  | .multiTick _ _ quantities _ => quantities.length = crossed + 2
  | .currentOnly _ _ => True

/-! ## Lengths -/

@[simp] theorem Asset.length_pade (a : Asset) : a.pade.length = 68 := by
  simp [Asset.pade]

@[simp] theorem Pair.length_pade (p : Pair) : p.pade.length = 38 := by
  simp [Pair.pade]

theorem PoolUpdate.pade_ne_nil (u : PoolUpdate) : u.pade ≠ [] := by
  simp [PoolUpdate.pade, Pade.variantMap_eq_singleton]

theorem TopOfBlockOrder.pade_ne_nil (t : TopOfBlockOrder) : t.pade ≠ [] := by
  simp [TopOfBlockOrder.pade, Pade.variantMap_eq_singleton]

end Payload

end Angstrom
