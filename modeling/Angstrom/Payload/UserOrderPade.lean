import Angstrom.Payload.UserOrder
import Angstrom.Contract.UserOrderBuffer
import Angstrom.Lib.BitPack
import Angstrom.Lib.Pade

/-!
# The PADE form of a user order's variant byte and quantities

`contracts/docs/pade-encoding-format.md`: a struct is encoded as the variants of its enum fields
(`bool`, `Option`, `OrderQuantities`, `Signature`), one bit each, least significant first in
field order, followed by the fields. For `UserOrder` the eight variant bits fill one byte, and
`UserOrderVariantMap` reads them back with one mask per field (`variantMap_zeroForOne` and its
siblings, all from `BitPack.testBit_pack`).

The quantity fields are three or one `u128`s followed by the two gas fields;
`loadAndComputeQuantity_quantitySection` says that the contract reads them back and is left with
`quantityInOut`.

`UserOrder.pade` is the whole encoded order, and `UserOrder.Fits` says that each field fits the
width it is encoded in: the width of its Rust type, except `deadline`, a `u64` that
`#[pade_width(5)]` encodes in five bytes.
-/

namespace Angstrom

open Contract Bytes

def OrderQuantities.isRanged : OrderQuantities → Bool
  | .exact _ => false
  | .ranged _ _ _ => true

def Signature.isEcdsa : Signature → Bool
  | .contract _ _ => false
  | .ecdsa _ _ _ => true

def OrderQuantities.fields : OrderQuantities → List Nat
  | .exact q => [q]
  | .ranged min max filled => [min, max, filled]

/-- The quantity the contract reads as `quantity`: the exact amount or the filled amount. -/
def OrderQuantities.specified : OrderQuantities → Nat
  | .exact q => q
  | .ranged _ _ filled => filled

/-- The `u128` fields of `OrderQuantities` fit their type, and a partial fill lies in its range,
as `loadAndComputeQuantity` requires. -/
def OrderQuantities.Valid : OrderQuantities → Prop
  | .exact q => q < 2 ^ 128
  | .ranged min max filled => min < 2 ^ 128 ∧ max < 2 ^ 128 ∧ min ≤ filled ∧ filled ≤ max

instance : DecidablePred OrderQuantities.Valid
  | .exact q => inferInstanceAs (Decidable (q < 2 ^ 128))
  | .ranged _ _ _ => inferInstanceAs (Decidable (_ ∧ _ ∧ _ ∧ _))

namespace UserOrder

variable (uo : UserOrder)

def variantFlags : List Bool :=
  [uo.useInternal, uo.recipient.isSome, uo.hookData.isSome, uo.zeroForOne,
    uo.standingValidation.isSome, uo.orderQuantities.isRanged, uo.exactIn, uo.signature.isEcdsa]

def variantMap : UserOrderVariantMap := ⟨BitPack.pack uo.variantFlags⟩

def quantitySection : List UInt8 :=
  ((uo.orderQuantities.fields ++ [uo.maxExtraFeeAsset0, uo.extraFeeAsset0]).map (toBE 16)).flatten

theorem variantMap_bit (i : Nat) :
    (uo.variantMap.byte &&& 2 ^ i != 0) = uo.variantFlags.getD i false :=
  BitPack.and_two_pow_pack uo.variantFlags i

@[simp] theorem variantMap_useInternal : uo.variantMap.useInternal = uo.useInternal :=
  uo.variantMap_bit 0

@[simp] theorem variantMap_recipientIsSome :
    uo.variantMap.recipientIsSome = uo.recipient.isSome :=
  uo.variantMap_bit 1

@[simp] theorem variantMap_noHook : uo.variantMap.noHook = !uo.hookData.isSome := by
  rw [← show (uo.variantMap.byte &&& 2 ^ 2 != 0) = uo.hookData.isSome from uo.variantMap_bit 2]
  simp [UserOrderVariantMap.noHook, UserOrderVariantMap.HAS_HOOK_BIT, bne]

@[simp] theorem variantMap_isStanding :
    uo.variantMap.isStanding = uo.standingValidation.isSome :=
  uo.variantMap_bit 4

@[simp] theorem variantMap_isEcdsa : uo.variantMap.isEcdsa = uo.signature.isEcdsa :=
  uo.variantMap_bit 7

@[simp] theorem variantMap_zeroForOne : uo.variantMap.zeroForOne = uo.zeroForOne :=
  uo.variantMap_bit 3

@[simp] theorem variantMap_quantitiesPartial :
    uo.variantMap.quantitiesPartial = uo.orderQuantities.isRanged :=
  uo.variantMap_bit 5

@[simp] theorem variantMap_exactIn : uo.variantMap.exactIn = uo.exactIn :=
  uo.variantMap_bit 6

@[simp] theorem variantMap_specifyingInput :
    uo.variantMap.specifyingInput = (uo.orderQuantities.isRanged || uo.exactIn) := by
  rw [UserOrderVariantMap.specifyingInput_eq, variantMap_quantitiesPartial, variantMap_exactIn]

/-! The quantities `from_internal_order` encodes for a fill of at least the order's minimum. -/

section FromInternalOrder

variable (order : OrderWithStorageData) (outcome : OrderOutcome)

theorem quantitiesOf_specified
    (hmin : order.order.minAmount ≤ outcome.outcome.fillAmount order.order.amount) :
    (quantitiesOf order outcome).specified = outcome.outcome.fillAmount order.order.amount := by
  have hle := outcome.outcome.fillAmount_le order.order.amount
  unfold quantitiesOf
  cases h : order.order.amounts with
  | exact e a =>
    simp only [LimitOrder.amount, LimitOrder.minAmount, h] at hmin hle ⊢
    simp only [OrderQuantities.specified]
    omega
  | ranged min max => simp [OrderQuantities.specified, LimitOrder.amount, h]

theorem quantitiesOf_valid (hamount : order.order.amount < 2 ^ 128)
    (hmin : order.order.minAmount ≤ outcome.outcome.fillAmount order.order.amount) :
    (quantitiesOf order outcome).Valid := by
  have hle := outcome.outcome.fillAmount_le order.order.amount
  unfold quantitiesOf
  cases h : order.order.amounts with
  | exact e a => simpa [OrderQuantities.Valid, LimitOrder.amount, h] using hamount
  | ranged min max =>
    simp only [LimitOrder.amount, LimitOrder.minAmount, h] at hamount hmin hle
    simp only [OrderQuantities.Valid]
    omega

theorem isRanged_quantitiesOf_or :
    ((quantitiesOf order outcome).isRanged || order.order.exactIn) = order.order.exactIn := by
  unfold quantitiesOf
  cases h : order.order.amounts <;> simp [OrderQuantities.isRanged, LimitOrder.exactIn, h]

end FromInternalOrder

end UserOrder

/-- The contract reads back the quantity section of a user order: after the reads and checks,
`loadAndComputeQuantity` is `quantityInOut` on the specified quantity and the gas. -/
theorem loadAndComputeQuantity_quantitySection (self : UserOrderBuffer) (uo : UserOrder)
    (price : Nat) (back : Calldata) (hq : uo.orderQuantities.Valid)
    (hfee : uo.maxExtraFeeAsset0 < 2 ^ 128) (hgas : uo.extraFeeAsset0 ≤ uo.maxExtraFeeAsset0) :
    (loadAndComputeQuantity self (uo.quantitySection ++ back) 0 uo.variantMap price).map
        (fun r => r.2.2) =
      quantityInOut uo.variantMap uo.orderQuantities.specified uo.extraFeeAsset0 price := by
  have hg : uo.extraFeeAsset0 < 2 ^ 128 := lt_of_le_of_lt hgas hfee
  have hle : ¬ uo.extraFeeAsset0 > uo.maxExtraFeeAsset0 := by omega
  have read (i : Nat) (hi : i < (uo.orderQuantities.fields ++
      [uo.maxExtraFeeAsset0, uo.extraFeeAsset0]).length) (hv : _ < 2 ^ 128) :
      readU128 (uo.quantitySection ++ back) (16 * i) = (16 * i + 16, _) :=
    readUint_flatten (by omega) _ back hi (by simpa using hv)
  unfold loadAndComputeQuantity
  rw [UserOrder.variantMap_quantitiesPartial]
  cases hoq : uo.orderQuantities with
  | exact q =>
    simp only [hoq, OrderQuantities.Valid] at hq
    simp only [hoq, OrderQuantities.fields] at read
    have r0 := read 0 (by simp) hq
    have r1 := read 1 (by simp) hfee
    have r2 := read 2 (by simp) hg
    simp only [List.getElem_cons_zero, List.getElem_cons_succ, List.cons_append,
      List.nil_append, Nat.reduceMul, Nat.reduceAdd] at r0 r1 r2
    simp [r0, r1, r2, hle, OrderQuantities.isRanged, OrderQuantities.specified]
    cases quantityInOut uo.variantMap q uo.extraFeeAsset0 price <;> rfl
  | ranged min max filled =>
    simp only [hoq, OrderQuantities.Valid] at hq
    obtain ⟨hmin, hmax, hlo, hhi⟩ := hq
    simp only [hoq, OrderQuantities.fields] at read
    have r0 := read 0 (by simp) hmin
    have r1 := read 1 (by simp) hmax
    have r2 := read 2 (by simp) (lt_of_le_of_lt hhi hmax)
    have r3 := read 3 (by simp) hfee
    have r4 := read 4 (by simp) hg
    simp only [List.getElem_cons_zero, List.getElem_cons_succ, List.cons_append,
      List.nil_append, Nat.reduceMul, Nat.reduceAdd] at r0 r1 r2 r3 r4
    have hlo' : ¬ filled < min := by omega
    have hhi' : ¬ filled > max := by omega
    simp [r0, r1, r2, r3, r4, hle, hlo', hhi', OrderQuantities.isRanged, OrderQuantities.specified]
    cases quantityInOut uo.variantMap filled uo.extraFeeAsset0 price <;> rfl

/-! ## The encoded order -/

def Signature.pade : Signature → List UInt8
  | .contract signer signature => Pade.uint 20 signer.val ++ Pade.bytes signature
  | .ecdsa v r s => Pade.uint 1 v ++ Pade.uint 32 r ++ Pade.uint 32 s

def Signature.Fits : Signature → Prop
  | .contract _ signature => signature.length < 256 ^ 3
  | .ecdsa v r s => v < 2 ^ 8 ∧ r < 2 ^ 256 ∧ s < 2 ^ 256

def StandingValidation.pade (sv : StandingValidation) : List UInt8 :=
  Pade.uint 8 sv.nonce ++ Pade.uint 5 sv.deadline

def StandingValidation.Fits (sv : StandingValidation) : Prop :=
  sv.nonce < 2 ^ 64 ∧ sv.deadline < 2 ^ 40

def OrderQuantities.Fits (q : OrderQuantities) : Prop := ∀ x ∈ q.fields, x < 2 ^ 128

namespace UserOrder

variable (uo : UserOrder)

/-- The PADE encoding of a `UserOrder`: the variant byte, then the fields in order, an enum field
by its inner value. -/
def pade : List UInt8 :=
  Pade.variantMap uo.variantFlags ++ Pade.uint 4 uo.refId ++ Pade.uint 2 uo.pairIndex ++
    Pade.uint 32 uo.minPrice ++ Pade.option (fun a : Address => Pade.uint 20 a.val) uo.recipient ++
    Pade.option Pade.bytes uo.hookData ++
    Pade.option StandingValidation.pade uo.standingValidation ++ uo.quantitySection ++
    uo.signature.pade

/-- Every field of the order fits the width it is encoded in. -/
structure Fits : Prop where
  refId : uo.refId < 2 ^ 32
  pairIndex : uo.pairIndex < 2 ^ 16
  minPrice : uo.minPrice < 2 ^ 256
  hookData : ∀ bs ∈ uo.hookData, bs.length < 256 ^ 3
  standingValidation : ∀ sv ∈ uo.standingValidation, sv.Fits
  orderQuantities : uo.orderQuantities.Fits
  maxExtraFeeAsset0 : uo.maxExtraFeeAsset0 < 2 ^ 128
  extraFeeAsset0 : uo.extraFeeAsset0 < 2 ^ 128
  signature : uo.signature.Fits

theorem pade_ne_nil : uo.pade ≠ [] := by
  simp [pade, Pade.variantMap_eq_singleton (show 0 < uo.variantFlags.length by simp [variantFlags])
    (by simp [variantFlags])]

end UserOrder

end Angstrom
