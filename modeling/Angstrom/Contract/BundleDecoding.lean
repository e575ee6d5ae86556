import Angstrom.Contract.UserOrderBuffer
import Angstrom.Payload.Bundle

/-!
# What `unlockCallback` reads of a bundle

`Angstrom.unlockCallback` decodes the bundle while it executes it, with a `CalldataReader` moved by
hand-written decoders: `AssetLib.readFromAndValidate`, `PairLib.readFromAndValidate`,
`PoolUpdates._updatePools` with `GrowthOutsideUpdater._decodeAndReward`, and the order loops of
`Angstrom.sol` with `UserOrderBufferLib`, `HookBufferLib` and `SignatureLib`. Each function here
is the sequence of reads of one of them, in its order and widths, with the variant bits choosing
the branches as in the source; it returns the reader and the values read, collected in the
bundle's Rust types so that they can be compared with what the node encoded.

The checks between the reads (asset and pair order, bounds of `get`, the store lookup, gas and
limit checks, signatures, nonces) read nothing that these functions do not read and never move
the reader; they are left out of the reads. The order checks of the asset and pair lists are
stated on the values read (`AssetLib.validate`, `PairLib.validate`). Two reads depend on more
than the calldata:

* the reward loops of `_rewardBelow` and `_rewardAbove` read one amount at the start tick and one
  at each initialized tick they then cross on the way to the current tick, a number that the
  pool's ticks decide. The reads take it as `crossed`, per pool update of the bundle;
* the list loops `while (reader != end)` run until the reader hits the list's end exactly. They
  are `Pade.readUntil`, with one round per byte of the list as fuel: every item moves the reader
  by at least its variant byte, so a loop that needs more rounds has passed the end and never
  stops (`Revert.outOfGas`).
-/

namespace Angstrom.Contract

open Bytes Payload

def requireAtEndOf (self stop : CalldataReader) : Except Revert Unit :=
  if self ≠ stop then throw .readerNotAtEnd else pure ()

def toAddress (v : Nat) : Address := Fin.ofNat _ v

/-! ## Variant maps -/

/-- `ToBOrderVariantMap`. -/
structure ToBOrderVariantMap where
  byte : Nat
  deriving DecidableEq, Repr

namespace ToBOrderVariantMap

def USE_INTERNAL_BIT : Nat := 0x01
def ZERO_FOR_ONE_BIT : Nat := 0x02
def HAS_RECIPIENT_BIT : Nat := 0x04
def IS_ECDSA_BIT : Nat := 0x08

variable (variant : ToBOrderVariantMap)

def useInternal : Bool := variant.byte &&& USE_INTERNAL_BIT != 0
def zeroForOne : Bool := variant.byte &&& ZERO_FOR_ONE_BIT != 0
def recipientIsSome : Bool := variant.byte &&& HAS_RECIPIENT_BIT != 0
def isEcdsa : Bool := variant.byte &&& IS_ECDSA_BIT != 0

end ToBOrderVariantMap

/-- `PoolUpdateVariantMap`. -/
structure PoolUpdateVariantMap where
  byte : Nat
  deriving DecidableEq, Repr

namespace PoolUpdateVariantMap

def ZERO_FOR_ONE_FLAG : Nat := 0x01
def CURRENT_ONLY_FLAG : Nat := 0x02

variable (variant : PoolUpdateVariantMap)

def zeroForOne : Bool := variant.byte &&& ZERO_FOR_ONE_FLAG != 0
def currentOnly : Bool := variant.byte &&& CURRENT_ONLY_FLAG != 0

end PoolUpdateVariantMap

/-! ## Assets and pairs -/

namespace AssetLib

def ASSET_CD_BYTES : Nat := 68
def ADDR_OFFSET : Nat := 0
def SAVE_OFFSET : Nat := 20
def TAKE_OFFSET : Nat := 36
def SETTLE_OFFSET : Nat := 52

/-- The accessors `addr`, `save`, `take` and `settle` of the asset at `self`. -/
def read (cd : Calldata) (self : Nat) : Asset :=
  ⟨toAddress (readAddr cd (self + ADDR_OFFSET)).2, (readU128 cd (self + SAVE_OFFSET)).2,
    (readU128 cd (self + TAKE_OFFSET)).2, (readU128 cd (self + SETTLE_OFFSET)).2⟩

/-- The reads of `readFromAndValidate`: the list's end, returned as the new reader, and the
assets of the array, the `i`-th at `offset + i * ASSET_CD_BYTES` (`getUnchecked`). -/
def readAssets (cd : Calldata) (reader : CalldataReader) : CalldataReader × List Asset :=
  let (reader, stop) := readU24End cd reader
  let length := (stop - reader) / ASSET_CD_BYTES
  (stop, (List.range length).map fun i => read cd (reader + i * ASSET_CD_BYTES))

/-- The check of `readFromAndValidate`: each address above the one before it, the first above
zero. -/
def validate : List Address → Nat → Except Revert Unit
  | [], _ => pure ()
  | newAddr :: rest, lastAddr =>
    if newAddr.val ≤ lastAddr then throw .assetsOutOfOrderOrNotUnique else validate rest newAddr.val

def get (assets : List Address) (index : Nat) : Except Revert Address :=
  match assets[index]? with
  | some asset => pure asset
  | none => throw (.assetAccessOutOfBounds index assets.length)

theorem get_eq_ok {assets : List Address} {index : Nat} {asset : Address} :
    get assets index = .ok asset ↔ assets[index]? = some asset := by
  cases h : assets[index]? <;> simp [get, h]

theorem validate_eq_ok_iff {l : List Address} {lastAddr : Nat} :
    validate l lastAddr = .ok () ↔ (lastAddr :: l.map Fin.val).Pairwise (· < ·) := by
  rw [← List.isChain_iff_pairwise]
  induction l generalizing lastAddr with
  | nil => simp [validate]
  | cons a l ih =>
    rw [validate, List.map_cons, List.isChain_cons_cons, ← ih]
    by_cases h : a.val ≤ lastAddr
    · rw [if_pos h]
      simp only [Checked.throw_ne_ok, false_iff, not_and]
      intro hlt
      omega
    · rw [if_neg h]
      exact ⟨fun hv => ⟨by omega, hv⟩, fun hv => hv.2⟩

end AssetLib

namespace PairLib

def PAIR_CD_BYTES : Nat := 38
def INDEX_A_OFFSET : Nat := 16
def INDEX_B_MASK : Nat := 0xffff

/-- One round of the loop of `readFromAndValidate`: the asset indices as one `u32`, the store
index and the price. -/
def readPair (cd : Calldata) (reader : CalldataReader) : CalldataReader × Payload.Pair :=
  let (reader, indices) := readU32 cd reader
  let (reader, storeIndex) := readU16 cd reader
  let (reader, price1Over0) := readU256 cd reader
  (reader, ⟨indices >>> INDEX_A_OFFSET, indices &&& INDEX_B_MASK, storeIndex, price1Over0⟩)

/-- The reads of `readFromAndValidate`: one pair per `PAIR_CD_BYTES` of the list; the list's end
is the new reader. -/
def readPairs (cd : Calldata) (reader : CalldataReader) : CalldataReader × List Payload.Pair :=
  let (reader, stop) := readU24End cd reader
  let length := (stop - reader) / PAIR_CD_BYTES
  (stop, (Pade.readCount (readPair cd) length reader).2)

/-- The checks of `readFromAndValidate` on the pairs read: the `u32` of the two indices above the
one before it (the first above zero), both indices inside the asset array, and the first asset's
address below the second's. -/
def validate (assets : List Address) : List Payload.Pair → Nat → Except Revert Unit
  | [], _ => pure ()
  | p :: rest, lastIndices => do
    let indices := p.index0 * 2 ^ 16 + p.index1
    let asset0 ← AssetLib.get assets (indices >>> INDEX_A_OFFSET)
    let asset1 ← AssetLib.get assets (indices &&& INDEX_B_MASK)
    if indices ≤ lastIndices ∨ asset0 ≥ asset1 then throw .outOfOrderOrDuplicatePairs
    validate assets rest indices

theorem shiftRight_indexA {index0 index1 : Nat} (h : index1 < 2 ^ 16) :
    (index0 * 2 ^ 16 + index1) >>> INDEX_A_OFFSET = index0 := by
  rw [INDEX_A_OFFSET, Nat.shiftRight_eq_div_pow]
  omega

theorem and_indexB {index0 index1 : Nat} (h : index1 < 2 ^ 16) :
    (index0 * 2 ^ 16 + index1) &&& INDEX_B_MASK = index1 := by
  rw [INDEX_B_MASK, show (0xffff : Nat) = 2 ^ 16 - 1 from rfl, Nat.and_two_pow_sub_one_eq_mod]
  omega

/-- For pairs whose second index fits its `u16`, the checks accept exactly the lists whose
indices' `u32`s rise strictly from `lastIndices` and whose pairs name two assets of the array,
the first below the second. -/
theorem validate_eq_ok_iff {assets : List Address} {pairs : List Payload.Pair}
    {lastIndices : Nat} (hfit : ∀ p ∈ pairs, p.index1 < 2 ^ 16) :
    validate assets pairs lastIndices = .ok () ↔
      (lastIndices :: pairs.map fun p => p.index0 * 2 ^ 16 + p.index1).Pairwise (· < ·) ∧
        ∀ p ∈ pairs, ∃ a0 a1, assets[p.index0]? = some a0 ∧ assets[p.index1]? = some a1 ∧
          a0 < a1 := by
  rw [← List.isChain_iff_pairwise]
  induction pairs generalizing lastIndices with
  | nil => simp [validate]
  | cons p pairs ih =>
    have hp := hfit p List.mem_cons_self
    rw [validate, shiftRight_indexA hp, and_indexB hp, List.map_cons, List.isChain_cons_cons,
      List.forall_mem_cons]
    cases h0 : assets[p.index0]? with
    | none => simp [AssetLib.get, h0]
    | some a0 =>
      cases h1 : assets[p.index1]? with
      | none => simp [AssetLib.get, h0, h1]
      | some a1 =>
        have hpair : (∃ b0 b1, some a0 = some b0 ∧ some a1 = some b1 ∧ b0 < b1) ↔ a0 < a1 := by
          simp
        rw [hpair]
        simp only [AssetLib.get, h0, h1, pure_bind]
        by_cases hc : p.index0 * 2 ^ 16 + p.index1 ≤ lastIndices ∨ a0 ≥ a1
        · rw [if_pos hc]
          simp only [Checked.throw_bind, Checked.throw_ne_ok, false_iff]
          rintro ⟨⟨hlt, -⟩, hlt', -⟩
          rcases hc with hc | hc
          · omega
          · exact absurd hlt' (not_lt.2 hc)
        · rw [if_neg hc, ih fun q hq => hfit q (List.mem_cons_of_mem p hq)]
          simp only [not_or, not_le] at hc
          constructor
          · rintro ⟨hc1, hc2⟩
            exact ⟨⟨hc.1, hc1⟩, hc.2, hc2⟩
          · rintro ⟨⟨-, hc1⟩, -, hc2⟩
            exact ⟨hc1, hc2⟩

end PairLib

/-! ## Pool updates -/

namespace PoolUpdates

/-- The reads of `_decodeAndReward`. A `CurrentOnly` update is an amount and the expected
liquidity. A `MultiTick` update is the start tick, the start liquidity, the list of amounts, of
which the reward loop reads `crossed + 1` and the current tick one more, which must end the
list, and the checksum. -/
def readRewards (crossed : Nat) (cd : Calldata) (currentOnly : Bool) (reader : CalldataReader) :
    Except Revert (CalldataReader × RewardsUpdate) :=
  if currentOnly then
    let (reader, amount) := readU128 cd reader
    let (reader, expectedLiquidity) := readU128 cd reader
    pure (reader, .currentOnly amount expectedLiquidity)
  else do
    let (reader, startTick) := readI24 cd reader
    let (reader, liquidity) := readU128 cd reader
    let (newReader, amountsEnd) := readU24End cd reader
    let (newReader, amounts) := Pade.readCount (readU128 cd) (crossed + 1) newReader
    let (newReader, donateToCurrent) := readU128 cd newReader
    requireAtEndOf newReader amountsEnd
    let (newReader, expectedRewardChecksum) := readU160 cd newReader
    pure (newReader,
      .multiTick startTick liquidity (amounts ++ [donateToCurrent]) expectedRewardChecksum)

def readPoolUpdate (crossed : Nat) (cd : Calldata) (reader : CalldataReader) :
    Except Revert (CalldataReader × PoolUpdate) := do
  let (reader, variantByte) := readU8 cd reader
  let variantMap : PoolUpdateVariantMap := ⟨variantByte⟩
  let (reader, pairIndex) := readU16 cd reader
  let (reader, amountIn) := readU128 cd reader
  let (reader, rewardsUpdate) ← readRewards crossed cd variantMap.currentOnly reader
  pure (reader, ⟨variantMap.zeroForOne, pairIndex, amountIn, rewardsUpdate⟩)

/-- The reads of `_updatePools`, where the reward loop of the `k`-th update crosses `crossed k`
initialized ticks. -/
def readPoolUpdates (crossed : Nat → Nat) (cd : Calldata) (reader : CalldataReader) :
    Except Revert (CalldataReader × List PoolUpdate) :=
  let (reader, stop) := readU24End cd reader
  Pade.readUntil (fun k => readPoolUpdate (crossed k) cd) stop .outOfGas (stop - reader) 0 reader

end PoolUpdates

/-! ## Orders -/

namespace SignatureLib

/-- The read of `readAndCheckEcdsa`: the 65 bytes `v ‖ r ‖ s` it copies for `ecrecover`. -/
def readEcdsa (cd : Calldata) (reader : CalldataReader) : CalldataReader × Signature :=
  (reader + 65, .ecdsa (ofBE (window cd reader 1)) (ofBE (window cd (reader + 1) 32))
    (ofBE (window cd (reader + 33) 32)))

/-- The reads of `readAndCheckERC1271`: the signer, then the signature bytes. -/
def readERC1271 (cd : Calldata) (reader : CalldataReader) : CalldataReader × Signature :=
  let (reader, signer) := readAddr cd reader
  let (reader, signature) := readBytes cd reader
  (reader, .contract (toAddress signer) signature)

def readSignature (cd : Calldata) (isEcdsa : Bool) (reader : CalldataReader) :
    CalldataReader × Signature :=
  if isEcdsa then readEcdsa cd reader else readERC1271 cd reader

end SignatureLib

def readRecipient (cd : Calldata) (recipientIsSome : Bool) (reader : CalldataReader) :
    CalldataReader × Option Address :=
  if recipientIsSome then
    let (reader, recipient) := readAddr cd reader
    (reader, some (toAddress recipient))
  else (reader, none)

def readToBOrder (cd : Calldata) (reader : CalldataReader) : CalldataReader × TopOfBlockOrder :=
  let (reader, variantByte) := readU8 cd reader
  let variantMap : ToBOrderVariantMap := ⟨variantByte⟩
  let (reader, quantityIn) := readU128 cd reader
  let (reader, quantityOut) := readU128 cd reader
  let (reader, maxGasAsset0) := readU128 cd reader
  let (reader, gasUsedAsset0) := readU128 cd reader
  let (reader, pairIndex) := readU16 cd reader
  let (reader, recipient) := readRecipient cd variantMap.recipientIsSome reader
  let (reader, signature) := SignatureLib.readSignature cd variantMap.isEcdsa reader
  (reader, ⟨variantMap.useInternal, quantityIn, quantityOut, maxGasAsset0, gasUsedAsset0,
    pairIndex, variantMap.zeroForOne, recipient, signature⟩)

def readToBOrders (cd : Calldata) (reader : CalldataReader) :
    Except Revert (CalldataReader × List TopOfBlockOrder) :=
  let (reader, stop) := readU24End cd reader
  Pade.readUntil (fun _ reader => pure (readToBOrder cd reader)) stop .outOfGas (stop - reader) 0
    reader

/-- The reads of `HookBufferLib.readFrom`: the hook's address and payload as one byte string. -/
def HookBufferLib.readHook (cd : Calldata) (noHookToRead : Bool) (reader : CalldataReader) :
    CalldataReader × Option (List UInt8) :=
  if noHookToRead then (reader, none)
  else
    let (reader, hookData) := readBytes cd reader
    (reader, some hookData)

namespace UserOrderBufferLib

def REF_ID_BYTES : Nat := 4
def NONCE_BYTES : Nat := 8
def DEADLINE_BYTES : Nat := 5

/-- The reads of `readOrderValidation`: the nonce and deadline of a standing order, copied from
calldata; a flash order reads nothing. -/
def readOrderValidation (cd : Calldata) (variant : UserOrderVariantMap) (reader : CalldataReader) :
    CalldataReader × Option StandingValidation :=
  if variant.isStanding then
    let (reader, nonce) := readUint NONCE_BYTES cd reader
    let (reader, deadline) := readUint DEADLINE_BYTES cd reader
    (reader, some ⟨nonce, deadline⟩)
  else (reader, none)

/-- The reads of `loadAndComputeQuantity`: the quantities, then the gas fee's maximum and the
gas fee. -/
def readQuantities (cd : Calldata) (variant : UserOrderVariantMap) (reader : CalldataReader) :
    CalldataReader × OrderQuantities × Nat × Nat :=
  let (reader, quantities) :=
    if variant.quantitiesPartial then
      let (reader, minQuantityIn) := readU128 cd reader
      let (reader, maxQuantityIn) := readU128 cd reader
      let (reader, quantity) := readU128 cd reader
      (reader, OrderQuantities.ranged minQuantityIn maxQuantityIn quantity)
    else
      let (reader, quantity) := readU128 cd reader
      (reader, OrderQuantities.exact quantity)
  let (reader, maxExtraFeeAsset0) := readU128 cd reader
  let (reader, extraFeeAsset0) := readU128 cd reader
  (reader, quantities, maxExtraFeeAsset0, extraFeeAsset0)

end UserOrderBufferLib

open UserOrderBufferLib in
/-- The reads of `_validateAndExecuteUserOrder`: `init` (the variant byte and the ref id copied
from calldata), the pair index, the minimum price, the recipient, the hook, the order
validation, the quantities and the signature. -/
def readUserOrder (cd : Calldata) (reader : CalldataReader) : CalldataReader × UserOrder :=
  let (reader, variantByte) := readU8 cd reader
  let variantMap : UserOrderVariantMap := ⟨variantByte⟩
  let (reader, refId) := readUint REF_ID_BYTES cd reader
  let (reader, pairIndex) := readU16 cd reader
  let (reader, minPrice) := readU256 cd reader
  let (reader, recipient) := readRecipient cd variantMap.recipientIsSome reader
  let (reader, hookData) := HookBufferLib.readHook cd variantMap.noHook reader
  let (reader, standingValidation) := readOrderValidation cd variantMap reader
  let (reader, orderQuantities, maxExtraFeeAsset0, extraFeeAsset0) :=
    readQuantities cd variantMap reader
  let (reader, signature) := SignatureLib.readSignature cd variantMap.isEcdsa reader
  (reader, ⟨refId, variantMap.useInternal, pairIndex, minPrice, recipient, hookData,
    variantMap.zeroForOne, standingValidation, orderQuantities, maxExtraFeeAsset0,
    extraFeeAsset0, variantMap.exactIn, signature⟩)

def readUserOrders (cd : Calldata) (reader : CalldataReader) :
    Except Revert (CalldataReader × List UserOrder) :=
  let (reader, stop) := readU24End cd reader
  Pade.readUntil (fun _ reader => pure (readUserOrder cd reader)) stop .outOfGas (stop - reader) 0
    reader

/-! ## The bundle -/

/-- The reads of `unlockCallback` on `data`, at `offset` in the calldata and `length` bytes long:
assets, pairs, pool updates, top-of-block orders and user orders, then `requireAtEndOf(data)`. -/
def readBundle (crossed : Nat → Nat) (cd : Calldata) (offset length : Nat) :
    Except Revert AngstromBundle := do
  let (reader, assets) := AssetLib.readAssets cd offset
  let (reader, pairs) := PairLib.readPairs cd reader
  let (reader, poolUpdates) ← PoolUpdates.readPoolUpdates crossed cd reader
  let (reader, topOfBlockOrders) ← readToBOrders cd reader
  let (reader, userOrders) ← readUserOrders cd reader
  requireAtEndOf reader (offset + length)
  pure ⟨assets, pairs, poolUpdates, topOfBlockOrders, userOrders⟩

end Angstrom.Contract
